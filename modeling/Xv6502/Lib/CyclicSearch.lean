import Mathlib.Data.Fin.Basic
import Mathlib.Algebra.Group.Fin.Basic
import Mathlib.Algebra.GroupWithZero.Nat

/-!
# Searches around a Cycle

A search that looks at the elements of `Fin n` one after the other, from a starting point on
and around the end, and the number of turns it needs to reach an element.
-/

namespace Xv6502.Lib

variable {n : Nat}

/-! ## §1 The way ahead -/

/-- The number of turns from `i` to `q`. -/
def ahead (i q : Fin n) : Nat := (q - i).val

theorem ahead_lt (i q : Fin n) : ahead i q < n := (q - i).isLt

variable [NeZero n]

theorem ahead_ne_zero {i q : Fin n} (h : i ≠ q) : ahead i q ≠ 0 := by
  intro hZero
  have hSub : q - i = 0 := Fin.ext hZero
  exact h (sub_eq_zero.mp hSub).symm

/-- A turn that does not pass `q` comes nearer to it. -/
theorem ahead_succ {i q : Fin n} (h : i ≠ q) : ahead (i + 1) q + 1 = ahead i q := by
  have hPos : 0 < (q - i).val := Nat.pos_of_ne_zero (ahead_ne_zero h)
  have hNext : q - (i + 1) = (q - i) - 1 := sub_add_eq_sub_sub q i 1
  have hOne : (1 : Fin n).val ≤ (q - i).val := by
    rw [Fin.val_one']
    exact le_trans (Nat.mod_le 1 n) hPos
  have hTwo : 1 < n := lt_of_le_of_lt hPos (q - i).isLt
  rw [ahead, hNext, Fin.sub_val_of_le hOne, Fin.val_one', Nat.mod_eq_of_lt hTwo]
  exact Nat.sub_add_cancel hPos

/-! ## §2 The search -/

variable {test : Fin n → Bool} {i p : Fin n} {k : Nat}

/-- The first element with the test among the next `k` from `i` on. -/
def search (test : Fin n → Bool) : Nat → Fin n → Option (Fin n)
  | 0, _ => none
  | k + 1, i => if test i then some i else search test k (i + 1)

/-- What is found has the test. -/
theorem search_some (h : search test k i = some p) : test p = true := by
  induction k generalizing i with
  | zero => cases h
  | succ k ih =>
    rw [search] at h
    split at h
    · next hTest =>
      obtain rfl := Option.some.inj h
      exact hTest
    · exact ih h

theorem search_none_ahead (h : search test k i = none) (hNear : ahead i p < k) : test p = false := by
  induction k generalizing i with
  | zero => exact absurd hNear (Nat.not_lt_zero _)
  | succ k ih =>
    rw [search] at h
    split at h
    · cases h
    · next hTest =>
      by_cases hHere : i = p
      · exact hHere ▸ Bool.eq_false_iff.mpr hTest
      · have hTurn := ahead_succ hHere
        exact ih h (by omega)

/-- A search around the whole cycle misses nothing. -/
theorem search_none (h : search test n i = none) (p : Fin n) : test p = false :=
  search_none_ahead h (ahead_lt i p)

end Xv6502.Lib
