import Mathlib.Data.List.Basic
import Mathlib.Logic.Function.Basic
import Mathlib.Algebra.GroupWithZero.Nat

/-!
# Ring Buffers with Wrapping Indices

A ring of `2 ^ w` cells whose two indices are `w`-bit numbers that wrap by themselves. The
ring stands for the queue of the cells from the tail up to the head, so it holds at most
`2 ^ w - 1` elements: one more, and the head is the tail again.
-/

namespace Xv6502.Lib

/-- The cells and the two indices: elements are written at the head and read at the tail. -/
structure Ring (w : Nat) (α : Type) where
  buffer : BitVec w → α
  head : BitVec w
  tail : BitVec w

namespace Ring

variable {w : Nat} {α : Type}

/-! ## §1 The queue of a ring -/

/-- The number of cells from the tail up to the head. -/
def count (r : Ring w α) : Nat := (r.head - r.tail).toNat

/-- The cell that is `i` places behind the tail. -/
def cell (r : Ring w α) (i : Nat) : α := r.buffer (r.tail + BitVec.ofNat w i)

/-- The queue, its front first. -/
def contents (r : Ring w α) : List α := (List.range r.count).map r.cell

/-- Write a cell and move the head. -/
def push (r : Ring w α) (x : α) : Ring w α :=
  { r with buffer := Function.update r.buffer r.head x, head := r.head + 1 }

/-- Move the tail. -/
def pop (r : Ring w α) : Ring w α := { r with tail := r.tail + 1 }

@[simp] theorem length_contents (r : Ring w α) : r.contents.length = r.count := by
  simp [contents]

theorem count_eq_zero_iff (r : Ring w α) : r.count = 0 ↔ r.head = r.tail := by
  unfold count
  rw [← BitVec.toNat_inj, BitVec.toNat_sub]
  have hHead := r.head.isLt
  have hTail := r.tail.isLt
  constructor
  · intro hZero
    by_contra hNe
    rcases Nat.lt_or_gt_of_ne hNe with hLt | hGt
    · rw [Nat.mod_eq_of_lt (by omega)] at hZero
      omega
    · rw [show 2 ^ w - r.tail.toNat + r.head.toNat = r.head.toNat - r.tail.toNat + 2 ^ w by omega,
        Nat.add_mod_right, Nat.mod_eq_of_lt (by omega)] at hZero
      omega
  · intro hEq
    rw [show 2 ^ w - r.tail.toNat + r.head.toNat = 2 ^ w by omega, Nat.mod_self]

theorem contents_eq_nil_iff (r : Ring w α) : r.contents = [] ↔ r.head = r.tail := by
  rw [← count_eq_zero_iff, ← length_contents, List.length_eq_zero_iff]

/-- The head is `count` places behind the tail. -/
theorem tail_add_count (r : Ring w α) : r.tail + BitVec.ofNat w r.count = r.head := by
  unfold count
  rw [BitVec.ofNat_toNat, BitVec.setWidth_eq, BitVec.add_comm, BitVec.sub_add_cancel]

/-! ## §2 Pushing and popping -/

/-- In a ring with more than one cell the step of an index is 1. -/
theorem toNat_one_of_lt (h : 1 < 2 ^ w) : (1 : BitVec w).toNat = 1 := by
  show (BitVec.ofNat w 1).toNat = 1
  rw [BitVec.toNat_ofNat, Nat.mod_eq_of_lt h]

theorem count_push (r : Ring w α) (x : α) (h : r.count + 1 < 2 ^ w) :
    (r.push x).count = r.count + 1 := by
  have hSub : r.head + 1 - r.tail = r.head - r.tail + 1 := by
    rw [BitVec.sub_eq_add_neg, BitVec.sub_eq_add_neg, BitVec.add_assoc, BitVec.add_assoc,
      BitVec.add_comm 1]
  show (r.head + 1 - r.tail).toNat = _
  rw [hSub, BitVec.toNat_add, toNat_one_of_lt (by omega)]
  exact Nat.mod_eq_of_lt h

/-- A ring that is not full takes an element at the back of its queue. -/
theorem contents_push (r : Ring w α) (x : α) (h : r.count + 1 < 2 ^ w) :
    (r.push x).contents = r.contents ++ [x] := by
  have hCell : ∀ i, i ≤ r.count → (r.push x).cell i = if i = r.count then x else r.cell i := by
    intro i hi
    show Function.update r.buffer r.head x (r.tail + BitVec.ofNat w i) = _
    by_cases hLast : i = r.count
    · rw [if_pos hLast, hLast, tail_add_count, Function.update_self]
    · rw [if_neg hLast, Function.update_of_ne]
      · rfl
      · -- two places below `2 ^ w` are the same only if their distances are
        rw [← tail_add_count, Ne, BitVec.add_right_inj, ← BitVec.toNat_inj, BitVec.toNat_ofNat,
          BitVec.toNat_ofNat, Nat.mod_eq_of_lt (by omega), Nat.mod_eq_of_lt (by omega)]
        exact hLast
  unfold contents
  rw [count_push r x h, List.range_succ, List.map_append]
  congr 1
  · apply List.map_congr_left
    intro i hi
    have hLt := List.mem_range.mp hi
    rw [hCell i (by omega), if_neg (by omega)]
  · rw [List.map_singleton, hCell _ (Nat.le_refl _), if_pos rfl]

/-- A ring that is not empty has the cell of its tail at the front. -/
theorem contents_of_ne (r : Ring w α) (h : r.head ≠ r.tail) :
    r.contents = r.buffer r.tail :: r.pop.contents := by
  have hPos : r.count ≠ 0 := fun hZero => h ((count_eq_zero_iff r).mp hZero)
  have hSize : r.count < 2 ^ w := (r.head - r.tail).isLt
  have hCount : r.pop.count = r.count - 1 := by
    have hSub : r.head - (r.tail + 1) = r.head - r.tail - 1 := by
      rw [BitVec.sub_eq_add_neg, BitVec.neg_add, BitVec.sub_eq_add_neg _ (1 : BitVec w),
        BitVec.sub_eq_add_neg, BitVec.sub_eq_add_neg, BitVec.add_assoc]
    show (r.head - (r.tail + 1)).toNat = _
    rw [hSub, BitVec.toNat_sub, toNat_one_of_lt (by omega)]
    show (2 ^ w - 1 + r.count) % 2 ^ w = _
    rw [show 2 ^ w - 1 + r.count = r.count - 1 + 2 ^ w by omega, Nat.add_mod_right,
      Nat.mod_eq_of_lt (by omega)]
  -- the cells move up by one
  have hCell : ∀ i, r.pop.cell i = r.cell (i + 1) := by
    intro i
    show r.buffer (r.tail + 1 + BitVec.ofNat w i) = r.buffer (r.tail + BitVec.ofNat w (i + 1))
    rw [BitVec.add_assoc, Nat.add_comm i 1, BitVec.ofNat_add]
    rfl
  unfold contents
  rw [hCount, show r.count = r.count - 1 + 1 by omega, List.range_succ_eq_map, List.map_cons,
    List.map_map, Nat.add_sub_cancel]
  congr 1
  · show r.buffer (r.tail + BitVec.ofNat w 0) = _
    rw [BitVec.add_zero]
  · apply List.map_congr_left
    intro i _
    exact (hCell i).symm

end Ring

end Xv6502.Lib
