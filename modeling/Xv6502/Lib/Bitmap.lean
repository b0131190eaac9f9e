import Mathlib.Data.BitVec
import Mathlib.Logic.Function.Basic

/-!
# Bitmaps in Bytes

A set of numbers as the bits of a sequence of bytes, eight to a byte and the lowest bit first, with
the operations on one bit.
-/

namespace Xv6502.Lib

variable {bytes : Nat → BitVec 8} {n k : Nat}

/-- The bit of a number. -/
def bit (bytes : Nat → BitVec 8) (n : Nat) : Bool := (bytes (n / 8)).getLsbD (n % 8)

/-- The bit is set: `bytes[n >> 3] |= 1 << (n % 8)`. -/
def setBit (bytes : Nat → BitVec 8) (n : Nat) : Nat → BitVec 8 :=
  Function.update bytes (n / 8) (bytes (n / 8) ||| 1#8 <<< (n % 8))

/-- The bit is cleared: `bytes[n >> 3] &= ~(1 << (n % 8))`. -/
def clearBit (bytes : Nat → BitVec 8) (n : Nat) : Nat → BitVec 8 :=
  Function.update bytes (n / 8) (bytes (n / 8) &&& ~~~(1#8 <<< (n % 8)))

/-- The bits of `count` numbers from `start` on are set. -/
def setBits (bytes : Nat → BitVec 8) (start : Nat) : Nat → Nat → BitVec 8
  | 0 => bytes
  | count + 1 => setBit (setBits bytes start count) (start + count)

theorem getLsbD_mask (i j : Nat) (hj : j < 8) : (1#8 <<< i).getLsbD j = decide (j = i) := by
  rw [BitVec.getLsbD_shiftLeft, BitVec.getLsbD_one, Bool.eq_iff_iff]
  simp only [Bool.and_eq_true, Bool.not_eq_true', decide_eq_true_eq, decide_eq_false_iff_not]
  omega

/-- Two numbers of one byte are told apart by their places in it. -/
theorem mod_eq_iff (hByte : k / 8 = n / 8) : k % 8 = n % 8 ↔ k = n := by omega

theorem bit_setBit : bit (setBit bytes n) k = (bit bytes k || decide (k = n)) := by
  have hk : k % 8 < 8 := Nat.mod_lt _ (by decide)
  unfold bit setBit
  by_cases hByte : k / 8 = n / 8
  · rw [hByte, Function.update_self, BitVec.getLsbD_or, getLsbD_mask _ _ hk]
    simp only [mod_eq_iff hByte]
  · have hNe : k ≠ n := fun h => hByte (by rw [h])
    rw [Function.update_of_ne hByte, decide_eq_false hNe, Bool.or_false]

theorem bit_clearBit : bit (clearBit bytes n) k = (bit bytes k && decide (k ≠ n)) := by
  have hk : k % 8 < 8 := Nat.mod_lt _ (by decide)
  unfold bit clearBit
  by_cases hByte : k / 8 = n / 8
  · rw [hByte, Function.update_self, BitVec.getLsbD_and, BitVec.getLsbD_not, getLsbD_mask _ _ hk]
    simp only [mod_eq_iff hByte, hk, decide_true, Bool.true_and, decide_not]
  · have hNe : k ≠ n := fun h => hByte (by rw [h])
    rw [Function.update_of_ne hByte, decide_eq_true hNe, Bool.and_true]

theorem bit_setBits (start count : Nat) :
    bit (setBits bytes start count) k =
      (bit bytes k || decide (start ≤ k ∧ k < start + count)) := by
  induction count with
  | zero => simp [setBits]
  | succ count ih =>
    rw [setBits, bit_setBit, ih, Bool.or_assoc, ← Bool.decide_or]
    congr 2
    apply propext
    omega

/-- The bit at a place of a byte. -/
theorem bit_byte (k : Nat) {i : Nat} (hi : i < 8) : bit bytes (k * 8 + i) = (bytes k).getLsbD i := by
  have hDiv : (k * 8 + i) / 8 = k := by omega
  have hMod : (k * 8 + i) % 8 = i := by omega
  rw [bit, hDiv, hMod]

end Xv6502.Lib
