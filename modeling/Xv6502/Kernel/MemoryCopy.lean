import Xv6502.Emulator.MemoryMap
import Mathlib.Logic.Function.Basic

/-!
# `memmove` and `memcpy`

The two loops of `memmove` in `kernel/string.c`, over the 64 KB of the address space. `memmove`
copies upwards if the source lies above the destination and downwards otherwise, so that it is right
for every overlap (`copyUp_copied`, `copyDown_copied`). Its count is an `int` of 16 bits, to which
`memcpy` passes its `uint16_t`: from 32768 on the count is negative and nothing is copied
(`memcpy_copied_iff`).
-/

namespace Xv6502.Kernel

open Xv6502.Emulator

/-! ## §1 `memmove` -/

/-- What the 64 KB of the address space hold. -/
abbrev Memory := Word → Byte

namespace Memory

/-- `while(n-- > 0) *dst++ = *src++`, `n` turns. -/
def copyUp (mem : Memory) (dst src : Word) : Nat → Memory
  | 0 => mem
  | n + 1 => copyUp (Function.update mem dst (mem src)) (dst + 1) (src + 1) n

/-- `while(n-- > 0) *--dst = *--src`, `n` turns. -/
def copyDown (mem : Memory) (dst src : Word) : Nat → Memory
  | 0 => mem
  | n + 1 => copyDown (Function.update mem (dst - 1) (mem (src - 1))) (dst - 1) (src - 1) n

/-- `memmove`, with an `int` of 16 bits for the count. -/
def memmove (mem : Memory) (dst src n : Word) : Memory :=
  -- a negative count makes no turn
  if dst < src then mem.copyUp dst src n.toInt.toNat
  else mem.copyDown (dst + n) (src + n) n.toInt.toNat

/-- `memcpy`: its `uint16_t` is the `int` of `memmove`. -/
def memcpy (mem : Memory) (dst src size : Word) : Memory := mem.memmove dst src size

end Memory

/-! ## §2 Ranges -/

/-- The `n` bytes from an address on do not run past the end of the address space. -/
def Fits (base : Word) (n : Nat) : Prop := base.toNat + n ≤ 0x10000

instance (base : Word) (n : Nat) : Decidable (Fits base n) := inferInstanceAs (Decidable (_ ≤ _))

/-- The address is one of the `n` bytes from `base` on. -/
def Covers (base : Word) (n : Nat) (addr : Word) : Prop :=
  base.toNat ≤ addr.toNat ∧ addr.toNat < base.toNat + n

/-- The `n` bytes from `src` on have come to `dst`, and nothing else has changed. -/
structure Copied (mem mem' : Memory) (dst src : Word) (n : Nat) : Prop where
  bytes : ∀ i, i < n → mem' (dst + BitVec.ofNat 16 i) = mem (src + BitVec.ofNat 16 i)
  rest : ∀ addr, ¬ Covers dst n addr → mem' addr = mem addr

section Ranges

variable {base : Word} {n i : Nat}

theorem add_ofNat_zero (base : Word) : base + BitVec.ofNat 16 0 = base := BitVec.add_zero base

theorem Fits.toNat (h : Fits base n) (hi : i < n) :
    (base + BitVec.ofNat 16 i).toNat = base.toNat + i := by
  unfold Fits at h
  rw [BitVec.toNat_add, BitVec.toNat_ofNat]
  omega

theorem Fits.succ (h : Fits base (n + 1)) (hn : n ≠ 0) : (base + 1).toNat = base.toNat + 1 := by
  have hOne := h.toNat (i := 1) (by omega)
  exact hOne

/-- A covered address is one of the bytes. -/
theorem Covers.exists {addr : Word} (h : Covers base n addr) :
    ∃ i, i < n ∧ addr = base + BitVec.ofNat 16 i := by
  obtain ⟨hLow, hHigh⟩ := h
  refine ⟨addr.toNat - base.toNat, by omega, ?_⟩
  apply BitVec.eq_of_toNat_eq
  have hAddr := addr.isLt
  rw [BitVec.toNat_add, BitVec.toNat_ofNat]
  omega

/-- A copy is determined by what it does. -/
theorem Copied.unique {mem mem₁ mem₂ : Memory} {dst src : Word} (h₁ : Copied mem mem₁ dst src n)
    (h₂ : Copied mem mem₂ dst src n) : mem₁ = mem₂ := by
  funext addr
  by_cases hCovers : Covers dst n addr
  · obtain ⟨i, hi, rfl⟩ := hCovers.exists
    rw [h₁.bytes i hi, h₂.bytes i hi]
  · rw [h₁.rest addr hCovers, h₂.rest addr hCovers]

end Ranges

/-! ## §3 The loops -/

section Loops

variable {mem : Memory} {dst src : Word} {n : Nat}

/-- The turns upwards do not overwrite what is still to be copied, if the source lies above. -/
theorem copyUp_copied (hDst : Fits dst n) (hSrc : Fits src n) (hAbove : dst < src) :
    Copied mem (mem.copyUp dst src n) dst src n := by
  induction n generalizing mem dst src with
  | zero => exact ⟨fun i hi => absurd hi (Nat.not_lt_zero i), fun _ _ => rfl⟩
  | succ n ih =>
    rw [Memory.copyUp]
    have hLt : dst.toNat < src.toNat := hAbove
    by_cases hLast : n = 0
    · subst hLast
      constructor
      · intro i hi
        obtain rfl : i = 0 := by omega
        show Function.update mem dst (mem src) (dst + BitVec.ofNat 16 0) = _
        rw [add_ofNat_zero, add_ofNat_zero, Function.update_self]
      · intro addr hNot
        apply Function.update_of_ne
        rintro rfl
        exact hNot ⟨le_rfl, by omega⟩
    · have hDstNext := hDst.succ hLast
      have hSrcNext := hSrc.succ hLast
      unfold Fits at hDst hSrc
      have hRest := @ih (Function.update mem dst (mem src)) (dst + 1) (src + 1)
        (by unfold Fits; omega) (by unfold Fits; omega) (by show (dst + 1).toNat < _; omega)
      have hShift : ∀ (base : Word) (i : Nat),
          base + BitVec.ofNat 16 (i + 1) = base + 1 + BitVec.ofNat 16 i := by
        intro base i
        rw [BitVec.ofNat_add, BitVec.add_comm (BitVec.ofNat 16 i), BitVec.add_assoc]
        rfl
      constructor
      · intro i hi
        cases i with
        | zero =>
          -- the first byte is not in the rest of the destination
          have hFirst := hRest.rest dst (by unfold Covers; omega)
          rw [add_ofNat_zero, add_ofNat_zero, hFirst, Function.update_self]
        | succ i =>
          have hAt : Fits (src + 1) n := by unfold Fits; omega
          have hSrcAt := hAt.toNat (show i < n by omega)
          rw [hShift, hShift, hRest.bytes i (by omega)]
          apply Function.update_of_ne
          rintro hEq
          rw [hEq] at hSrcAt
          omega
      · intro addr hNot
        unfold Covers at hNot
        rw [hRest.rest addr (by unfold Covers; omega)]
        apply Function.update_of_ne
        rintro rfl
        omega

/-- The turns downwards do not either, if the source does not lie above. -/
theorem copyDown_copied (hDst : Fits dst n) (hSrc : Fits src n) (hAbove : ¬ dst < src) :
    Copied mem (mem.copyDown (dst + BitVec.ofNat 16 n) (src + BitVec.ofNat 16 n) n) dst src n := by
  have hLe : src.toNat ≤ dst.toNat := Nat.le_of_not_lt hAbove
  -- on the bytes, from the last one down: what is overwritten has been copied already
  induction n generalizing mem with
  | zero => exact ⟨fun i hi => absurd hi (Nat.not_lt_zero i), fun _ _ => rfl⟩
  | succ n ih =>
    have hShift : ∀ base : Word, base + BitVec.ofNat 16 (n + 1) - 1 = base + BitVec.ofNat 16 n := by
      intro base
      rw [BitVec.ofNat_add, ← BitVec.add_assoc]
      exact BitVec.add_sub_cancel _ _
    have hDstAt := hDst.toNat (Nat.lt_succ_self n)
    have hSrcAt := hSrc.toNat (Nat.lt_succ_self n)
    rw [Memory.copyDown, hShift, hShift]
    have hDst' : Fits dst n := by
      unfold Fits at hDst ⊢
      omega
    have hSrc' : Fits src n := by
      unfold Fits at hSrc ⊢
      omega
    have hRest := @ih (Function.update mem (dst + BitVec.ofNat 16 n) (mem (src + BitVec.ofNat 16 n)))
      hDst' hSrc'
    constructor
    · intro i hi
      by_cases hTop : i = n
      · subst hTop
        rw [hRest.rest _ (by unfold Covers; omega), Function.update_self]
      · have hSrcI := hSrc'.toNat (show i < n by omega)
        rw [hRest.bytes i (by omega)]
        apply Function.update_of_ne
        intro hEq
        rw [hEq] at hSrcI
        omega
    · intro addr hNot
      unfold Covers at hNot
      rw [hRest.rest addr (by unfold Covers; omega)]
      apply Function.update_of_ne
      rintro rfl
      omega

end Loops

/-! ## §4 `memcpy` -/

section Memcpy

variable {mem : Memory} {dst src n : Word}

/-- A count that is not negative. -/
theorem memmove_copied (hDst : Fits dst n.toNat) (hSrc : Fits src n.toNat)
    (hSmall : n.toNat < 0x8000) : Copied mem (mem.memmove dst src n) dst src n.toNat := by
  have hCount : n.toInt.toNat = n.toNat := by
    rw [BitVec.toInt_eq_toNat_of_lt (by omega), Int.toNat_natCast]
  unfold Memory.memmove
  rw [hCount]
  split
  · next hAbove => exact copyUp_copied hDst hSrc hAbove
  · next hAbove =>
    have hDown : Copied mem (mem.copyDown (dst + BitVec.ofNat 16 n.toNat)
        (src + BitVec.ofNat 16 n.toNat) n.toNat) dst src n.toNat :=
      copyDown_copied hDst hSrc hAbove
    rwa [BitVec.ofNat_toNat, BitVec.setWidth_eq] at hDown

/-- A negative count. -/
theorem memmove_negative (hLarge : 0x8000 ≤ n.toNat) : mem.memmove dst src n = mem := by
  have hCount : n.toInt.toNat = 0 := by
    rw [BitVec.toInt_eq_toNat_cond, if_neg (by omega)]
    have hLt := n.isLt
    omega
  unfold Memory.memmove
  rw [hCount]
  split <;> rfl

/-- **`memcpy` copies `n` bytes** exactly if `n` is below 32768, or the destination already holds
    the bytes of the source. `memmove` takes its length as a signed number, so from 32768 on its
    loops do not begin. -/
theorem memcpy_copied_iff (hDst : Fits dst n.toNat) (hSrc : Fits src n.toNat) :
    Copied mem (mem.memcpy dst src n) dst src n.toNat ↔
      n.toNat < 0x8000 ∨
        ∀ i, i < n.toNat → mem (dst + BitVec.ofNat 16 i) = mem (src + BitVec.ofNat 16 i) := by
  unfold Memory.memcpy
  by_cases hSmall : n.toNat < 0x8000
  · exact ⟨fun _ => .inl hSmall, fun _ => memmove_copied hDst hSrc hSmall⟩
  · rw [memmove_negative (Nat.le_of_not_lt hSmall)]
    constructor
    · exact fun hCopied => .inr hCopied.bytes
    · intro hSame
      exact ⟨hSame.resolve_left hSmall, fun _ _ => rfl⟩

end Memcpy

/-- 32768 bytes from 0 on, the first of them 1, do not come to 32768. -/
theorem memcpy_half_space :
    Fits 0x8000 0x8000 ∧ Fits 0 0x8000 ∧
      ¬ Copied (fun addr => if addr = 0 then 1 else 0)
        (Memory.memcpy (fun addr => if addr = 0 then 1 else 0) 0x8000 0 0x8000) 0x8000 0
          0x8000 := by
  refine ⟨by decide, by decide, fun hCopied => ?_⟩
  have hFirst := hCopied.bytes 0 (by decide)
  rw [Memory.memcpy, memmove_negative (by decide)] at hFirst
  exact absurd hFirst (by decide)

/-- Two bytes go up by one. -/
theorem memcpy_overlap :
    Copied (BitVec.setWidth 8) (Memory.memcpy (BitVec.setWidth 8) 0x1001 0x1000 2) 0x1001 0x1000
      2 :=
  (memcpy_copied_iff (n := 2) (by decide) (by decide)).mpr (.inl (by decide))

end Xv6502.Kernel
