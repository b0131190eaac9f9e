import Xv6502.Block.FreeMap

/-!
# The Outer Loop of `block_alloc` on Disks of Any Size

`for(block = 0; block < sb.size; block += BITS_PER_BLOCK)` counts in `uint16_t` by 32768, so
the counter has two values only. On a disk with more than 32768 blocks the test can never fail,
and the loop ends only if a turn finds a free block. The size comes from the superblock, of which
`fs_init` checks nothing but the magic number.
-/

namespace Xv6502.Block

open Xv6502.Emulator Xv6502.Lib

/-! ## §1 The loop -/

/-- `fs_init` mounts a disk, given by the contents of its blocks; else it panics. -/
def fsInit (disk : Word → Nat → Byte) : Option SuperBlock :=
  let sb := SuperBlock.ofBytes (disk superBlockBlock)
  if sb.magic ≠ fsMagic then none else some sb

/-- How a turn of the loop ends: the function returns, or the counter goes on. -/
inductive Turn where
  | returned (found : Word)
  | next (block : Word)
  deriving DecidableEq, Repr

/-- The test and the body of the loop. The blocks of the bitmap do not change. -/
def allocTurn (sb : SuperBlock) (disk : Word → Nat → Byte) (block : Word) : Turn :=
  if block < sb.size then
    match searchBlock (disk (bitBlock sb block)) block sb.size with
    | some found => .returned found
    | none => .next (block + bitsPerBlock)
  else .returned 0

/-- At most `n` turns of the loop, from a value of the counter on; `none` if that is not enough. -/
def allocLoop (sb : SuperBlock) (disk : Word → Nat → Byte) : Nat → Word → Option Word
  | 0, _ => none
  | n + 1, block =>
    match allocTurn sb disk block with
    | .returned found => some found
    | .next block => allocLoop sb disk n block

/-- The bit of a block in the bitmap. -/
def usedBit (sb : SuperBlock) (disk : Word → Nat → Byte) (n : Nat) : Bool :=
  bit (disk (bitBlock sb (BitVec.ofNat 16 n))) (n % bitsPerBlock.toNat)

/-! ## §2 One turn -/

section Turns

variable {sb : SuperBlock} {disk : Word → Nat → Byte}

/-- A turn that starts at one of the two values of the counter finds the first free block from
    there on, below the size and in the same block of the bitmap. -/
theorem searchBlock_second (bytes : Nat → Byte) (size : Word) :
    Finds (bit bytes) bitsPerBlock.toNat size.toNat 0 bitsPerBlock.toNat
      (searchBlock bytes bitsPerBlock size) :=
  searchBytes_finds blockSize 0 (by decide)

theorem bitBlock_first {n : Nat} (h : n < bitsPerBlock.toNat) :
    bitBlock sb (BitVec.ofNat 16 n) = bitBlock sb 0 := by
  have hLimit : bitsPerBlock.toNat = 32768 := rfl
  have hDiv : BitVec.ofNat 16 n / bitsPerBlock = 0 := by
    apply BitVec.eq_of_toNat_eq
    rw [BitVec.toNat_udiv, BitVec.toNat_ofNat, Nat.mod_eq_of_lt (by omega), Nat.div_eq_of_lt h]
    rfl
  unfold bitBlock
  rw [hDiv]
  rfl

theorem bitBlock_second {n : Nat} (h : n < bitsPerBlock.toNat) :
    bitBlock sb (BitVec.ofNat 16 (bitsPerBlock.toNat + n)) = bitBlock sb bitsPerBlock := by
  have hLimit : bitsPerBlock.toNat = 32768 := rfl
  have hDiv : BitVec.ofNat 16 (bitsPerBlock.toNat + n) / bitsPerBlock =
      bitsPerBlock / bitsPerBlock := by
    apply BitVec.eq_of_toNat_eq
    rw [BitVec.toNat_udiv, BitVec.toNat_udiv, BitVec.toNat_ofNat, Nat.mod_eq_of_lt (by omega),
      Nat.add_div_left _ (by omega), Nat.div_eq_of_lt h, Nat.div_self (by omega)]
  unfold bitBlock
  rw [hDiv]

theorem usedBit_first {n : Nat} (h : n < bitsPerBlock.toNat) :
    usedBit sb disk n = bit (disk (bitBlock sb 0)) n := by
  unfold usedBit
  rw [bitBlock_first h, Nat.mod_eq_of_lt h]

theorem usedBit_second {n : Nat} (h : n < bitsPerBlock.toNat) :
    usedBit sb disk (bitsPerBlock.toNat + n) = bit (disk (bitBlock sb bitsPerBlock)) n := by
  unfold usedBit
  rw [bitBlock_second h, Nat.add_mod_left, Nat.mod_eq_of_lt h]

/-- **Turn**: at either value of the counter the loop returns a block below the size, or 0 at the
    end of the disk; it goes on only if the 32768 blocks of this turn are all used. -/
theorem allocTurn_cases {block : Word} (hBlock : block = 0 ∨ block = bitsPerBlock) :
    (∃ found, allocTurn sb disk block = .returned found ∧
        (found.toNat < sb.size.toNat ∧ usedBit sb disk found.toNat = false ∨
          found = 0 ∧ sb.size.toNat ≤ block.toNat)) ∨
      allocTurn sb disk block = .next (block + bitsPerBlock) ∧ block.toNat < sb.size.toNat ∧
        ∀ n, n < bitsPerBlock.toNat → block.toNat + n < sb.size.toNat →
          usedBit sb disk (block.toNat + n) = true := by
  -- the bits of the turn are those of one block of the bitmap
  have hBits : ∀ n, n < bitsPerBlock.toNat →
      usedBit sb disk (block.toNat + n) = bit (disk (bitBlock sb block)) n := by
    intro n hn
    rcases hBlock with rfl | rfl
    · rw [show (0 : Word).toNat = 0 from rfl, Nat.zero_add]
      exact usedBit_first hn
    · exact usedBit_second hn
  have hFinds : Finds (bit (disk (bitBlock sb block))) block.toNat sb.size.toNat 0
      bitsPerBlock.toNat (searchBlock (disk (bitBlock sb block)) block sb.size) := by
    rcases hBlock with rfl | rfl
    · exact searchBlock_finds _ _
    · exact searchBlock_second _ _
  unfold allocTurn
  split
  · next hTest =>
    have hBelow : block.toNat < sb.size.toNat := BitVec.lt_def.mp hTest
    cases hSearch : searchBlock (disk (bitBlock sb block)) block sb.size with
    | some found =>
      rw [hSearch] at hFinds
      obtain ⟨n, -, hn, hFound, hSize, hClear, -⟩ := hFinds
      refine .inl ⟨found, rfl, .inl ⟨by omega, ?_⟩⟩
      rw [hFound, hBits n hn, hClear]
    | none =>
      rw [hSearch] at hFinds
      refine .inr ⟨rfl, hBelow, fun n hn hSize => ?_⟩
      rw [hBits n hn]
      by_contra hClear
      have hEnd := hFinds n (Nat.zero_le n) hn (by simpa using hClear)
      omega
  · next hTest =>
    exact .inl ⟨0, rfl, .inr ⟨rfl, BitVec.le_def.mp (BitVec.not_lt.mp hTest)⟩⟩

/-- The counter goes round between its two values. -/
theorem counter_wraps {block : Word} (h : block = 0 ∨ block = bitsPerBlock) :
    block + bitsPerBlock = 0 ∨ block + bitsPerBlock = bitsPerBlock := by
  rcases h with rfl | rfl
  · right
    decide
  · left
    decide

/-! ## §3 Whole searches -/

/-- **A full disk with more than 32768 blocks is searched for ever.** -/
theorem allocLoop_never (hSize : bitsPerBlock.toNat < sb.size.toNat)
    (hFull : ∀ n, n < sb.size.toNat → usedBit sb disk n = true) (n : Nat) {block : Word}
    (hBlock : block = 0 ∨ block = bitsPerBlock) : allocLoop sb disk n block = none := by
  induction n generalizing block with
  | zero => rfl
  | succ n ih =>
    rcases @allocTurn_cases sb disk _ hBlock with ⟨found, hTurn, hFound⟩ |
      ⟨hTurn, -, -⟩
    · -- neither a free block nor the end of the disk can have ended the turn
      exfalso
      rcases hFound with ⟨hLt, hFree⟩ | ⟨-, hEnd⟩
      · rw [hFull _ hLt] at hFree
        cases hFree
      · have hLimit : block.toNat ≤ bitsPerBlock.toNat := by
          rcases hBlock with rfl | rfl
          · exact Nat.zero_le _
          · exact Nat.le_refl _
        omega
    · unfold allocLoop
      rw [hTurn]
      exact ih (counter_wraps hBlock)

/-- What the search has to deliver: it ends, with a block below the size or with 0. -/
def Terminates (sb : SuperBlock) (disk : Word → Nat → Byte) : Prop :=
  ∃ n found, allocLoop sb disk n 0 = some found ∧ (found.toNat < sb.size.toNat ∨ found = 0)

/-- Two turns are enough if there is something to find or the disk has few blocks. -/
theorem allocLoop_two
    (h : sb.size.toNat ≤ bitsPerBlock.toNat ∨ ∃ n, n < sb.size.toNat ∧ usedBit sb disk n = false) :
    Terminates sb disk := by
  refine ⟨2, ?_⟩
  -- the first turn looks at the bits 0 to 32767, the second at the rest
  rcases @allocTurn_cases sb disk _ (.inl rfl : (0 : Word) = 0 ∨ _) with
    ⟨found, hTurn, hFound⟩ | ⟨hTurn, -, hUsed⟩
  · refine ⟨found, ?_, hFound.imp And.left And.left⟩
    unfold allocLoop
    rw [hTurn]
  · -- nothing in the first half: the second turn decides
    have hNext : allocLoop sb disk 2 0 = allocLoop sb disk 1 bitsPerBlock := by
      conv_lhs => unfold allocLoop
      rw [hTurn]
      rfl
    rw [hNext]
    rcases @allocTurn_cases sb disk _ (.inr rfl : bitsPerBlock = 0 ∨ _) with
      ⟨found, hSecond, hFound⟩ | ⟨-, hBelow, hUsed'⟩
    · refine ⟨found, ?_, hFound.imp And.left And.left⟩
      unfold allocLoop
      rw [hSecond]
    · exfalso
      rcases h with hSmall | ⟨n, hn, hFree⟩
      · omega
      · rcases Nat.lt_or_ge n bitsPerBlock.toNat with hFirst | hSecond
        · have hBit := hUsed n hFirst (by simpa using hn)
          rw [show (0 : Word).toNat = 0 from rfl, Nat.zero_add, hFree] at hBit
          cases hBit
        · obtain ⟨m, rfl⟩ := Nat.exists_eq_add_of_le hSecond
          have hWord := sb.size.isLt
          have hLimit : bitsPerBlock.toNat = 32768 := rfl
          rw [hUsed' m (by omega) hn] at hFree
          cases hFree

end Turns

/-- **`block_alloc` ends its search, whatever disk has been mounted, exactly if the disk has at
    most 32768 blocks or one of its blocks is free.** The block number takes two values only, 0
    and 32768, since twice 32768 is 0 in 16 bits. -/
theorem blockAlloc_terminates_iff (disk : Word → Nat → Byte) (sb : SuperBlock) :
    Terminates sb disk ↔ sb.size.toNat ≤ bitsPerBlock.toNat ∨
      ∃ n, n < sb.size.toNat ∧ usedBit sb disk n = false := by
  constructor
  · rintro ⟨n, found, hLoop, -⟩
    by_contra hNot
    push Not at hNot
    rw [allocLoop_never hNot.1 (by simpa using hNot.2) n (.inl rfl)] at hLoop
    cases hLoop
  · exact allocLoop_two

/-- A superblock that names more blocks than one block of the bitmap has bits. -/
def largeSuperBlock : SuperBlock :=
  { mkfsSuperBlock with size := 40000 }

/-- A full disk with this superblock. -/
def fullDisk (block : Word) (i : Nat) : Byte :=
  if block = superBlockBlock then largeSuperBlock.toBytes.getD i 0 else 0xFF

/-- `fs_init` mounts this disk, and its first call of `block_alloc` never returns. -/
theorem full_disk_never_ends :
    fsInit fullDisk = some largeSuperBlock ∧ ¬ Terminates largeSuperBlock fullDisk := by
  refine ⟨by decide, ?_⟩
  rintro ⟨n, found, hLoop, -⟩
  rw [allocLoop_never (by decide) ?_ n (.inl rfl)] at hLoop
  · cases hLoop
  · intro n hn
    have hBit : ∀ block, block ≠ superBlockBlock → ∀ m, bit (fullDisk block) m = true := by
      intro block hBlock m
      have hOnes : ∀ j, j < 8 → (0xFF : Byte).getLsbD j = true := by decide
      unfold bit fullDisk
      rw [if_neg hBlock]
      exact hOnes _ (Nat.mod_lt _ (by decide))
    rcases Nat.lt_or_ge n bitsPerBlock.toNat with hFirst | hSecond
    · rw [usedBit_first hFirst]
      exact hBit _ (by decide) _
    · obtain ⟨m, rfl⟩ := Nat.exists_eq_add_of_le hSecond
      have hSize : largeSuperBlock.size.toNat = 40000 := rfl
      have hLimit : bitsPerBlock.toNat = 32768 := rfl
      rw [usedBit_second (by omega)]
      exact hBit _ (by decide) _

end Xv6502.Block
