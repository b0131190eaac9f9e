import Xv6502.Lib.Bitmap
import Xv6502.Block.Transfer

/-!
# The Free Map of the Disk

The superblock and the bitmap of used blocks that `mkfs/mkfs.c` writes, and the search of
`block_alloc` in a block of the bitmap. `mkfs` is a host program: its `int` has 32 bits, and both
machines are little-endian.
-/

namespace Xv6502.Block

open Xv6502.Emulator Xv6502.Lib

/-! ## §1 The superblock -/

/-- `Super_Block`. -/
structure SuperBlock where
  magic : BitVec 32
  size : Word
  blockCount : Word
  inodeCount : Word
  inodeStart : Word
  bitmapStart : Word
  deriving DecidableEq, Repr

/-- `SUPER_BLOCK_BLOCK`. -/
def superBlockBlock : Word := 16

/-- `FS_MAGIC`. -/
def fsMagic : BitVec 32 := 0x32303536

/-- `BITS_PER_BLOCK`. -/
def bitsPerBlock : Word := 32768

/-- `BIT_B_BLOCK`. -/
def bitBlock (sb : SuperBlock) (block : Word) : Word := block / bitsPerBlock + sb.bitmapStart

/-- The bytes of a 16-bit field. -/
def wordBytes (w : Word) : List Byte := [w.extractLsb' 0 8, w.extractLsb' 8 8]

/-- The bytes of the structure, in the order of its fields. -/
def SuperBlock.toBytes (sb : SuperBlock) : List Byte :=
  [sb.magic.extractLsb' 0 8, sb.magic.extractLsb' 8 8, sb.magic.extractLsb' 16 8,
    sb.magic.extractLsb' 24 8] ++
  wordBytes sb.size ++ wordBytes sb.blockCount ++ wordBytes sb.inodeCount ++
  wordBytes sb.inodeStart ++ wordBytes sb.bitmapStart

/-- A 16-bit field at an offset. -/
def wordAt (bytes : Nat → Byte) (offset : Nat) : Word := bytes (offset + 1) ++ bytes offset

/-- `memcpy(&sb, WINDOW2, sizeof(sb))` of `fs_init`. -/
def SuperBlock.ofBytes (bytes : Nat → Byte) : SuperBlock where
  magic := bytes 3 ++ bytes 2 ++ bytes 1 ++ bytes 0
  size := wordAt bytes 4
  blockCount := wordAt bytes 6
  inodeCount := wordAt bytes 8
  inodeStart := wordAt bytes 10
  bitmapStart := wordAt bytes 12

/-! ## §2 `mkfs` -/

/-- `fseek` and `fwrite` of `n` bytes. -/
def fwrite (image : Nat → Byte) (offset n : Nat) (bytes : Nat → Byte) : Nat → Byte :=
  fun i => if offset ≤ i ∧ i < offset + n then bytes (i - offset) else image i

/-- `DISK_SIZE_IN_BYTES / BLOCK_SIZE`. -/
def totalBlocks : Word := BitVec.ofNat 16 (32 * 1024 * 1024 / blockSize)

/-- `MAX_INODE_IN_DISK / (BLOCK_SIZE / sizeof(Dinode))`. -/
def inodeBlocks : Word := BitVec.ofNat 16 (1024 / (blockSize / 64))

/-- The number of blocks of the bitmap. -/
def bitmapBlocks : Word :=
  BitVec.ofNat 16 ((totalBlocks.toNat + blockSize * 8 - 1) / (blockSize * 8))

/-- The superblock that `main` writes. -/
def mkfsSuperBlock : SuperBlock where
  magic := fsMagic
  size := totalBlocks
  inodeCount := 1024
  inodeStart := superBlockBlock + 1
  bitmapStart := superBlockBlock + 1 + inodeBlocks
  blockCount := totalBlocks - (superBlockBlock + 1 + inodeBlocks + bitmapBlocks)

/-- `root_data_block`, the first block behind the bitmap. -/
def rootDataBlock : Word := mkfsSuperBlock.bitmapStart + bitmapBlocks

/-- The bitmap of `write_bitmap`: the blocks up to the root directory and those behind the end of
    the disk are marked as used. -/
def mkfsBitmap (sb : SuperBlock) (rootDataBlock bitmapBlocks : Word) : Nat → Byte :=
  let used := setBits (fun _ => 0) 0 (rootDataBlock.toNat + 1)
  setBits used sb.size.toNat (bitmapBlocks.toNat * blockSize * 8 - sb.size.toNat)

/-- The files that `main` copies to the disk, and the records of the root directory. -/
structure MkfsInput where
  boot : Nat → Byte
  kernel : Nat → Byte
  rootInode : Nat → Byte
  rootEntries : Nat → Byte

/-- The disk image that `main` writes. -/
def mkfs (input : MkfsInput) : Nat → Byte :=
  let sb := mkfsSuperBlock
  let image : Nat → Byte := fun _ => 0
  let image := fwrite image 0 0x200 input.boot
  let image := fwrite image 0x3000 (0xFC00 - 0x3000) input.kernel
  let image := fwrite image (superBlockBlock.toNat * blockSize) 16 fun i => sb.toBytes.getD i 0
  let image := fwrite image (sb.inodeStart.toNat * blockSize + 1 * 64) 64 input.rootInode
  let image := fwrite image (rootDataBlock.toNat * blockSize) 64 input.rootEntries
  fwrite image (sb.bitmapStart.toNat * blockSize) (bitmapBlocks.toNat * blockSize)
    (mkfsBitmap sb rootDataBlock bitmapBlocks)

/-- The blocks that `block_alloc` may hand out. -/
def isDataBlock (n : Nat) : Prop := rootDataBlock.toNat < n ∧ n < mkfsSuperBlock.size.toNat

theorem fwrite_of_mem {image bytes : Nat → Byte} {offset n j : Nat} (hj : j < n) :
    fwrite image offset n bytes (offset + j) = bytes j := by
  unfold fwrite
  rw [if_pos (by omega), Nat.add_sub_cancel_left]

theorem fwrite_of_not_mem {image bytes : Nat → Byte} {offset n i : Nat}
    (hi : i < offset ∨ offset + n ≤ i) : fwrite image offset n bytes i = image i := by
  unfold fwrite
  rw [if_neg (by omega)]

/-- **Layout**: what the kernel reads in block 16 is the superblock of `mkfs`. -/
theorem mkfs_superBlock (input : MkfsInput) :
    SuperBlock.ofBytes (blockOf (mkfs input) superBlockBlock) = mkfsSuperBlock := by
  have hByte : ∀ i, i < 16 →
      blockOf (mkfs input) superBlockBlock i = mkfsSuperBlock.toBytes.getD i 0 := by
    intro i hi
    -- the records that are written later lie behind the superblock
    unfold blockOf mkfs
    rw [fwrite_of_not_mem, fwrite_of_not_mem, fwrite_of_not_mem, fwrite_of_mem hi]
    · left
      exact lt_of_lt_of_le (Nat.add_lt_add_left hi _) (by decide)
    · left
      exact lt_of_lt_of_le (Nat.add_lt_add_left hi _) (by decide)
    · left
      exact lt_of_lt_of_le (Nat.add_lt_add_left hi _) (by decide)
  unfold SuperBlock.ofBytes wordAt
  simp only [hByte _ (by decide : (0 : Nat) < 16), hByte, Nat.reduceLT, Nat.reduceAdd]
  decide

/-- **Layout**: the block that the kernel takes for the bitmap is the bitmap of `mkfs`. -/
theorem mkfs_bitmap (input : MkfsInput) {i : Nat} (hi : i < blockSize) :
    blockOf (mkfs input) (bitBlock mkfsSuperBlock 0) i =
      mkfsBitmap mkfsSuperBlock rootDataBlock bitmapBlocks i := by
  unfold blockOf mkfs
  rw [show bitBlock mkfsSuperBlock 0 = mkfsSuperBlock.bitmapStart from by decide]
  exact fwrite_of_mem (lt_of_lt_of_le hi (by decide))

/-! ## §3 The search of `block_alloc` -/

/-- The loop over the bits of a byte, with `k` bits to go: the first clear bit decides. -/
def searchByte (v : Byte) (first size : Word) : Nat → Nat → Option Word
  | 0, _ => none
  | k + 1, i =>
    if v.getLsbD i then searchByte v first size k (i + 1)
    else
      let found := first + BitVec.ofNat 16 i
      if size ≤ found then none else some found

/-- The loop over the bytes of a block of the bitmap, with `k` bytes to go. -/
def searchBytes (bytes : Nat → Byte) (block size : Word) : Nat → Nat → Option Word
  | 0, _ => none
  | k + 1, i =>
    if bytes i = 0xFF then searchBytes bytes block size k (i + 1)
    else
      match searchByte (bytes i) (block + BitVec.ofNat 16 (i * 8)) size 8 0 with
      | some found => some found
      | none => searchBytes bytes block size k (i + 1)

/-- The block that is found in a block of the bitmap, whose first bit is that of `block`. -/
def searchBlock (bytes : Nat → Byte) (block size : Word) : Option Word :=
  searchBytes bytes block size blockSize 0

/-- What a search for the bits from `i` on finds, in a sequence of bits `b` that starts at
    `first`. -/
def Finds (b : Nat → Bool) (first size i limit : Nat) : Option Word → Prop
  | some found => ∃ n, i ≤ n ∧ n < limit ∧ found.toNat = first + n ∧ first + n < size ∧
      b n = false ∧ ∀ m, i ≤ m → m < n → b m = true
  | none => ∀ n, i ≤ n → n < limit → b n = false → size ≤ first + n

theorem toNat_add_ofNat {w : Word} {i : Nat} (h : w.toNat + i < 65536) :
    (w + BitVec.ofNat 16 i).toNat = w.toNat + i := by
  rw [BitVec.toNat_add, BitVec.toNat_ofNat]
  simp only [Nat.reducePow]
  omega

theorem searchByte_finds {v : Byte} {first size : Word} (hFirst : first.toNat + 8 ≤ 65536)
    (k i : Nat) (hk : i + k = 8) :
    Finds v.getLsbD first.toNat size.toNat i 8 (searchByte v first size k i) := by
  induction k generalizing i with
  | zero =>
    intro n hn hLimit
    omega
  | succ k ih =>
    unfold searchByte
    split
    · next hSet =>
      -- a set bit is passed over
      have hRest := ih (i + 1) (by omega)
      cases hResult : searchByte v first size k (i + 1) with
      | some found =>
        rw [hResult] at hRest
        obtain ⟨n, hn, hLimit, hFound, hSize, hClear, hBefore⟩ := hRest
        refine ⟨n, by omega, hLimit, hFound, hSize, hClear, fun m hm hmn => ?_⟩
        rcases Nat.eq_or_lt_of_le hm with rfl | hLater
        · exact hSet
        · exact hBefore m hLater hmn
      | none =>
        rw [hResult] at hRest
        intro n hn hLimit hClear
        rcases Nat.eq_or_lt_of_le hn with rfl | hLater
        · rw [hSet] at hClear
          cases hClear
        · exact hRest n hLater hLimit hClear
    · next hClear =>
      have hFound := toNat_add_ofNat (w := first) (i := i) (by omega)
      dsimp only
      split
      · next hEnd =>
        intro n hn _ _
        have hEnd' := BitVec.le_def.mp hEnd
        omega
      · next hEnd =>
        have hEnd' := BitVec.lt_def.mp (BitVec.not_le.mp hEnd)
        refine ⟨i, le_refl i, by omega, hFound, by omega, by simpa using hClear, ?_⟩
        intro m hm hmi
        omega

theorem searchBytes_finds {bytes : Nat → Byte} {block size : Word} (k i : Nat)
    (hBlock : block.toNat + (i + k) * 8 ≤ 65536) :
    Finds (bit bytes) block.toNat size.toNat (i * 8) ((i + k) * 8)
      (searchBytes bytes block size k i) := by
  induction k generalizing i with
  | zero =>
    intro n hn hLimit
    omega
  | succ k ih =>
    have hRest := ih (i + 1) (by omega)
    have hEnd : i + 1 + k = i + (k + 1) := by omega
    rw [hEnd] at hRest
    -- the rest of the bytes decides if this one has no clear bit below the end of the disk
    have hPass : (∀ j, j < 8 → (bytes i).getLsbD j = false → size.toNat ≤ block.toNat + (i * 8 + j)) →
        Finds (bit bytes) block.toNat size.toNat (i * 8) ((i + (k + 1)) * 8)
          (searchBytes bytes block size k (i + 1)) := by
      intro hByte
      have hOver : ∀ n, i * 8 ≤ n → n < (i + 1) * 8 → bit bytes n = false →
          size.toNat ≤ block.toNat + n := by
        intro n hn hLimit hClear
        obtain ⟨j, rfl⟩ := Nat.exists_eq_add_of_le hn
        rw [bit_byte i (by omega)] at hClear
        exact hByte j (by omega) hClear
      cases hResult : searchBytes bytes block size k (i + 1) with
      | some found =>
        rw [hResult] at hRest
        obtain ⟨n, hn, hLimit, hFound, hSize, hClear, hBefore⟩ := hRest
        refine ⟨n, by omega, hLimit, hFound, hSize, hClear, fun m hm hmn => ?_⟩
        by_contra hNot
        have hm' : m < (i + 1) * 8 := by
          by_contra hLater
          exact hNot (hBefore m (by omega) hmn)
        have := hOver m hm hm' (by simpa using hNot)
        omega
      | none =>
        rw [hResult] at hRest
        intro n hn hLimit hClear
        rcases Nat.lt_or_ge n ((i + 1) * 8) with hHere | hLater
        · exact hOver n hn hHere hClear
        · exact hRest n hLater hLimit hClear
    unfold searchBytes
    split
    · next hFull =>
      have hAll : ∀ j, j < 8 → (0xFF : Byte).getLsbD j = true := by decide
      refine hPass fun j hj hClear => ?_
      rw [hFull, hAll j hj] at hClear
      cases hClear
    · have hFirst := toNat_add_ofNat (w := block) (i := i * 8) (by omega)
      have hByte : Finds (bytes i).getLsbD (block.toNat + i * 8) size.toNat 0 8
          (searchByte (bytes i) (block + BitVec.ofNat 16 (i * 8)) size 8 0) := by
        rw [← hFirst]
        exact searchByte_finds (by omega) 8 0 rfl
      split
      · next found hResult =>
        rw [hResult] at hByte
        obtain ⟨j, -, hj, hFound, hSize, hClear, hBefore⟩ := hByte
        refine ⟨i * 8 + j, by omega, by omega, by omega, by omega, ?_, ?_⟩
        · rw [bit_byte i hj]
          exact hClear
        · intro m hm hmj
          obtain ⟨l, rfl⟩ := Nat.exists_eq_add_of_le hm
          rw [bit_byte i (by omega)]
          exact hBefore l (by omega) (by omega)
      · next hResult =>
        rw [hResult] at hByte
        refine hPass fun j hj hClear => ?_
        have := hByte j (by omega) hj hClear
        omega

/-- **Search**: in the first block of the bitmap the lowest clear bit below the size of the disk
    is found. -/
theorem searchBlock_finds (bytes : Nat → Byte) (size : Word) :
    Finds (bit bytes) 0 size.toNat 0 bitsPerBlock.toNat (searchBlock bytes 0 size) :=
  searchBytes_finds blockSize 0 (by decide)

/-- The bits of the new bitmap. -/
theorem bit_mkfsBitmap {n : Nat} (hn : n < bitsPerBlock.toNat) :
    bit (mkfsBitmap mkfsSuperBlock rootDataBlock bitmapBlocks) n = true ↔ ¬ isDataBlock n := by
  have hZero : bit (fun _ => 0) n = false := by simp [bit]
  unfold mkfsBitmap
  rw [bit_setBits, bit_setBits, hZero]
  have hEnd : mkfsSuperBlock.size.toNat +
      (bitmapBlocks.toNat * blockSize * 8 - mkfsSuperBlock.size.toNat) = bitsPerBlock.toNat := by
    decide
  rw [hEnd]
  simp only [Bool.false_or, Bool.or_eq_true, decide_eq_true_eq, isDataBlock]
  omega

end Xv6502.Block
