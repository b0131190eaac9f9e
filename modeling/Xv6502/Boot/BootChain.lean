import Xv6502.Boot.Printing
import Xv6502.Block.FreeMap
import Mathlib.Data.List.GetD

/-!
# From the Kernel Image to the Kernel in Memory

`mkfs` puts the linked kernel on the disk, the ROM loads the boot sector and the boot loader loads
the kernel, each with its own idea of where things are. `boot_loads_kernel` says that they agree:
when the loader jumps to the kernel, the memory holds what the linker has placed there, and nothing
that `mkfs` writes after the kernel reaches its sectors.
-/

namespace Xv6502.Boot

open Xv6502.Emulator Xv6502.Block

/-! ## §1 The image and the disk -/

/-- `__KERNEL_START__`. -/
def kernelStart : Word := 0x3000
/-- `__KERNEL_LBA__`. -/
def kernelLba : Word := 24
/-- `__KERNEL_START__ + __KERNEL_SIZE__`. -/
def kernelEnd : Word := 0xfc00
/-- `BOOT`. -/
def bootStart : Word := 0x0200

/-- The file that the linker writes: byte `a` of the file is for address `a`. It holds the boot
    loader, with its messages and the request block `scb` as `boot.s` lays them out. -/
structure KernelImage where
  file : List Byte
  size : 0xfc00 ≤ file.length
  msgBanner : Word
  msgLoadProgress : Word
  msgToKernel : Word
  scb : Word
  scb_start : 0x200 ≤ scb.toNat
  scb_end : scb.toNat + 4 ≤ 0x400
  scb_request :
    file.getD scb.toNat 0 = lowByte kernelStart ∧
    file.getD (scb.toNat + 1) 0 = highByte kernelStart ∧
    file.getD (scb.toNat + 2) 0 = lowByte kernelLba ∧
    file.getD (scb.toNat + 3) 0 = highByte kernelLba

/-- `fseek` and `fread` of `n` bytes into a buffer: a short file leaves the rest of it. -/
def fread (file : List Byte) (offset n : Nat) (buffer : Nat → Byte) : Nat → Byte :=
  fun i => if i < n ∧ offset + i < file.length then file.getD (offset + i) 0 else buffer i

/-- What `main` of `mkfs` has read from the image, into buffers of any contents, with any records of
    the root directory. -/
def mkfsInput (file : List Byte) (boot kernel rootInode rootEntries : Nat → Byte) : MkfsInput where
  boot := fread file 0x200 0x200 boot
  kernel := fread file 0x3000 (0xfc00 - 0x3000) kernel
  rootInode := rootInode
  rootEntries := rootEntries

/-- A `fseek` with a `fwrite`. -/
structure DiskWrite where
  offset : Nat
  size : Nat
  bytes : Nat → Byte

/-- What `main` writes behind the boot sector and the kernel: the superblock, the inode of the root
    directory, its entries and the bitmap. -/
def laterWrites (input : MkfsInput) : List DiskWrite :=
  let sb := mkfsSuperBlock
  [⟨superBlockBlock.toNat * blockSize, 16, fun i => sb.toBytes.getD i 0⟩,
    ⟨sb.inodeStart.toNat * blockSize + 1 * 64, 64, input.rootInode⟩,
    ⟨rootDataBlock.toNat * blockSize, 64, input.rootEntries⟩,
    ⟨sb.bitmapStart.toNat * blockSize, bitmapBlocks.toNat * blockSize,
      mkfsBitmap sb rootDataBlock bitmapBlocks⟩]

/-- The image with the boot sector and the kernel. -/
def bootImage (input : MkfsInput) : Nat → Byte :=
  fwrite (fwrite (fun _ => 0) 0 0x200 input.boot) 0x3000 (0xfc00 - 0x3000) input.kernel

theorem mkfs_eq_later (input : MkfsInput) :
    mkfs input =
      (laterWrites input).foldl (fun image w => fwrite image w.offset w.size w.bytes)
        (bootImage input) := by
  unfold mkfs laterWrites bootImage
  simp only [List.foldl_cons, List.foldl_nil]

/-- The byte lies in the boot sector or in a sector of the kernel. -/
def InBootSectors (i : Nat) : Prop :=
  i / diskSectorSize = 0 ∨ 24 ≤ i / diskSectorSize ∧ i / diskSectorSize < 126

theorem inBootSectors_lt {i : Nat} (h : InBootSectors i) : i < 0xfc00 := by
  unfold InBootSectors diskSectorSize at h
  omega

/-- The later writes begin behind the kernel. -/
theorem laterWrites_offset {input : MkfsInput} {w : DiskWrite} (h : w ∈ laterWrites input) :
    0xfc00 ≤ w.offset := by
  simp only [laterWrites, List.mem_cons, List.not_mem_nil, or_false] at h
  rcases h with rfl | rfl | rfl | rfl
  · exact (by decide : 0xfc00 ≤ superBlockBlock.toNat * blockSize)
  · exact (by decide : 0xfc00 ≤ mkfsSuperBlock.inodeStart.toNat * blockSize + 1 * 64)
  · exact (by decide : 0xfc00 ≤ rootDataBlock.toNat * blockSize)
  · exact (by decide : 0xfc00 ≤ mkfsSuperBlock.bitmapStart.toNat * blockSize)

theorem foldl_fwrite_below {writes : List DiskWrite} {image : Nat → Byte} {i : Nat}
    (h : ∀ w ∈ writes, i < w.offset) :
    writes.foldl (fun image w => fwrite image w.offset w.size w.bytes) image i = image i := by
  induction writes generalizing image with
  | nil => rfl
  | cons w writes ih =>
    rw [List.foldl_cons, ih fun v hv => h v (List.mem_cons_of_mem _ hv)]
    exact fwrite_of_not_mem (.inl (h w List.mem_cons_self))

/-- **The disk holds the boot sector and the kernel**, at the places that the image gives them. -/
theorem mkfs_holds (image : KernelImage) (boot kernel rootInode rootEntries : Nat → Byte) :
    (∀ i < 0x200, mkfs (mkfsInput image.file boot kernel rootInode rootEntries) i =
      image.file.getD (0x200 + i) 0) ∧
    ∀ i, 0x3000 ≤ i → i < 0xfc00 →
      mkfs (mkfsInput image.file boot kernel rootInode rootEntries) i = image.file.getD i 0 := by
  have hSize := image.size
  -- nothing is written below `0xfc00` any more behind the two images
  have hLater : ∀ i < 0xfc00, ∀ w ∈ laterWrites
      (mkfsInput image.file boot kernel rootInode rootEntries), i < w.offset :=
    fun i hi w hw => lt_of_lt_of_le hi (laterWrites_offset hw)
  constructor
  · intro i hi
    rw [mkfs_eq_later, foldl_fwrite_below (hLater i (by omega)), bootImage,
      fwrite_of_not_mem (.inl (by omega))]
    have hBoot := @fwrite_of_mem (fun _ => 0) (mkfsInput image.file boot kernel rootInode
      rootEntries).boot 0 0x200 i hi
    rw [Nat.zero_add] at hBoot
    rw [hBoot]
    exact if_pos ⟨hi, by omega⟩
  · intro i hStart hEnd
    rw [mkfs_eq_later, foldl_fwrite_below (hLater i hEnd), bootImage]
    obtain ⟨j, rfl⟩ := Nat.exists_eq_add_of_le hStart
    rw [fwrite_of_mem (by omega)]
    exact if_pos ⟨by omega, by omega⟩

/-! ## §2 The code -/

/-- `ROM_ENABLE_TRUE`. -/
def romEnableTrue : Byte := 1
/-- `DISK_STATUS_NONE`. -/
def diskStatusNone : Byte := 0

/-- The ROM that `rom.s` is assembled to, with its messages and the request block `boot_scb`. -/
structure RomImage where
  data : Nat → Byte
  msgBanner : Word
  msgBoot : Word
  bootScb : Word
  bootScb_start : romBase ≤ bootScb.toNat
  bootScb_end : bootScb.toNat + 4 ≤ 0xfffa
  bootScb_request :
    data (bootScb.toNat - romBase) = lowByte bootStart ∧
    data (bootScb.toNat + 1 - romBase) = highByte bootStart ∧
    data (bootScb.toNat + 2 - romBase) = 0 ∧
    data (bootScb.toNat + 3 - romBase) = 0

/-- `Machine_create` behind the files that it opens. -/
def machineCreate (rom : RomImage) (disk : Nat → Byte) : Board where
  ram := fun _ => 0
  rom := { romEnable := romEnableTrue, data := rom.data }
  uart := { tx := 0, rx := 0, status := 0 }
  disk :=
    { file := disk, buffer := fun _ => 0, cmd := 0, status := ~~~diskStatusNone
      lbaLow := 0, lbaHigh := 0, delay := 0 }
  -- every segment is mapped to the frame of its own number
  mmu :=
    { pageTable := fun i => BitVec.ofNat 8 i, prev := 0, watchdog := 0, cause := 0
      va := 0, opcode := 0, inUser := false, pendingNmi := false }
  timer :=
    { ctrl := timerEnableFalse, latchLow := 0, latchHigh := 0, counterLow := 0, counterHigh := 0 }
  plic := { interruptsLines := 0, pendingIrq := false }

/-- The loops that wait for a device: for each character of a message, and for each sector. -/
inductive WaitingLoop where
  | romMessage (message : Word) (y : Byte)
  | bootSector
  | bootMessage (message : Word) (y : Byte)
  | kernelSector (turn : Nat)

/-- `PTR`, `BUF` and `SRC`. -/
def romPointers : SectorPointers where
  ptr := 0x06
  buf := 0x08
  src := 0x00
  ptr_lt := by decide
  buf_lt := by decide
  src_lt := by decide
  ptr_buf := by decide
  ptr_src := by decide
  buf_src := by decide

/-- `STR`. -/
def romStr : Word := 0x04

/-- `reset` up to `jmp BOOT`; `none` where `error` halts. -/
def reset (rom : RomImage) (pace : WaitingLoop → Pace) (b : Board) : Option Board :=
  (prints romStr (fun y => pace (.romMessage rom.msgBanner y)) rom.msgBanner b).bind fun b =>
    let (status, b) := machineRead (register diskStat) b
    if status = diskStatusNone then none
    else
      (readSector romPointers (pace .bootSector) rom.bootScb b).bind fun b =>
        prints romStr (fun y => pace (.romMessage rom.msgBoot y)) rom.msgBoot b

/-- The turn of `load_kernel` behind `read_sector`, up to the comparison: the request is for the
    next sector and the next place in memory. -/
def nextRequest (scb : Word) (b : Board) : Board :=
  -- inc scb+2, and inc scb+3 where it has wrapped around
  let b := inc (scb + 2) b
  let (lba, b) := machineRead (scb + 2) b
  let b := if lba = 0 then inc (scb + 3) b else b
  inc (scb + 1) (inc (scb + 1) b)

/-- The loop `load_kernel`; `none` if it has not ended after so many turns. -/
def loadKernel (zp : SectorPointers) (pace : WaitingLoop → Pace) (scb : Word) :
    Nat → Nat → Board → Option Board
  | 0, _, _ => none
  | turns + 1, turn, b =>
    (readSector zp (pace (.kernelSector turn)) scb b).bind fun b =>
      let b := nextRequest scb b
      let (page, b) := machineRead (scb + 1) b
      if page = highByte kernelEnd then some b else loadKernel zp pace scb turns (turn + 1) b

/-- More turns than `load_kernel` takes: one for each even page. -/
def loadTurns : Nat := 128

/-- `entry` up to `jmp __KERNEL_ENTRY__`. -/
def bootLoader (zp : SectorPointers) (image : KernelImage) (pace : WaitingLoop → Pace) (b : Board) :
    Option Board :=
  let print (message : Word) := prints zp.ptr (fun y => pace (.bootMessage message y)) message
  (print image.msgBanner b).bind fun b =>
    (print image.msgLoadProgress b).bind fun b =>
      (loadKernel zp pace image.scb loadTurns 0 b).bind (print image.msgToKernel)

/-- From power-on to the first instruction of the kernel. -/
def boot (zp : SectorPointers) (rom : RomImage) (image : KernelImage) (pace : WaitingLoop → Pace)
    (disk : Nat → Byte) : Option Board :=
  (reset rom pace (machineCreate rom disk)).bind (bootLoader zp image pace)

/-! ## §3 The boot sector -/

/-- The disk has the boot sector and the kernel of an image. -/
structure Holds (image : KernelImage) (disk : Nat → Byte) : Prop where
  boot : ∀ i < 0x200, disk i = image.file.getD (0x200 + i) 0
  kernel : ∀ i, 0x3000 ≤ i → i < 0xfc00 → disk i = image.file.getD i 0

theorem quiet_machineCreate (rom : RomImage) (disk : Nat → Byte) :
    Quiet (machineCreate rom disk) where
  flat := fun _ => rfl
  timer := rfl
  idle := by
    show ~~~diskStatusNone ≠ diskStatusBusy
    decide

/-- A read of the ROM. -/
theorem Flat.read_rom {b : Board} (h : Flat b) {va : Word} (hva : romBase ≤ va.toNat)
    (hEnabled : b.rom.romEnable ≠ 0) :
    machineRead va b = (b.rom.data (va.toNat - romBase), b) := by
  have hLt := va.isLt
  have hEffect : readEffect b va.toNat = b := by
    rw [readEffect, if_neg (by unfold uartRx; unfold romBase at hva; omega)]
  have hByte : readPhysical b va.toNat = b.rom.data (va.toNat - romBase) := by
    unfold romBase at hva
    unfold readPhysical
    simp only [plicInterruptLines, timerCtrl, timerLatchHigh, timerLatchLow, timerCounterHigh,
      timerCounterLow, mmuPageTable, mmuPrevRegister, mmuWatchdogRegister, mmuCauseRegister,
      mmuVaRegisterLow, mmuVaRegisterHigh, romEnable, romBase, romSize]
    iterate 13 refine (if_neg (by omega)).trans ?_
    exact if_pos ⟨hva, by omega, hEnabled⟩
  rw [machineRead, h.physicalAddress_eq, h.translate_eq, hByte, hEffect]

/-- `boot_scb` asks for the boot sector. -/
theorem requests_boot {rom : RomImage} {b : Board} (h : Quiet b)
    (hRom : b.rom = { romEnable := romEnableTrue, data := rom.data }) :
    Requests b rom.bootScb bootStart 0 := by
  intro c hMmu hSame _
  have hFlat : Flat c := by
    rw [Flat, hMmu]
    exact h.flat
  have hStart := rom.bootScb_start
  have hEnd := rom.bootScb_end
  obtain ⟨h₀, h₁, h₂, h₃⟩ := rom.bootScb_request
  -- the four bytes lie in the ROM, which is switched on and which no device hides
  have hRead : ∀ i < 4, machineRead (rom.bootScb + BitVec.ofNat 16 i) c =
      (rom.data (rom.bootScb.toNat + i - romBase), c) := by
    intro i hi
    have hNat : (rom.bootScb + BitVec.ofNat 16 i).toNat = rom.bootScb.toNat + i := by
      rw [BitVec.toNat_add, BitVec.toNat_ofNat]
      omega
    have hEnabled : c.rom.romEnable ≠ 0 := by
      rw [hSame, hRom]
      show romEnableTrue ≠ 0
      decide
    rw [hFlat.read_rom (by omega) hEnabled, hNat, hSame, hRom]
  refine ⟨?_, ?_, ?_, ?_⟩
  · have hBuffer := hRead 0 (by omega)
    rw [BitVec.add_zero, Nat.add_zero, h₀] at hBuffer
    exact hBuffer
  · exact h₁ ▸ hRead 1 (by omega)
  · have hLba := hRead 2 (by omega)
    rw [h₂] at hLba
    exact hLba
  · have hLba := hRead 3 (by omega)
    rw [h₃] at hLba
    exact hLba

/-- **The ROM** puts the boot sector of the image at `BOOT`. -/
structure Started (image : KernelImage) (disk : Nat → Byte) (b : Board) : Prop where
  quiet : Quiet b
  file : b.disk.file = disk
  boot : ∀ a, 0x200 ≤ a → a < 0x400 → b.ram a = image.file.getD a 0

theorem reset_starts {image : KernelImage} {disk : Nat → Byte} (hDisk : Holds image disk)
    (rom : RomImage) (pace : WaitingLoop → Pace) :
    ∃ b, reset rom pace (machineCreate rom disk) = some b ∧ Started image disk b := by
  have hQuiet := quiet_machineCreate rom disk
  -- the banner is printed, one character a turn
  obtain ⟨b, hBanner, hb⟩ := prints_ends hQuiet (by decide : romStr.toNat + 1 < 0x100)
    (fun y => pace (.romMessage rom.msgBanner y)) rom.msgBanner
  have hQuiet' := hQuiet.of_printed hb
  have hStatus : b.disk.status ≠ diskStatusNone := by
    rw [hb.disk]
    show ~~~diskStatusNone ≠ diskStatusNone
    decide
  have hRequests : Requests b rom.bootScb bootStart 0 := requests_boot hQuiet' hb.rom
  have hStart : bootStart.toNat = 0x200 := rfl
  -- sector 0 is read to 0x0200
  obtain ⟨c, hRead, hc⟩ := @readSector_reads b romPointers _ _ _ hQuiet'.flat hQuiet'.timer
    (pace .bootSector) hRequests (by omega) (by omega)
  have hQuiet'' : Quiet c :=
    { flat := by
        rw [Flat, hc.mmu]
        exact hQuiet'.flat
      timer := by rw [hc.timer, hQuiet'.timer]
      idle := by
        rw [hc.ready]
        decide }
  -- the second text is printed, which changes only the UART
  obtain ⟨d, hBoot, hd⟩ := prints_ends hQuiet'' (by decide : romStr.toNat + 1 < 0x100)
    (fun y => pace (.romMessage rom.msgBoot y)) rom.msgBoot
  refine ⟨d, ?_, hQuiet''.of_printed hd, ?_, ?_⟩
  · rw [reset, hBanner, Option.bind_some, hQuiet'.flat.read_status]
    dsimp only
    rw [if_neg hStatus, hRead, Option.bind_some, hBoot]
  · rw [hd.disk, hc.file, hb.disk]
    rfl
  · intro a hLow hHigh
    obtain ⟨i, rfl⟩ := Nat.exists_eq_add_of_le hLow
    -- what the disk file holds at sector 0 is the image of the boot loader
    have hFile : b.disk.file = disk := by
      rw [hb.disk]
      rfl
    have hByte := hc.sector i (by omega)
    have hLba : (0 : Word).toNat = 0 := rfl
    rw [hStart, hFile, hLba, Nat.zero_mul, Nat.zero_add] at hByte
    rw [hd.ram _ hLow, hByte, hDisk.boot i (by omega)]

/-! ## §4 The kernel -/

section Kernel

variable {image : KernelImage} {disk : Nat → Byte} {b : Board}

/-- The sectors of the kernel. -/
def kernelSectors : Nat := 102

/-- In front of a turn of `load_kernel`: so many sectors are in memory, and the request is for the
    next one. -/
structure Loaded (image : KernelImage) (disk : Nat → Byte) (n : Nat) (b : Board) : Prop where
  quiet : Quiet b
  file : b.disk.file = disk
  boot : ∀ a, 0x200 ≤ a → a < 0x400 → a < image.scb.toNat + 1 ∨ image.scb.toNat + 4 ≤ a →
    b.ram a = image.file.getD a 0
  page : b.ram (image.scb.toNat + 1) = BitVec.ofNat 8 (0x30 + 2 * n)
  lbaLow : b.ram (image.scb.toNat + 2) = BitVec.ofNat 8 (24 + n)
  lbaHigh : b.ram (image.scb.toNat + 3) = 0
  kernel : ∀ a, 0x3000 ≤ a → a < 0x3000 + 512 * n → b.ram a = image.file.getD a 0

theorem scb_toNat (image : KernelImage) {i : Nat} (hi : i < 4) :
    (image.scb + BitVec.ofNat 16 i).toNat = image.scb.toNat + i := by
  have hEnd := image.scb_end
  rw [BitVec.toNat_add, BitVec.toNat_ofNat]
  omega

/-- Nothing is in memory yet. -/
theorem Started.loaded (h : Started image disk b) : Loaded image disk 0 b := by
  have hStart := image.scb_start
  have hEnd := image.scb_end
  obtain ⟨-, h₁, h₂, h₃⟩ := image.scb_request
  exact
    { quiet := h.quiet
      file := h.file
      boot := fun a hLow hHigh _ => h.boot a hLow hHigh
      page := by
        rw [h.boot _ (by omega) (by omega), h₁]
        decide
      lbaLow := by
        rw [h.boot _ (by omega) (by omega), h₂]
        decide
      lbaHigh := by
        rw [h.boot _ (by omega) (by omega), h₃]
        decide
      kernel := fun a hLow hHigh => by omega }

theorem Started.of_printed {c : Board} (h : Started image disk b) (hPrinted : Printed b c) :
    Started image disk c where
  quiet := h.quiet.of_printed hPrinted
  file := by rw [hPrinted.disk, h.file]
  boot := fun a hLow hHigh => by rw [hPrinted.ram a hLow, h.boot a hLow hHigh]

theorem Loaded.of_printed {c : Board} {n : Nat} (h : Loaded image disk n b)
    (hPrinted : Printed b c) : Loaded image disk n c := by
  have hStart := image.scb_start
  exact
    { quiet := h.quiet.of_printed hPrinted
      file := by rw [hPrinted.disk, h.file]
      boot := fun a hLow hHigh hOut => by rw [hPrinted.ram a hLow, h.boot a hLow hHigh hOut]
      page := by rw [hPrinted.ram _ (by omega), h.page]
      lbaLow := by rw [hPrinted.ram _ (by omega), h.lbaLow]
      lbaHigh := by rw [hPrinted.ram _ (by omega), h.lbaHigh]
      kernel := fun a hLow hHigh => by rw [hPrinted.ram a (by omega), h.kernel a hLow hHigh] }

/-- The place in memory of a sector of the kernel. -/
def sectorStart (n : Nat) : Word := BitVec.ofNat 16 (0x3000 + 512 * n)

/-- The number on the disk of a sector of the kernel. -/
def sectorLba (n : Nat) : Word := BitVec.ofNat 16 (24 + n)

theorem sectorStart_toNat {n : Nat} (hn : n < kernelSectors) :
    (sectorStart n).toNat = 0x3000 + 512 * n := by
  unfold kernelSectors at hn
  rw [sectorStart, BitVec.toNat_ofNat]
  omega

theorem sectorLba_toNat {n : Nat} (hn : n < kernelSectors) : (sectorLba n).toNat = 24 + n := by
  unfold kernelSectors at hn
  rw [sectorLba, BitVec.toNat_ofNat]
  omega

/-- The request block asks for the next sector. -/
theorem Loaded.requests {n : Nat} (h : Loaded image disk n b) (hn : n < kernelSectors) :
    Requests b image.scb (sectorStart n) (sectorLba n) := by
  have hStart := image.scb_start
  have hEnd := image.scb_end
  intro c hMmu _ hRam
  have hFlat : Flat c := by
    rw [Flat, hMmu]
    exact h.quiet.flat
  -- the request block lies in RAM, in the loaded boot loader itself
  have hRead : ∀ i < 4, machineRead (image.scb + BitVec.ofNat 16 i) c =
      (b.ram (image.scb.toNat + i), c) := by
    intro i hi
    have hNat := scb_toNat image hi
    rw [hFlat.read (by omega), hNat, hRam _ (by omega)]
  -- `load_kernel` moves buffer and sector on by adding to the block's bytes: no carry is lost on
  -- the way
  have hPlace := sectorStart_toNat hn
  have hLba := sectorLba_toNat hn
  unfold kernelSectors at hn
  refine ⟨?_, ?_, ?_, ?_⟩
  · have hByte := hRead 0 (by omega)
    have hLow : b.ram image.scb.toNat = lowByte (sectorStart n) := by
      rw [h.boot _ (by omega) (by omega) (by omega), image.scb_request.1]
      apply BitVec.eq_of_toNat_eq
      rw [toNat_lowByte, toNat_lowByte, hPlace]
      show 0x3000 % 256 = _
      omega
    rw [BitVec.add_zero, Nat.add_zero, hLow] at hByte
    exact hByte
  · refine (hRead 1 (by omega)).trans ?_
    rw [h.page, Prod.mk.injEq, and_iff_left rfl]
    apply BitVec.eq_of_toNat_eq
    rw [toNat_highByte, hPlace, BitVec.toNat_ofNat]
    omega
  · refine (hRead 2 (by omega)).trans ?_
    rw [h.lbaLow, Prod.mk.injEq, and_iff_left rfl]
    apply BitVec.eq_of_toNat_eq
    rw [toNat_lowByte, hLba, BitVec.toNat_ofNat]
  · refine (hRead 3 (by omega)).trans ?_
    rw [h.lbaHigh, Prod.mk.injEq, and_iff_left rfl]
    apply BitVec.eq_of_toNat_eq
    rw [toNat_highByte, hLba]
    show 0 = _
    omega

/-- The request behind a turn, while the low byte of the number does not wrap around. -/
theorem nextRequest_eq (hFlat : Flat b)
    (hMore : b.ram (image.scb.toNat + 2) + 1 ≠ 0) :
    nextRequest image.scb b = put b
      (Function.update
        (Function.update b.ram (image.scb.toNat + 2) (b.ram (image.scb.toNat + 2) + 1))
        (image.scb.toNat + 1) (b.ram (image.scb.toNat + 1) + 2)) b.disk := by
  have hEnd := image.scb_end
  have hOne : (image.scb + 1).toNat = image.scb.toNat + 1 := scb_toNat image (by omega : 1 < 4)
  have hTwo : (image.scb + 2).toNat = image.scb.toNat + 2 := scb_toNat image (by omega : 2 < 4)
  unfold nextRequest
  rw [inc_eq hFlat (by omega), hTwo]
  dsimp only
  rw [(hFlat.put _ _).read (by omega), hTwo]
  dsimp only
  -- both bytes are in one RAM, the second store does not reach the first
  have hByte : (put b (Function.update b.ram (image.scb.toNat + 2)
      (b.ram (image.scb.toNat + 2) + 1)) b.disk).ram (image.scb.toNat + 2) =
      b.ram (image.scb.toNat + 2) + 1 := Function.update_self _ _ _
  rw [hByte, if_neg hMore, inc_eq (hFlat.put _ _) (by omega), hOne,
    inc_eq ((hFlat.put _ _).put _ _) (by omega), hOne]
  unfold put
  dsimp only
  rw [Function.update_self, Function.update_idem, Function.update_of_ne (by omega), BitVec.add_assoc]
  rfl

/-- One turn of `load_kernel`. -/
theorem Loaded.turn {n : Nat} (h : Loaded image disk n b) (zp : SectorPointers)
    (hDisk : Holds image disk)
    (hn : n < kernelSectors) (pace : Pace) :
    ∃ c, readSector zp pace image.scb b = some c ∧
      Loaded image disk (n + 1) (nextRequest image.scb c) := by
  have hStart := image.scb_start
  have hEnd := image.scb_end
  have hPlace := sectorStart_toNat hn
  have hLba := sectorLba_toNat hn
  have hRequests := h.requests hn
  have hBound : n < 102 := hn
  have hTop : ∀ i < 512, 0x3000 + 512 * n + i < 0xfc00 := by
    intro i hi
    omega
  obtain ⟨c, hRead, hc⟩ := @readSector_reads b zp _ _ _ h.quiet.flat h.quiet.timer pace hRequests
    (by omega) (by omega)
  have hFlat : Flat c := by
    rw [Flat, hc.mmu]
    exact h.quiet.flat
  -- the boot loader lies in front of the sector
  have hRest : ∀ a, 0x200 ≤ a → a < 0x3000 + 512 * n → c.ram a = b.ram a :=
    fun a hLow hHigh => hc.rest a (by omega) (by omega)
  have hLow : c.ram (image.scb.toNat + 2) = BitVec.ofNat 8 (24 + n) := by
    rw [hRest _ (by omega) (by omega), h.lbaLow]
  have hMore : c.ram (image.scb.toNat + 2) + 1 ≠ 0 := by
    rw [hLow]
    intro hWrap
    have hNat := congrArg BitVec.toNat hWrap
    rw [BitVec.toNat_add, BitVec.toNat_ofNat] at hNat
    have hOne : (1 : Byte).toNat = 1 := rfl
    have hZero : (0 : Byte).toNat = 0 := rfl
    omega
  have hSame : ∀ a, a ≠ image.scb.toNat + 1 → a ≠ image.scb.toNat + 2 →
      (nextRequest image.scb c).ram a = c.ram a := by
    intro a hPage hNumber
    rw [nextRequest_eq hFlat hMore]
    exact (Function.update_of_ne hPage _ _).trans (Function.update_of_ne hNumber _ _)
  refine ⟨c, hRead, ⟨?_, ?_, ?_⟩, ?_, ?_, ?_, ?_, ?_, ?_⟩
  · rw [nextRequest_eq hFlat hMore]
    exact hFlat
  · rw [nextRequest_eq hFlat hMore]
    exact (congrArg Timer.ctrl hc.timer).trans h.quiet.timer
  · rw [nextRequest_eq hFlat hMore]
    show c.disk.status ≠ diskStatusBusy
    rw [hc.ready]
    decide
  · rw [nextRequest_eq hFlat hMore]
    exact hc.file.trans h.file
  · intro a hLowEnd hHighEnd hOut
    rw [hSame a (by omega) (by omega), hRest a (by omega) (by omega), h.boot a hLowEnd hHighEnd hOut]
  · rw [nextRequest_eq hFlat hMore]
    refine (Function.update_self _ _ _).trans ?_
    rw [hRest _ (by omega) (by omega), h.page]
    apply BitVec.eq_of_toNat_eq
    rw [BitVec.toNat_add, BitVec.toNat_ofNat, BitVec.toNat_ofNat]
    have hTwo : (2 : Byte).toNat = 2 := rfl
    omega
  · rw [nextRequest_eq hFlat hMore]
    refine (Function.update_of_ne (by omega) _ _).trans ((Function.update_self _ _ _).trans ?_)
    rw [hLow]
    apply BitVec.eq_of_toNat_eq
    rw [BitVec.toNat_add, BitVec.toNat_ofNat, BitVec.toNat_ofNat]
    have hOne : (1 : Byte).toNat = 1 := rfl
    omega
  · rw [hSame _ (by omega) (by omega), hRest _ (by omega) (by omega), h.lbaHigh]
  · intro a hLowEnd hHighEnd
    rw [hSame a (by omega) (by omega)]
    by_cases hOld : a < 0x3000 + 512 * n
    · rw [hRest a (by omega) hOld, h.kernel a hLowEnd hOld]
    · -- the sector that has just been read
      obtain ⟨i, rfl⟩ := Nat.exists_eq_add_of_le (Nat.le_of_not_lt hOld)
      have hi : i < 512 := by omega
      have hByte := hc.sector i hi
      have hOffset : (24 + n) * diskSectorSize + i = 0x3000 + 512 * n + i := by
        unfold diskSectorSize
        omega
      have hImage := hDisk.kernel (0x3000 + 512 * n + i) (by omega) (hTop i hi)
      rw [hPlace, hLba, h.file, hOffset, hImage] at hByte
      exact hByte

/-- **`load_kernel`**: the loop ends with the last sector in front of the devices. -/
theorem loadKernel_loads (zp : SectorPointers) (hDisk : Holds image disk)
    (pace : WaitingLoop → Pace) (left : Nat) :
    ∀ {n turns : Nat} {b : Board}, Loaded image disk n b → n + left + 1 = kernelSectors →
      left < turns → ∃ c, loadKernel zp pace image.scb turns n b = some c ∧
        Loaded image disk kernelSectors c := by
  have hEnd := image.scb_end
  have hOne : (image.scb + 1).toNat = image.scb.toNat + 1 := scb_toNat image (by omega : 1 < 4)
  have hLast : highByte kernelEnd = BitVec.ofNat 8 (0x30 + 2 * kernelSectors) := by decide
  -- on the sectors that are left; `Loaded` at `n` sectors is the invariant of the loop
  induction left with
  | zero =>
    intro n turns b h hSectors hTurns
    obtain ⟨turns, rfl⟩ : ∃ rest, turns = rest + 1 := ⟨turns - 1, by omega⟩
    obtain ⟨c, hRead, hc⟩ := h.turn zp hDisk (by omega) (pace (.kernelSector n))
    -- the high byte of the buffer has come to the end
    have hAll : n + 1 = kernelSectors := by omega
    rw [hAll] at hc
    refine ⟨nextRequest image.scb c, ?_, hc⟩
    rw [loadKernel, hRead, Option.bind_some]
    dsimp only
    rw [hc.quiet.flat.read (by omega), hOne, hc.page]
    dsimp only
    rw [if_pos hLast.symm]
  | succ left ih =>
    intro n turns b h hSectors hTurns
    obtain ⟨turns, rfl⟩ : ∃ rest, turns = rest + 1 := ⟨turns - 1, by omega⟩
    obtain ⟨c, hRead, hc⟩ := h.turn zp hDisk (by omega) (pace (.kernelSector n))
    -- the high byte differs from the end's before the last sector, so the loop goes on
    have hMore : BitVec.ofNat 8 (0x30 + 2 * (n + 1)) ≠ highByte kernelEnd := by
      rw [hLast]
      intro hEqual
      have hNat := congrArg BitVec.toNat hEqual
      unfold kernelSectors at hNat hSectors
      rw [BitVec.toNat_ofNat, BitVec.toNat_ofNat] at hNat
      omega
    obtain ⟨d, hLoop, hd⟩ := ih hc (by omega) (by omega : left < turns)
    refine ⟨d, ?_, hd⟩
    rw [loadKernel, hRead, Option.bind_some]
    dsimp only
    rw [hc.quiet.flat.read (by omega), hOne, hc.page]
    dsimp only
    rw [if_neg hMore, hLoop]

theorem bootLoader_loads (h : Started image disk b) (zp : SectorPointers)
    (hDisk : Holds image disk) (pace : WaitingLoop → Pace) :
    ∃ c, bootLoader zp image pace b = some c ∧ Loaded image disk kernelSectors c := by
  have hPrint : ∀ (message : Word) {b : Board}, Quiet b → ∃ c,
      prints zp.ptr (fun y => pace (.bootMessage message y)) message b = some c ∧ Printed b c :=
    fun message _ hQuiet => prints_ends hQuiet zp.ptr_lt _ message
  -- two texts, the loop, and the last text in front of the jump
  obtain ⟨c, hBanner, hc⟩ := hPrint image.msgBanner h.quiet
  obtain ⟨d, hProgress, hd⟩ := hPrint image.msgLoadProgress (h.quiet.of_printed hc)
  have hLoaded := ((h.of_printed hc).of_printed hd).loaded
  obtain ⟨e, hLoad, he⟩ := loadKernel_loads zp hDisk pace 101 hLoaded rfl
    (by decide : 101 < loadTurns)
  obtain ⟨f, hKernel, hf⟩ := hPrint image.msgToKernel he.quiet
  refine ⟨f, ?_, he.of_printed hf⟩
  unfold bootLoader
  dsimp only
  rw [hBanner, Option.bind_some, hProgress, Option.bind_some, hLoad, Option.bind_some, hKernel]

end Kernel

/-! ## §5 The chain -/

/-- **The boot chain loads the kernel that has been linked.** At the jump to the kernel the CPU
    finds every byte of the image from `__KERNEL_START__` on at its address, and every byte of the
    boot loader but those of the request that it has counted up; and nothing that `mkfs` writes
    behind the kernel lies in a sector that has been read. -/
theorem boot_loads_kernel (zp : SectorPointers) (rom : RomImage) (image : KernelImage)
    (pace : WaitingLoop → Pace) (bootBuffer kernelBuffer rootInode rootEntries : Nat → Byte) :
    let input := mkfsInput image.file bootBuffer kernelBuffer rootInode rootEntries
    (∃ b, boot zp rom image pace (mkfs input) = some b ∧
      (∀ a : Word, 0x200 ≤ a.toNat → a.toNat < 0x400 →
        a.toNat < image.scb.toNat + 1 ∨ image.scb.toNat + 4 ≤ a.toNat →
        (machineRead a b).1 = image.file.getD a.toNat 0) ∧
      ∀ a : Word, 0x3000 ≤ a.toNat → a.toNat ≤ 0xfbff →
        (machineRead a b).1 = image.file.getD a.toNat 0) ∧
    mkfs input = (laterWrites input).foldl
      (fun disk w => fwrite disk w.offset w.size w.bytes) (bootImage input) ∧
    ∀ w ∈ laterWrites input, ∀ i < w.size, ¬ InBootSectors (w.offset + i) := by
  intro input
  -- `mkfs` puts both images where the ROM and the loader look for them
  obtain ⟨hBoot, hKernel⟩ := mkfs_holds image bootBuffer kernelBuffer rootInode rootEntries
  have hDisk : Holds image (mkfs input) := ⟨hBoot, hKernel⟩
  refine ⟨?_, mkfs_eq_later input, ?_⟩
  -- the ROM, and then the loader it has read
  · obtain ⟨b, hReset, hb⟩ := reset_starts hDisk rom pace
    obtain ⟨c, hLoader, hc⟩ := bootLoader_loads hb zp hDisk pace
    refine ⟨c, by rw [boot, hReset, Option.bind_some, hLoader], ?_, ?_⟩
    · intro a hLow hHigh hOut
      rw [hc.quiet.flat.read (by omega), hc.boot _ hLow hHigh hOut]
    · intro a hLow hHigh
      rw [hc.quiet.flat.read (by omega)]
      exact hc.kernel _ hLow (by unfold kernelSectors; omega)
  -- all later writes of `mkfs` are for blocks behind the kernel
  · intro w hw i _ hIn
    have hBehind := laterWrites_offset hw
    have hBelow := inBootSectors_lt hIn
    omega

/-- Devices that move before each turn of a waiting loop, with no key pressed. -/
def everyTurn : Pace where
  steps := fun _ => [none]
  often := fun _ => ⟨0, by decide, List.cons_ne_nil _ _⟩

/-- An image with the request block at the beginning of the boot loader and nothing else. -/
def emptyImage : KernelImage where
  file := List.replicate 0x200 0 ++ ([0x00, 0x30, 24, 0] ++ List.replicate 0xfa00 0)
  size := by
    rw [List.length_append, List.length_append, List.length_replicate, List.length_replicate]
    decide
  msgBanner := 0x0300
  msgLoadProgress := 0x0300
  msgToKernel := 0x0300
  scb := 0x0200
  scb_start := by decide
  scb_end := by decide
  scb_request := by
    have hByte : ∀ i < 4, (List.replicate 0x200 (0 : Byte) ++
        ([0x00, 0x30, 24, 0] ++ List.replicate 0xfa00 0)).getD (0x200 + i) 0 =
        [0x00, 0x30, 24, (0 : Byte)].getD i 0 := by
      intro i hi
      rw [List.getD_append_right _ _ _ _ (by rw [List.length_replicate]; omega),
        List.length_replicate, Nat.add_sub_cancel_left, List.getD_append _ _ _ _ hi]
    exact ⟨hByte 0 (by decide), hByte 1 (by decide), hByte 2 (by decide), hByte 3 (by decide)⟩

/-- A ROM with its request block at the beginning. -/
def emptyRom : RomImage where
  data := fun i => [0x00, 0x02, (0 : Byte), 0].getD i 0
  msgBanner := 0xff10
  msgBoot := 0xff10
  bootScb := 0xff00
  bootScb_start := by decide
  bootScb_end := by decide
  bootScb_request := by decide

theorem emptyImage_boots : ∃ b, boot romPointers emptyRom emptyImage (fun _ => everyTurn)
    (mkfs (mkfsInput emptyImage.file (fun _ => 0) (fun _ => 0) (fun _ => 0) fun _ => 0)) = some b := by
  obtain ⟨⟨b, hBoot, -⟩, -⟩ := boot_loads_kernel romPointers emptyRom emptyImage
    (fun _ => everyTurn) (fun _ => 0) (fun _ => 0) (fun _ => 0) fun _ => 0
  exact ⟨b, hBoot⟩

end Xv6502.Boot
