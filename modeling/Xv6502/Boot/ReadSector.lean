import Xv6502.Emulator.VectorEntry

/-!
# Reading a Sector While Booting

`read_sector` of `machine/rom.s` and of `kernel/boot.s`, which are the same code over different
bytes of the zero page, on the bus of the machine. Nothing is mapped yet, interrupts are masked and
the timer is off, so that besides the program only the devices move. While the disk is idle their
steps touch the UART and the PLIC alone (`deviceStep_idle`); they are modelled where the program
waits for the disk. `JSR` and `RTS` are calls and returns, and the stack page is left out: no store
below reaches it.
-/

namespace Xv6502.Boot

open Xv6502.Emulator

/-! ## §1 The code -/

/-- A byte from the terminal that does not switch the machine off. -/
abbrev Key := { c : Byte // c ≠ 0x1B }

/-- The devices in `Machine_step`. The disk has all the sectors that a 16-bit number can name, so
    that `fread` delivers a whole one. -/
def deviceStep (b : Board) (key : Option Key) : Board :=
  timerStep (diskStep diskSectorSize ((uartStep (key.map Subtype.val) b).getD b))

/-- The steps of the devices before each turn of a waiting loop, one for each entry of a list. The
    devices move at least once in `CPU_PER_STEP` instructions. -/
structure Pace where
  steps : Nat → List (Option Key)
  often : ∀ turn, ∃ i < 100, steps (turn + i) ≠ []

/-- The bytes of the zero page that `read_sector` uses: the pointer to the request, to the memory
    and to the buffer of the disk. -/
structure SectorPointers where
  ptr : Word
  buf : Word
  src : Word
  ptr_lt : ptr.toNat + 1 < 0x100
  buf_lt : buf.toNat + 1 < 0x100
  src_lt : src.toNat + 1 < 0x100
  ptr_buf : ptr.toNat + 1 < buf.toNat ∨ buf.toNat + 1 < ptr.toNat
  ptr_src : ptr.toNat + 1 < src.toNat ∨ src.toNat + 1 < ptr.toNat
  buf_src : buf.toNat + 1 < src.toNat ∨ src.toNat + 1 < buf.toNat

/-- A register of the memory map as an address. -/
def register (addr : Nat) : Word := BitVec.ofNat 16 addr

/-- The address of the mode `(zp),y`. -/
def indirect (zp : Word) (y : Byte) (b : Board) : Word × Board :=
  let (lo, b) := machineRead zp b
  let (hi, b) := machineRead (zp + 1) b
  (wordOf lo hi + y.setWidth 16, b)

/-- `lda (zp),y`. -/
def ldaIndirect (zp : Word) (y : Byte) (b : Board) : Byte × Board :=
  let (addr, b) := indirect zp y b
  machineRead addr b

/-- `sta (zp),y`. -/
def staIndirect (zp : Word) (y a : Byte) (b : Board) : Board :=
  let (addr, b) := indirect zp y b
  machineWrite addr a b

/-- `inc addr`. -/
def inc (addr : Word) (b : Board) : Board :=
  let (byte, b) := machineRead addr b
  machineWrite addr (byte + 1) b

/-- `read_sector` up to `sta DISK_CMD`. -/
def requestSector (zp : SectorPointers) (scb : Word) (b : Board) : Board :=
  -- sta ptr+0, stx ptr+1
  let b := machineWrite zp.ptr (lowByte scb) b
  let b := machineWrite (zp.ptr + 1) (highByte scb) b
  -- the buffer of the request
  let (a, b) := ldaIndirect zp.ptr 0 b
  let b := machineWrite zp.buf a b
  let (a, b) := ldaIndirect zp.ptr 1 b
  let b := machineWrite (zp.buf + 1) a b
  -- the sector of the request
  let (a, b) := ldaIndirect zp.ptr 2 b
  let b := machineWrite (register diskLba) a b
  let (a, b) := ldaIndirect zp.ptr 3 b
  let b := machineWrite (register (diskLba + 1)) a b
  machineWrite (register diskCmd) diskCmdRead b

/-- The loop `@wait`; `none` if it has not ended after so many turns. -/
def waitReady (pace : Pace) : Nat → Nat → Board → Option Board
  | 0, _, _ => none
  | turns + 1, turn, b =>
    let b := (pace.steps turn).foldl deviceStep b
    let (status, b) := machineRead (register diskStat) b
    if status = diskStatusReady then some b else waitReady pace turns (turn + 1) b

/-- The loops `@copy_low_page` and `@copy_high_page`, which end when `y` wraps around. -/
def copyPage (zp : SectorPointers) : Nat → Byte → Board → Board
  | 0, _, b => b
  | turns + 1, y, b =>
    let (a, b) := ldaIndirect zp.src y b
    let b := staIndirect zp.buf y a b
    if y + 1 = 0 then b else copyPage zp turns (y + 1) b

/-- `read_sector` behind the waiting loop. -/
def copySector (zp : SectorPointers) (b : Board) : Board :=
  let b := machineWrite zp.src (lowByte (register diskBuf)) b
  let b := machineWrite (zp.src + 1) (highByte (register diskBuf)) b
  let b := copyPage zp 256 0 b
  let b := inc (zp.src + 1) b
  let b := inc (zp.buf + 1) b
  copyPage zp 256 0 b

/-- More turns than the waiting loop takes: `DISK_LATENCY` steps of the devices, and at most
    `CPU_PER_STEP` turns for each. -/
def waitTurns : Nat := 20001

/-- `read_sector`. -/
def readSector (zp : SectorPointers) (pace : Pace) (scb : Word) (b : Board) : Option Board :=
  (waitReady pace waitTurns 0 (requestSector zp scb b)).map (copySector zp)

/-! ## §2 The bus without a mapping -/

/-- Every segment is mapped to the frame of its number, as at power-on. -/
def Flat (b : Board) : Prop := ∀ s, b.mmu.pageTable s = BitVec.ofNat 8 s

/-- The board with another memory and another disk. -/
def put (b : Board) (ram : Nat → Byte) (disk : Disk) : Board := { b with ram := ram, disk := disk }

section Bus

variable {b : Board} {ram : Nat → Byte} {disk : Disk} {va : Word}

theorem Flat.physicalAddress_eq (h : Flat b) (va : Word) : physicalAddress b.mmu va = va.toNat := by
  have hSegment : (BitVec.ofNat 8 (segmentOf va).val : Frame).toNat = va.toNat / 0x1000 := by
    have hLt : va.toNat / 0x1000 < 16 := by omega
    simp only [segmentOf, BitVec.toNat_ofNat]
    omega
  have hValid : b.mmu.pageTable (segmentOf va) ≠ mmuFrameInvalid := by
    intro hInvalid
    rw [h] at hInvalid
    have hNat := congrArg BitVec.toNat hInvalid
    rw [hSegment] at hNat
    have hFrame : mmuFrameInvalid.toNat = 255 := rfl
    omega
  rw [physicalAddress, if_neg hValid, h, hSegment, offsetOf]
  omega

theorem Flat.translate_eq (h : Flat b) (va : Word) : b.translate va = b := by
  have hValid : ¬ b.mmu.faults va := by
    intro hFault
    have hAddress : physicalAddress b.mmu va = unmappedAddress := if_pos hFault
    rw [h.physicalAddress_eq] at hAddress
    unfold unmappedAddress at hAddress
    omega
  rw [Board.translate, mmuTranslate, if_neg hValid]

theorem Flat.put (h : Flat b) (ram : Nat → Byte) (disk : Disk) : Flat (put b ram disk) := h

theorem Flat.read (h : Flat b) (hva : va.toNat < 0xfc00) : machineRead va b = (b.ram va.toNat, b) := by
  have hDev : ¬ InDevicePage va.toNat := fun hPage => by
    have := hPage.1
    omega
  rw [machineRead, h.physicalAddress_eq, h.translate_eq, readPhysical_of_not_device _ hDev,
    readEffect_of_not_device _ hDev, if_pos (by unfold ramSize; omega)]

theorem Flat.write (h : Flat b) (hva : va.toNat < 0xfc00) (byte : Byte) :
    machineWrite va byte b = Boot.put b (Function.update b.ram va.toNat byte) b.disk := by
  have hDev : ¬ InDevicePage va.toNat := fun hPage => by
    have := hPage.1
    omega
  rw [machineWrite, h.physicalAddress_eq, h.translate_eq, writePhysical_of_not_device _ _ hDev,
    if_pos (by unfold ramSize; omega)]
  rfl

/-- A read of the buffer of the disk. -/
theorem Flat.read_buffer (h : Flat b) {i : Nat} (hi : i < 512) :
    machineRead (register (diskBuf + i)) b = (b.disk.buffer i, b) := by
  have hAddress : (register (diskBuf + i)).toNat = diskBuf + i := by
    unfold register diskBuf
    rw [BitVec.toNat_ofNat]
    omega
  have hEffect : readEffect b (diskBuf + i) = b := by
    rw [readEffect, if_neg (by unfold uartRx diskBuf; omega)]
  have hByte : readPhysical b (diskBuf + i) = b.disk.buffer i := by
    unfold readPhysical
    simp only [plicInterruptLines, timerCtrl, timerLatchHigh, timerLatchLow, timerCounterHigh,
      timerCounterLow, mmuPageTable, mmuPrevRegister, mmuWatchdogRegister, mmuCauseRegister,
      mmuVaRegisterLow, mmuVaRegisterHigh, romEnable, romBase, romSize, diskBuf, diskSectorSize]
    iterate 13 refine (if_neg (by omega)).trans ?_
    refine (if_neg (fun hRom => by have := hRom.1; omega)).trans ?_
    refine (if_pos (by omega)).trans ?_
    rw [Nat.add_sub_cancel_left]
  rw [machineRead, h.physicalAddress_eq, h.translate_eq, hAddress, hByte, hEffect]

theorem Flat.read_status (h : Flat b) :
    machineRead (register diskStat) b = (b.disk.status, b) := by
  rw [machineRead, h.physicalAddress_eq, h.translate_eq]
  rfl

theorem Flat.write_lba_low (h : Flat b) (byte : Byte) :
    machineWrite (register diskLba) byte b = Boot.put b b.ram { b.disk with lbaLow := byte } := by
  rw [machineWrite, h.physicalAddress_eq, h.translate_eq]
  rfl

theorem Flat.write_lba_high (h : Flat b) (byte : Byte) :
    machineWrite (register (diskLba + 1)) byte b =
      Boot.put b b.ram { b.disk with lbaHigh := byte } := by
  rw [machineWrite, h.physicalAddress_eq, h.translate_eq]
  rfl

theorem Flat.write_cmd (h : Flat b) :
    machineWrite (register diskCmd) diskCmdRead b =
      Boot.put b b.ram { b.disk with
        cmd := diskCmdRead, status := diskStatusBusy, delay := diskLatency } := by
  rw [machineWrite, h.physicalAddress_eq, h.translate_eq]
  rfl

end Bus

/-! ## §3 Waiting for the disk -/

/-- Memory, mapping, ROM and timer are the same. -/
structure SameMemory (b c : Board) : Prop where
  ram : c.ram = b.ram
  mmu : c.mmu = b.mmu
  rom : c.rom = b.rom
  timer : c.timer = b.timer

theorem SameMemory.refl (b : Board) : SameMemory b b := ⟨rfl, rfl, rfl, rfl⟩

theorem SameMemory.trans {a b c : Board} (h : SameMemory a b) (h' : SameMemory b c) :
    SameMemory a c :=
  ⟨h'.ram.trans h.ram, h'.mmu.trans h.mmu, h'.rom.trans h.rom, h'.timer.trans h.timer⟩

/-- The disk behind a step, when its command is a read. -/
def advance (d : Disk) : Disk :=
  if d.status = diskStatusBusy then
    let d := { d with delay := d.delay - 1 }
    if d.delay = 0 then { d.readSector diskSectorSize with status := diskStatusReady } else d
  else d

theorem sameMemory_uartStep (key : Option Key) (b : Board) :
    SameMemory b ((uartStep (key.map Subtype.val) b).getD b) ∧
      ((uartStep (key.map Subtype.val) b).getD b).disk = b.disk := by
  cases key with
  | none =>
    unfold uartStep
    dsimp only [Option.map_none, Option.getD_some]
    split <;> exact ⟨⟨rfl, rfl, rfl, rfl⟩, rfl⟩
  | some c =>
    unfold uartStep
    dsimp only [Option.map_some]
    rw [if_neg c.2, Option.getD_some]
    split <;> exact ⟨⟨rfl, rfl, rfl, rfl⟩, rfl⟩

theorem diskStep_read {b : Board} (hCmd : b.disk.status = diskStatusBusy → b.disk.cmd = diskCmdRead) :
    SameMemory b (diskStep diskSectorSize b) ∧
      (diskStep diskSectorSize b).disk = advance b.disk := by
  unfold diskStep advance
  by_cases hBusy : b.disk.status = diskStatusBusy
  · rw [if_pos hBusy, if_pos hBusy]
    dsimp only
    split
    · rw [if_pos (hCmd hBusy), if_neg (by simp)]
      exact ⟨⟨rfl, rfl, rfl, rfl⟩, rfl⟩
    · exact ⟨⟨rfl, rfl, rfl, rfl⟩, rfl⟩
  · rw [if_neg hBusy, if_neg hBusy]
    exact ⟨.refl b, rfl⟩

/-- A step of the devices while the timer is off. -/
theorem deviceStep_read {b : Board} (key : Option Key) (hTimer : b.timer.ctrl = timerEnableFalse)
    (hCmd : b.disk.status = diskStatusBusy → b.disk.cmd = diskCmdRead) :
    SameMemory b (deviceStep b key) ∧ (deviceStep b key).disk = advance b.disk := by
  obtain ⟨hUart, hSameDisk⟩ := sameMemory_uartStep key b
  unfold deviceStep
  generalize (uartStep (key.map Subtype.val) b).getD b = c at hUart hSameDisk
  obtain ⟨hDisk, hNext⟩ := diskStep_read (b := c) (by rw [hSameDisk]; exact hCmd)
  have hOff : timerStep (diskStep diskSectorSize c) = diskStep diskSectorSize c := by
    rw [timerStep, if_pos (by rw [hDisk.timer, hUart.timer, hTimer])]
  rw [hOff, hNext, hSameDisk]
  exact ⟨hUart.trans hDisk, rfl⟩

/-- While the disk is idle a step of the devices moves the UART and the PLIC alone. -/
theorem deviceStep_idle {b : Board} (key : Option Key) (hTimer : b.timer.ctrl = timerEnableFalse)
    (hIdle : b.disk.status ≠ diskStatusBusy) :
    SameMemory b (deviceStep b key) ∧ (deviceStep b key).disk = b.disk := by
  obtain ⟨hSame, hDisk⟩ := deviceStep_read key hTimer fun hBusy => absurd hBusy hIdle
  rw [advance, if_neg hIdle] at hDisk
  exact ⟨hSame, hDisk⟩

/-- The disk is reading the sector that has been asked for, or has read it. -/
structure Reading (start d : Disk) : Prop where
  file : d.file = start.file
  lba : d.lbaLow = start.lbaLow ∧ d.lbaHigh = start.lbaHigh
  progress : (d.status = diskStatusBusy ∧ d.cmd = diskCmdRead ∧ 0 < d.delay) ∨
    (d.status = diskStatusReady ∧
      ∀ i < 512, d.buffer i = start.file (start.lba * diskSectorSize + i))

/-- The steps that the disk still needs. -/
def left (d : Disk) : Nat := if d.status = diskStatusBusy then d.delay.toNat else 0

theorem Reading.advance {start d : Disk} (h : Reading start d) :
    Reading start (advance d) ∧ left (Boot.advance d) = left d - 1 := by
  obtain ⟨hFile, hLba, ⟨hBusy, hCmd, hDelay⟩ | ⟨hReady, hBuffer⟩⟩ := h
  · have hLeft : left d = d.delay.toNat := if_pos hBusy
    rw [hLeft]
    unfold Boot.advance
    rw [if_pos hBusy]
    dsimp only
    split
    -- the delay has run out: the sector is in the buffer and the disk ready
    · next hLast =>
      refine ⟨⟨hFile, hLba, .inr ⟨rfl, ?_⟩⟩, ?_⟩
      · intro i hi
        have hSector : d.lba = start.lba := by rw [Disk.lba, Disk.lba, hLba.1, hLba.2]
        refine (if_pos (show i < diskSectorSize from hi)).trans ?_
        show d.file (d.lba * diskSectorSize + i) = _
        rw [hFile, hSector]
      · have hOne : d.delay.toNat = 1 := by omega
        rw [hOne]
        rfl
    · next hMore =>
      refine ⟨⟨hFile, hLba, .inl ⟨hBusy, hCmd, ?_⟩⟩, ?_⟩
      · show 0 < d.delay - 1
        omega
      · unfold left
        dsimp only
        rw [if_pos hBusy]
        omega
  -- the disk is ready and stays as it is
  · have hIdle : d.status ≠ diskStatusBusy := by
      rw [hReady]
      decide
    have hSame : Boot.advance d = d := if_neg hIdle
    rw [hSame]
    refine ⟨⟨hFile, hLba, .inr ⟨hReady, hBuffer⟩⟩, ?_⟩
    rw [left, if_neg hIdle]

/-- A board that waits for a sector. -/
structure Waiting (start b : Board) : Prop where
  same : SameMemory start b
  reading : Reading start.disk b.disk

theorem Waiting.deviceStep {start b : Board} (h : Waiting start b)
    (hTimer : start.timer.ctrl = timerEnableFalse) (key : Option Key) :
    Waiting start (deviceStep b key) ∧ left (Boot.deviceStep b key).disk = left b.disk - 1 := by
  have hCmd : b.disk.status = diskStatusBusy → b.disk.cmd = diskCmdRead := by
    intro hBusy
    obtain ⟨-, hRead, -⟩ | ⟨hReady, -⟩ := h.reading.progress
    · exact hRead
    · rw [hReady] at hBusy
      exact absurd hBusy (by decide)
  obtain ⟨hSame, hDisk⟩ := deviceStep_read key (by rw [h.same.timer]; exact hTimer) hCmd
  obtain ⟨hReading, hLeft⟩ := h.reading.advance
  exact ⟨⟨h.same.trans hSame, by rw [hDisk]; exact hReading⟩, by rw [hDisk]; exact hLeft⟩

theorem Waiting.steps {start b : Board} (h : Waiting start b)
    (hTimer : start.timer.ctrl = timerEnableFalse) (keys : List (Option Key)) :
    Waiting start (keys.foldl Boot.deviceStep b) ∧
      left (keys.foldl Boot.deviceStep b).disk = left b.disk - keys.length := by
  induction keys generalizing b with
  | nil => exact ⟨h, rfl⟩
  | cons key keys ih =>
    obtain ⟨hNext, hLeft⟩ := h.deviceStep hTimer key
    obtain ⟨hLast, hRest⟩ := ih hNext
    refine ⟨hLast, ?_⟩
    rw [List.foldl_cons, hRest, hLeft, List.length_cons]
    omega

/-- The disk has read the sector. -/
def Arrived (start b : Board) : Prop := Waiting start b ∧ b.disk.status = diskStatusReady

theorem Waiting.arrived {start b : Board} (h : Waiting start b) (hLeft : left b.disk = 0) :
    Arrived start b := by
  refine ⟨h, ?_⟩
  obtain ⟨hBusy, -, hDelay⟩ | ⟨hReady, -⟩ := h.reading.progress
  · rw [left, if_pos hBusy] at hLeft
    omega
  · exact hReady

/-- One turn of the waiting loop. -/
theorem waitReady_turn {start b : Board} (h : Waiting start b) (pace : Pace) (turns turn : Nat)
    (hFlat : Flat start) (hTimer : start.timer.ctrl = timerEnableFalse) :
    (∃ c, waitReady pace (turns + 1) turn b = some c ∧ Arrived start c) ∨
      ∃ c, waitReady pace (turns + 1) turn b = waitReady pace turns (turn + 1) c ∧
        Waiting start c ∧ left c.disk = left b.disk - (pace.steps turn).length := by
  obtain ⟨hSteps, hLeft⟩ := h.steps hTimer (pace.steps turn)
  have hFlat' : Flat ((pace.steps turn).foldl deviceStep b) := by
    rw [Flat, hSteps.same.mmu]
    exact hFlat
  rw [waitReady]
  dsimp only
  rw [hFlat'.read_status]
  dsimp only
  -- ready, or the delay has gone down by what the disk has done in this turn
  split
  · next hReady => exact .inl ⟨_, rfl, hSteps, hReady⟩
  · exact .inr ⟨_, rfl, hSteps, hLeft⟩

/-- The loop ends behind the turn with the last step that the disk needs. -/
theorem waitReady_of_left {start : Board} (pace : Pace) (hFlat : Flat start)
    (hTimer : start.timer.ctrl = timerEnableFalse) (k : Nat) :
    ∀ {b : Board} {turns turn : Nat}, Waiting start b → left b.disk ≤ k → 100 * k + 1 ≤ turns →
      ∃ c, waitReady pace turns turn b = some c ∧ Arrived start c := by
  induction k with
  | zero =>
    intro b turns turn h hLeft hTurns
    obtain ⟨turns, rfl⟩ : ∃ rest, turns = rest + 1 := ⟨turns - 1, by omega⟩
    have hFlat' : Flat ((pace.steps turn).foldl deviceStep b) := by
      rw [Flat, (h.steps hTimer _).1.same.mmu]
      exact hFlat
    obtain ⟨hSteps, hNone⟩ := h.steps hTimer (pace.steps turn)
    have hArrived := hSteps.arrived (by omega)
    refine ⟨_, ?_, hArrived⟩
    rw [waitReady]
    dsimp only
    rw [hFlat'.read_status]
    exact if_pos hArrived.2
  | succ k ih =>
    -- the turns up to the next one with a step of the devices
    have hNext : ∀ i {b : Board} {turns turn : Nat}, pace.steps (turn + i) ≠ [] →
        Waiting start b → left b.disk ≤ k + 1 → 100 * k + i + 2 ≤ turns →
        ∃ c, waitReady pace turns turn b = some c ∧ Arrived start c := by
      intro i
      induction i with
      | zero =>
        intro b turns turn hSteps h hLeft hTurns
        obtain ⟨turns, rfl⟩ : ∃ rest, turns = rest + 1 := ⟨turns - 1, by omega⟩
        rcases waitReady_turn h pace turns turn hFlat hTimer with
          hDone | ⟨c, hEq, hc, hFewer⟩
        · exact hDone
        · have hSome : 0 < (pace.steps turn).length := List.length_pos_iff.mpr hSteps
          rw [hEq]
          exact ih hc (by omega) (by omega)
      | succ i ihTurn =>
        intro b turns turn hSteps h hLeft hTurns
        obtain ⟨turns, rfl⟩ : ∃ rest, turns = rest + 1 := ⟨turns - 1, by omega⟩
        rcases waitReady_turn h pace turns turn hFlat hTimer with
          hDone | ⟨c, hEq, hc, hFewer⟩
        · exact hDone
        · rw [hEq]
          refine ihTurn ?_ hc (by omega) (by omega)
          rwa [Nat.add_right_comm, Nat.add_assoc]
    intro b turns turn h hLeft hTurns
    obtain ⟨i, hi, hSteps⟩ := pace.often turn
    exact hNext i hSteps h hLeft (by omega)

/-! ## §4 The sector in memory -/

/-- The request block at `scb` asks for a sector and a place in memory, whatever happens to the
    zero page and the disk. -/
def Requests (b : Board) (scb buffer lba : Word) : Prop :=
  ∀ c : Board, c.mmu = b.mmu → c.rom = b.rom → (∀ a, 0x100 ≤ a → c.ram a = b.ram a) →
    machineRead scb c = (lowByte buffer, c) ∧ machineRead (scb + 1) c = (highByte buffer, c) ∧
    machineRead (scb + 2) c = (lowByte lba, c) ∧ machineRead (scb + 3) c = (highByte lba, c)

section Sector

variable {b : Board} {zp : SectorPointers} {scb buffer lba : Word}

theorem toNat_succ {w : Word} (h : w.toNat + 1 < 0x100) : (w + 1).toNat = w.toNat + 1 := by
  rw [BitVec.toNat_add]
  show (w.toNat + 1) % 65536 = _
  omega

/-- `lda (zp),y` through a pointer in the zero page. -/
theorem ldaIndirect_eq {zp target : Word} (hFlat : Flat b) (hZp : zp.toNat + 1 < 0x100)
    (hLow : b.ram zp.toNat = lowByte target) (hHigh : b.ram (zp.toNat + 1) = highByte target)
    (y : Byte) : ldaIndirect zp y b = machineRead (target + y.setWidth 16) b := by
  have hSucc := toNat_succ hZp
  unfold ldaIndirect indirect
  rw [hFlat.read (by omega)]
  dsimp only
  rw [hFlat.read (by omega), hSucc]
  dsimp only
  rw [hLow, hHigh, wordOf_low_high]

/-- `sta (zp),y` through a pointer in the zero page. -/
theorem staIndirect_eq {zp target : Word} (hFlat : Flat b) (hZp : zp.toNat + 1 < 0x100)
    (hLow : b.ram zp.toNat = lowByte target) (hHigh : b.ram (zp.toNat + 1) = highByte target)
    (y a : Byte) : staIndirect zp y a b = machineWrite (target + y.setWidth 16) a b := by
  have hSucc := toNat_succ hZp
  unfold staIndirect indirect
  rw [hFlat.read (by omega)]
  dsimp only
  rw [hFlat.read (by omega), hSucc]
  dsimp only
  rw [hLow, hHigh, wordOf_low_high]

/-- The board behind the request: the disk has been started, and the address of the memory is in
    the zero page. -/
structure Requested (zp : SectorPointers) (buffer lba : Word) (b c : Board) : Prop where
  mmu : c.mmu = b.mmu
  rom : c.rom = b.rom
  timer : c.timer = b.timer
  ram : ∀ a, 0x100 ≤ a → c.ram a = b.ram a
  low : c.ram zp.buf.toNat = lowByte buffer
  high : c.ram (zp.buf.toNat + 1) = highByte buffer
  disk : c.disk = { b.disk with
    lbaLow := lowByte lba, lbaHigh := highByte lba
    cmd := diskCmdRead, status := diskStatusBusy, delay := diskLatency }

/-- A byte of the request, read through the pointer. -/
theorem Requests.lda (h : Requests b scb buffer lba) (zp : SectorPointers) {ram : Nat → Byte}
    (disk : Disk) (hFlat : Flat b) (hRam : ∀ a, 0x100 ≤ a → ram a = b.ram a)
    (hLow : ram zp.ptr.toNat = lowByte scb) (hHigh : ram (zp.ptr.toNat + 1) = highByte scb) :
    ldaIndirect zp.ptr 0 (put b ram disk) = (lowByte buffer, put b ram disk) ∧
    ldaIndirect zp.ptr 1 (put b ram disk) = (highByte buffer, put b ram disk) ∧
    ldaIndirect zp.ptr 2 (put b ram disk) = (lowByte lba, put b ram disk) ∧
    ldaIndirect zp.ptr 3 (put b ram disk) = (highByte lba, put b ram disk) := by
  have hPointer := ldaIndirect_eq (hFlat.put ram disk) zp.ptr_lt hLow hHigh
  obtain ⟨h₀, h₁, h₂, h₃⟩ := h (put b ram disk) rfl rfl hRam
  refine ⟨?_, ?_, ?_, ?_⟩ <;> rw [hPointer]
  · rw [show scb + (0 : Byte).setWidth 16 = scb by simp]
    exact h₀
  · exact h₁
  · exact h₂
  · exact h₃

theorem requestSector_eq (zp : SectorPointers) (hFlat : Flat b) (h : Requests b scb buffer lba) :
    Requested zp buffer lba b (requestSector zp scb b) := by
  have hPtr := zp.ptr_lt
  have hBuf := zp.buf_lt
  have hApart := zp.ptr_buf
  -- the memory behind each of the four stores to the zero page
  let r₁ := Function.update b.ram zp.ptr.toNat (lowByte scb)
  let r₂ := Function.update r₁ (zp.ptr.toNat + 1) (highByte scb)
  let r₃ := Function.update r₂ zp.buf.toNat (lowByte buffer)
  let r₄ := Function.update r₃ (zp.buf.toNat + 1) (highByte buffer)
  have hRam : ∀ a, 0x100 ≤ a → r₂ a = b.ram a ∧ r₃ a = b.ram a ∧ r₄ a = b.ram a := by
    intro a ha
    refine ⟨?_, ?_, ?_⟩ <;> simp (disch := omega) only [r₁, r₂, r₃, r₄, Function.update_of_ne]
  have hPointer : ∀ r, r = r₂ ∨ r = r₃ ∨ r = r₄ →
      r zp.ptr.toNat = lowByte scb ∧ r (zp.ptr.toNat + 1) = highByte scb := by
    rintro r (rfl | rfl | rfl) <;> constructor <;>
      simp (disch := omega) only [r₁, r₂, r₃, r₄, Function.update_of_ne, Function.update_self]
  have hRequest : ∀ r disk, r = r₂ ∨ r = r₃ ∨ r = r₄ → _ := fun r disk hr =>
    h.lda zp disk hFlat
      (by
        intro a ha
        rcases hr with rfl | rfl | rfl
        · exact (hRam a ha).1
        · exact (hRam a ha).2.1
        · exact (hRam a ha).2.2)
      (hPointer r hr).1 (hPointer r hr).2
  have h₁ : machineWrite zp.ptr (lowByte scb) b = put b r₁ b.disk := hFlat.write (by omega) _
  have h₂ : machineWrite (zp.ptr + 1) (highByte scb) (put b r₁ b.disk) = put b r₂ b.disk := by
    rw [(hFlat.put _ _).write (by rw [toNat_succ hPtr]; omega), toNat_succ hPtr]
    rfl
  have h₃ : machineWrite zp.buf (lowByte buffer) (put b r₂ b.disk) = put b r₃ b.disk :=
    (hFlat.put _ _).write (by omega) _
  have h₄ : machineWrite (zp.buf + 1) (highByte buffer) (put b r₃ b.disk) = put b r₄ b.disk := by
    rw [(hFlat.put _ _).write (by rw [toNat_succ hBuf]; omega), toNat_succ hBuf]
    rfl
  -- the disk behind each of the three stores to its registers
  let d₁ : Disk := { b.disk with lbaLow := lowByte lba }
  let d₂ : Disk := { d₁ with lbaHigh := highByte lba }
  let d₃ : Disk :=
    { d₂ with cmd := diskCmdRead, status := diskStatusBusy, delay := diskLatency }
  have h₅ : machineWrite (register diskLba) (lowByte lba) (put b r₄ b.disk) = put b r₄ d₁ :=
    (hFlat.put _ _).write_lba_low _
  have h₆ : machineWrite (register (diskLba + 1)) (highByte lba) (put b r₄ d₁) = put b r₄ d₂ :=
    (hFlat.put _ _).write_lba_high _
  have h₇ : machineWrite (register diskCmd) diskCmdRead (put b r₄ d₂) = put b r₄ d₃ :=
    (hFlat.put _ _).write_cmd
  have hEnd : requestSector zp scb b = put b r₄ d₃ := by
    unfold requestSector
    rw [h₁]
    dsimp only
    rw [h₂, (hRequest r₂ _ (.inl rfl)).1]
    dsimp only
    rw [h₃, (hRequest r₃ _ (.inr (.inl rfl))).2.1]
    dsimp only
    rw [h₄, (hRequest r₄ _ (.inr (.inr rfl))).2.2.1]
    dsimp only
    rw [h₅, (hRequest r₄ _ (.inr (.inr rfl))).2.2.2]
    dsimp only
    rw [h₆, h₇]
  rw [hEnd]
  refine ⟨rfl, rfl, rfl, fun a ha => (hRam a ha).2.2, ?_, ?_, rfl⟩
  · show r₄ zp.buf.toNat = _
    simp (disch := omega) only [r₃, r₄, Function.update_of_ne, Function.update_self]
  · show r₄ (zp.buf.toNat + 1) = _
    simp only [r₄, Function.update_self]

theorem toNat_add_byte {w : Word} {y : Byte} (h : w.toNat + y.toNat < 0x10000) :
    (w + y.setWidth 16).toNat = w.toNat + y.toNat := by
  rw [BitVec.toNat_add, BitVec.toNat_setWidth]
  omega

/-- One turn of the loop over a page. -/
theorem copyByte_eq {source target : Word} {offset : Nat} {y : Byte} (hFlat : Flat b)
    (hFrom : source = register (diskBuf + offset)) (hOffset : offset + 256 ≤ 512)
    (hEnd : target.toNat + 256 ≤ 0xfc00)
    (hSrc : b.ram zp.src.toNat = lowByte source ∧ b.ram (zp.src.toNat + 1) = highByte source)
    (hBuf : b.ram zp.buf.toNat = lowByte target ∧ b.ram (zp.buf.toNat + 1) = highByte target) :
    ldaIndirect zp.src y b = (b.disk.buffer (offset + y.toNat), b) ∧
      ∀ a, staIndirect zp.buf y a b =
        put b (Function.update b.ram (target.toNat + y.toNat) a) b.disk := by
  have hByte := y.isLt
  constructor
  · have hAddress : source + y.setWidth 16 = register (diskBuf + (offset + y.toNat)) := by
      apply BitVec.eq_of_toNat_eq
      -- the byte read is one of the disk's registers, the byte written is in RAM below them
      have hSource : source.toNat = diskBuf + offset := by
        rw [hFrom, register, BitVec.toNat_ofNat]
        unfold diskBuf
        omega
      rw [toNat_add_byte (by rw [hSource]; unfold diskBuf; omega), hSource, register,
        BitVec.toNat_ofNat]
      unfold diskBuf
      omega
    rw [ldaIndirect_eq hFlat zp.src_lt hSrc.1 hSrc.2, hAddress, hFlat.read_buffer (by omega)]
  · intro a
    have hTarget : (target + y.setWidth 16).toNat = target.toNat + y.toNat :=
      toNat_add_byte (by omega)
    rw [staIndirect_eq hFlat zp.buf_lt hBuf.1 hBuf.2, hFlat.write (by omega), hTarget]

/-- The loop over a page: the bytes from `y` on are copied. -/
theorem copyPage_eq (source target : Word) (offset : Nat) (hFlat : Flat b)
    (hFrom : source = register (diskBuf + offset)) (hOffset : offset + 256 ≤ 512)
    (hStart : 0x100 ≤ target.toNat) (hEnd : target.toNat + 256 ≤ 0xfc00)
    (hSrc : b.ram zp.src.toNat = lowByte source ∧ b.ram (zp.src.toNat + 1) = highByte source)
    (hBuf : b.ram zp.buf.toNat = lowByte target ∧ b.ram (zp.buf.toNat + 1) = highByte target)
    (turns : Nat) (y : Byte) (hTurns : y.toNat + turns = 256) :
    copyPage zp turns y b = put b
      (fun a => if target.toNat + y.toNat ≤ a ∧ a < target.toNat + 256 then
        b.disk.buffer (offset + (a - target.toNat)) else b.ram a) b.disk := by
  have hSrcLt := zp.src_lt
  have hBufLt := zp.buf_lt
  induction turns generalizing y b with
  | zero =>
    have hByte := y.isLt
    omega
  | succ turns ih =>
    obtain ⟨hLda, hSta⟩ := copyByte_eq (y := y) hFlat hFrom hOffset hEnd hSrc hBuf
    rw [copyPage, hLda]
    dsimp only
    rw [hSta]
    split
    · next hWrap =>
      -- the last byte of the page
      have hLast : y.toNat = 255 := by
        have hNat := congrArg BitVec.toNat hWrap
        rw [BitVec.toNat_add] at hNat
        have hOne : (1 : Byte).toNat = 1 := rfl
        have hZero : (0 : Byte).toNat = 0 := rfl
        omega
      unfold put
      congr 1
      funext a
      by_cases ha : a = target.toNat + y.toNat
      · rw [ha, Function.update_self, if_pos (by omega), Nat.add_sub_cancel_left]
      · rw [Function.update_of_ne ha, if_neg (by omega)]
    · next hMore =>
      have hNext : (y + 1).toNat = y.toNat + 1 := by
        have hNot : y.toNat ≠ 255 := by
          intro hLast
          apply hMore
          apply BitVec.eq_of_toNat_eq
          rw [BitVec.toNat_add, hLast]
          rfl
        rw [BitVec.toNat_add]
        have hOne : (1 : Byte).toNat = 1 := rfl
        have hByte := y.isLt
        omega
      have hZp : ∀ a < 0x100, (put b (Function.update b.ram (target.toNat + y.toNat)
          (b.disk.buffer (offset + y.toNat))) b.disk).ram a = b.ram a :=
        fun a ha => Function.update_of_ne (by omega) _ _
      rw [ih (hFlat.put _ _)
        ⟨(hZp _ (by omega)).trans hSrc.1, (hZp _ (by omega)).trans hSrc.2⟩
        ⟨(hZp _ (by omega)).trans hBuf.1, (hZp _ (by omega)).trans hBuf.2⟩ (y + 1) (by omega), hNext]
      unfold put
      congr 1
      funext a
      dsimp only
      by_cases ha : a = target.toNat + y.toNat
      · rw [ha, if_neg (by omega), Function.update_self, if_pos (by omega), Nat.add_sub_cancel_left]
      · rw [Function.update_of_ne ha]
        have hSame : (target.toNat + (y.toNat + 1) ≤ a ∧ a < target.toNat + 256) ↔
            (target.toNat + y.toNat ≤ a ∧ a < target.toNat + 256) := by omega
        simp only [hSame]

theorem toNat_add_page {w : Word} (h : w.toNat + 256 < 0x10000) :
    (w + 0x100).toNat = w.toNat + 256 := by
  rw [BitVec.toNat_add]
  have hPage : (0x100 : Word).toNat = 256 := rfl
  omega

/-- The next page has the same low byte and the next high byte. -/
theorem lowByte_add_page (w : Word) : lowByte (w + 0x100) = lowByte w := by
  apply BitVec.eq_of_toNat_eq
  rw [toNat_lowByte, toNat_lowByte, BitVec.toNat_add]
  have hPage : (0x100 : Word).toNat = 256 := rfl
  omega

theorem highByte_add_page (w : Word) : highByte (w + 0x100) = highByte w + 1 := by
  apply BitVec.eq_of_toNat_eq
  rw [BitVec.toNat_add, toNat_highByte, toNat_highByte, BitVec.toNat_add]
  have hPage : (0x100 : Word).toNat = 256 := rfl
  have hOne : (1 : Byte).toNat = 1 := rfl
  have hLt := w.isLt
  omega

theorem inc_eq {va : Word} (hFlat : Flat b) (hva : va.toNat < 0xfc00) :
    inc va b = put b (Function.update b.ram va.toNat (b.ram va.toNat + 1)) b.disk := by
  rw [inc, hFlat.read hva]
  exact hFlat.write hva _

/-- The buffer of the disk is in memory, and nothing else has changed from the stack page on. -/
structure Copied (buffer : Word) (b c : Board) : Prop where
  mmu : c.mmu = b.mmu
  rom : c.rom = b.rom
  timer : c.timer = b.timer
  disk : c.disk = b.disk
  sector : ∀ i < 512, c.ram (buffer.toNat + i) = b.disk.buffer i
  rest : ∀ a, 0x100 ≤ a → a < buffer.toNat ∨ buffer.toNat + 512 ≤ a → c.ram a = b.ram a

theorem copySector_eq (zp : SectorPointers) (hFlat : Flat b) (hStart : 0x100 ≤ buffer.toNat)
    (hEnd : buffer.toNat + 512 ≤ 0xfc00)
    (hBuf : b.ram zp.buf.toNat = lowByte buffer ∧ b.ram (zp.buf.toNat + 1) = highByte buffer) :
    Copied buffer b (copySector zp b) := by
  have hSrcLt := zp.src_lt
  have hBufLt := zp.buf_lt
  have hApart := zp.buf_src
  have hSrc' := toNat_succ hSrcLt
  have hBuf' := toNat_succ hBufLt
  have hPage := toNat_add_page (w := buffer) (by omega)
  -- the pointer to the buffer of the disk
  let r₁ := Function.update b.ram zp.src.toNat (lowByte (register diskBuf))
  let r₂ := Function.update r₁ (zp.src.toNat + 1) (highByte (register diskBuf))
  have h₁ : machineWrite zp.src (lowByte (register diskBuf)) b = put b r₁ b.disk :=
    hFlat.write (by omega) _
  have h₂ : machineWrite (zp.src + 1) (highByte (register diskBuf)) (put b r₁ b.disk) =
      put b r₂ b.disk := by
    rw [(hFlat.put _ _).write (by omega), hSrc']
    rfl
  -- the first page
  let r₃ : Nat → Byte := fun a =>
    if buffer.toNat + (0 : Byte).toNat ≤ a ∧ a < buffer.toNat + 256 then
      b.disk.buffer (0 + (a - buffer.toNat)) else r₂ a
  have h₃ : copyPage zp 256 0 (put b r₂ b.disk) = put b r₃ b.disk := by
    refine copyPage_eq (register diskBuf) buffer 0 (hFlat.put r₂ b.disk) rfl (by omega) hStart
      (by omega) ⟨?_, ?_⟩ ⟨?_, ?_⟩ 256 0 rfl
    · show r₂ zp.src.toNat = _
      simp (disch := omega) only [r₁, r₂, Function.update_of_ne, Function.update_self]
    · show r₂ (zp.src.toNat + 1) = _
      simp only [r₂, Function.update_self]
    · show r₂ zp.buf.toNat = _
      simp (disch := omega) only [r₁, r₂, Function.update_of_ne, hBuf.1]
    · show r₂ (zp.buf.toNat + 1) = _
      simp (disch := omega) only [r₁, r₂, Function.update_of_ne, hBuf.2]
  have hZp₃ : ∀ a < 0x100, r₃ a = r₂ a := fun a ha => if_neg (by omega)
  -- both pointers to the next page
  let r₄ := Function.update r₃ (zp.src.toNat + 1) (r₃ (zp.src.toNat + 1) + 1)
  let r₅ := Function.update r₄ (zp.buf.toNat + 1) (r₄ (zp.buf.toNat + 1) + 1)
  have h₄ : inc (zp.src + 1) (put b r₃ b.disk) = put b r₄ b.disk := by
    rw [inc_eq (hFlat.put _ _) (by omega), hSrc']
    rfl
  have h₅ : inc (zp.buf + 1) (put b r₄ b.disk) = put b r₅ b.disk := by
    rw [inc_eq (hFlat.put _ _) (by omega), hBuf']
    rfl
  -- the second page
  let r₆ : Nat → Byte := fun a =>
    if (buffer + 0x100).toNat + (0 : Byte).toNat ≤ a ∧ a < (buffer + 0x100).toNat + 256 then
      b.disk.buffer (256 + (a - (buffer + 0x100).toNat)) else r₅ a
  have h₆ : copyPage zp 256 0 (put b r₅ b.disk) = put b r₆ b.disk := by
    refine copyPage_eq (register (diskBuf + 256)) (buffer + 0x100) 256 (hFlat.put r₅ b.disk) rfl
      (by omega) (by omega) (by omega) ⟨?_, ?_⟩ ⟨?_, ?_⟩ 256 0 rfl
    · show r₅ zp.src.toNat = _
      simp (disch := omega) only [r₁, r₂, r₄, r₅, hZp₃, Function.update_of_ne, Function.update_self]
      decide
    · show r₅ (zp.src.toNat + 1) = _
      simp (disch := omega) only [r₂, r₄, r₅, hZp₃, Function.update_of_ne, Function.update_self]
      decide
    · show r₅ zp.buf.toNat = _
      simp (disch := omega) only [r₁, r₂, r₄, r₅, hZp₃, Function.update_of_ne, hBuf.1,
        lowByte_add_page]
    · show r₅ (zp.buf.toNat + 1) = _
      simp (disch := omega) only [r₁, r₂, r₄, r₅, hZp₃, Function.update_of_ne,
        Function.update_self, hBuf.2, highByte_add_page]
  have hAll : copySector zp b = put b r₆ b.disk := by
    unfold copySector
    rw [h₁]
    dsimp only
    rw [h₂, h₃, h₄, h₅, h₆]
  have hZero : (0 : Byte).toNat = 0 := rfl
  rw [hAll]
  refine ⟨rfl, rfl, rfl, rfl, ?_, ?_⟩
  · intro i hi
    show r₆ (buffer.toNat + i) = _
    by_cases hLow : i < 256
    · simp (disch := omega) only [r₆, r₅, r₄, r₃, if_neg, Function.update_of_ne]
      rw [if_pos (by omega), Nat.add_sub_cancel_left, Nat.zero_add]
    · have hIndex : 256 + (buffer.toNat + i - (buffer + 0x100).toNat) = i := by omega
      refine (if_pos (by omega)).trans ?_
      rw [hIndex]
  · intro a ha hOut
    show r₆ a = _
    simp (disch := omega) only [r₆, r₅, r₄, r₃, r₂, r₁, if_neg, Function.update_of_ne]

/-- **`read_sector`**: the loop ends, and the sector that the request names is where the request
    wants it. -/
structure SectorRead (buffer lba : Word) (b c : Board) : Prop where
  mmu : c.mmu = b.mmu
  rom : c.rom = b.rom
  timer : c.timer = b.timer
  file : c.disk.file = b.disk.file
  ready : c.disk.status = diskStatusReady
  sector : ∀ i < 512, c.ram (buffer.toNat + i) = b.disk.file (lba.toNat * diskSectorSize + i)
  rest : ∀ a, 0x100 ≤ a → a < buffer.toNat ∨ buffer.toNat + 512 ≤ a → c.ram a = b.ram a

theorem readSector_reads (hFlat : Flat b) (hTimer : b.timer.ctrl = timerEnableFalse) (pace : Pace)
    (h : Requests b scb buffer lba) (hStart : 0x100 ≤ buffer.toNat)
    (hEnd : buffer.toNat + 512 ≤ 0xfc00) :
    ∃ c, readSector zp pace scb b = some c ∧ SectorRead buffer lba b c := by
  have hRequested := requestSector_eq zp hFlat h
  -- the four stores of the request, then the loop on the status, then the copy
  generalize hs : requestSector zp scb b = start at hRequested
  have hStartFlat : Flat start := by
    rw [Flat, hRequested.mmu]
    exact hFlat
  have hStartTimer : start.timer.ctrl = timerEnableFalse := by rw [hRequested.timer, hTimer]
  have hWaiting : Waiting start start := by
    refine ⟨.refl start, rfl, ⟨rfl, rfl⟩, .inl ?_⟩
    rw [hRequested.disk]
    exact ⟨rfl, rfl, show 0 < diskLatency by decide⟩
  have hLeft : left start.disk ≤ 200 := by
    rw [hRequested.disk]
    show diskLatency.toNat ≤ 200
    decide
  -- the loop ends, since the latency of the disk is bounded
  obtain ⟨c, hWait, hArrived, hReady⟩ := waitReady_of_left pace hStartFlat hStartTimer 200
    hWaiting hLeft (by decide : 100 * 200 + 1 ≤ waitTurns)
  have hFlat' : Flat c := by
    rw [Flat, hArrived.same.mmu]
    exact hStartFlat
  have hRam := hArrived.same.ram
  have hCopied := copySector_eq zp hFlat' hStart hEnd
    ⟨by rw [hRam, hRequested.low], by rw [hRam, hRequested.high]⟩
  -- the sector that has arrived is the one asked for
  have hBuffer : ∀ i < 512, c.disk.buffer i = b.disk.file (lba.toNat * diskSectorSize + i) := by
    obtain ⟨hBusy, -⟩ | ⟨-, hSector⟩ := hArrived.reading.progress
    · rw [hReady] at hBusy
      exact absurd hBusy (by decide)
    · intro i hi
      have hLba : start.disk.lba = lba.toNat := by
        rw [hRequested.disk, Disk.lba, toNat_highByte, toNat_lowByte]
        omega
      rw [hSector i hi, hLba, hRequested.disk]
  refine ⟨copySector zp c, ?_, ?_⟩
  · rw [readSector, hs, hWait]
    rfl
  · exact
      { mmu := hCopied.mmu.trans (hArrived.same.mmu.trans hRequested.mmu)
        rom := hCopied.rom.trans (hArrived.same.rom.trans hRequested.rom)
        timer := hCopied.timer.trans (hArrived.same.timer.trans hRequested.timer)
        file := by rw [hCopied.disk, hArrived.reading.file, hRequested.disk]
        ready := by rw [hCopied.disk, hReady]
        sector := fun i hi => by rw [hCopied.sector i hi, hBuffer i hi]
        rest := fun a ha hOut => by rw [hCopied.rest a ha hOut, hRam, hRequested.ram a ha] }

end Sector

end Xv6502.Boot
