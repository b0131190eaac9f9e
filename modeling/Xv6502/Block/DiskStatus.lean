import Xv6502.Block.Driver
import Xv6502.Emulator.CpuStep
import Xv6502.Lib.Transition

/-!
# Failing Transfers: the Disk and Its Driver at the Status Register

The other modules of the block layer have a disk that never fails. Here the driver of
`kernel/disk.c` works on the registers of the emulated disk, and every transfer of `Disk_step`
may move fewer bytes than a sector or meet an unknown command.

The two sides do not agree about failures. A short transfer returns from `Disk_step` before the
interrupt line is raised; and the driver tests `DISK_STAT & DISK_STATUS_READY`, which
`DISK_STATUS_ERROR` passes, since it is 3 and `DISK_STATUS_READY` is 2. `failures_reported` says
that nothing else goes wrong.
-/

namespace Xv6502.Block.DiskStatus

open Xv6502.Emulator Xv6502.Lib

/-! ## §1 The driver on the registers -/

/-- What the driver keeps: the buffers and the queue. -/
structure Driver where
  buffer : BufferId → Buffer
  head : Option BufferId
  tail : Option BufferId
  sectorOffset : Byte

/-- The driver with the machine it runs on. -/
structure System where
  driver : Driver
  board : Board

/-- Change a buffer. -/
def Driver.setBuffer (d : Driver) (b : BufferId) (f : Buffer → Buffer) : Driver :=
  { d with buffer := Function.update d.buffer b (f (d.buffer b)) }

/-- `disk_init`. -/
def Driver.init (d : Driver) : Driver := { d with head := none, tail := none }

/-- The queue of `disk_submit`. -/
def Driver.enqueue (d : Driver) (b : BufferId) : Driver :=
  let d := d.setBuffer b fun e => { e with queue := none }
  let d :=
    match d.head, d.tail with
    | none, _ => { d with head := some b }
    | some _, some tail => d.setBuffer tail fun e => { e with queue := some b }
    -- there is no tail before the first request, when there is no head either
    | some _, none => d
  { d with tail := some b }

/-- `MMIO16(DISK_LBA) = lba` and `MMIO8(DISK_CMD) = cmd`. -/
def command (board : Board) (lba : Word) (cmd : Byte) : Board :=
  let board := writePhysical board diskLba (lowByte lba)
  let board := writePhysical board (diskLba + 1) (highByte lba)
  writePhysical board diskCmd cmd

/-- `memcpy` of a sector to `DISK_BUF`. -/
def fillBuffer (board : Board) (sector : Nat → Byte) : Board :=
  { board with disk := { board.disk with
      buffer := Storage.copyIn board.disk.buffer 0 sector } }

namespace System

/-- `disk_start_operation`. -/
def startOperation (s : System) : System :=
  match s.driver.head with
  | none => s
  | some b =>
    let e := s.driver.buffer b
    let lba := e.blockNumber * 8 + s.driver.sectorOffset.setWidth 16
    -- a dirty buffer is written, a clean one read
    if e.dirty then
      let board := fillBuffer s.board fun i =>
        e.frame (s.driver.sectorOffset.toNat * sectorSize + i)
      { s with board := command board lba diskCmdWrite }
    else { s with board := command s.board lba diskCmdRead }

/-- `disk_submit` up to `sleep(b)`. -/
def submit (s : System) (b : BufferId) : System :=
  let d := s.driver.enqueue b
  if d.head = some b then { s with driver := { d with sectorOffset := 0 } }.startOperation
  else { s with driver := d }

/-- `disk_block_read`. -/
def blockRead (s : System) (b : BufferId) : System :=
  { s with driver := s.driver.setBuffer b fun e => { e with dirty := false } }.submit b

/-- `disk_block_write`. -/
def blockWrite (s : System) (b : BufferId) : System :=
  { s with driver := s.driver.setBuffer b fun e => { e with dirty := true } }.submit b

/-- The sector that has been read is copied to the frame. -/
def copySector (s : System) (b : BufferId) : Driver :=
  if (s.driver.buffer b).dirty then s.driver
  else s.driver.setBuffer b fun e =>
    { e with frame :=
        Storage.copyIn e.frame (s.driver.sectorOffset.toNat * sectorSize) s.board.disk.buffer }

/-- `disk_interrupt` for a buffer, behind the test of the status. The wakeup of its process is
    no part of this state. -/
def finishSector (s : System) (b : BufferId) : System :=
  let d := s.copySector b
  let d := { d with sectorOffset := d.sectorOffset + 1 }
  if BitVec.ofNat 8 sectorsPerBlock ≤ d.sectorOffset then
    let d := d.setBuffer b fun e => { e with valid := true, dirty := false }
    let d := { d with head := (d.buffer b).queue }
    if d.head = none then { s with driver := d }
    else { s with driver := { d with sectorOffset := 0 } }.startOperation
  else { s with driver := d }.startOperation

/-- `disk_interrupt`. -/
def interrupt (s : System) : System :=
  -- acknowledge the interrupt
  let board := writePhysical s.board plicInterruptLines
    (readPhysical s.board plicInterruptLines &&& ~~~plicPinDisk)
  let s := { s with board := board }
  if readPhysical board diskStat &&& diskStatusReady ≠ 0 then
    match s.driver.head with
    | none => s
    | some b => s.finishSector b
  else s

/-! ## §2 Runs -/

/-- What can happen next. -/
inductive Event where
  /-- `Disk_step`, with the number of bytes that `fread` or `fwrite` moves if it is due. -/
  | disk (result : Nat)
  /-- A store of any software to a physical address, the registers of the disk among them. -/
  | store (addr : Nat) (byte : Byte)
  | blockRead (b : BufferId)
  | blockWrite (b : BufferId)
  /-- `disk_interrupt` runs, whatever status it finds. -/
  | interrupt
  deriving DecidableEq

/-- One event. -/
def perform (s : System) : Event → System
  | .disk result => { s with board := diskStep result s.board }
  | .store addr byte => { s with board := writePhysical s.board addr byte }
  | .blockRead b => s.blockRead b
  | .blockWrite b => s.blockWrite b
  | .interrupt => s.interrupt

/-- The step relation of the events. -/
def Step (s : System) (e : Event) (t : System) : Prop := s.perform e = t

/-- `Disk_create` and `disk_init`: the status is `~DISK_STATUS_NONE`. -/
def powerOn (board : Board) (driver : Driver) : System where
  driver := driver.init
  board := { board with disk := { board.disk with status := ~~~0 } }

/-- `PLIC_raise(m->plic, PLIC_PIN_DISK)` is what the step has done to the interrupt lines. -/
def RaisesDisk (board board' : Board) : Prop := board'.plic = (plicRaise board plicPinDisk).plic

/-- No sector is counted, no frame is written and no buffer becomes valid. -/
structure Untouched (d d' : Driver) : Prop where
  sectorOffset : d'.sectorOffset = d.sectorOffset
  frame : ∀ b, (d'.buffer b).frame = (d.buffer b).frame
  valid : ∀ b, (d'.buffer b).valid = (d.buffer b).valid

/-- An event reports failures and does not take them for success. -/
def Reports (s : System) : Event → Prop
  | .disk result => s.board.disk.status = diskStatusBusy →
      (diskStep result s.board).disk.status ≠ diskStatusBusy →
      RaisesDisk s.board (diskStep result s.board)
  | .interrupt => s.board.disk.status ≠ diskStatusReady → Untouched s.driver s.interrupt.driver
  | _ => True

/-- The event is no short transfer, and no `disk_interrupt` that finds a request in the queue
    and `DISK_STATUS_ERROR` in the status register. -/
def Clean (s : System) : Event → Prop
  | .disk result => s.board.disk.status = diskStatusBusy → s.board.disk.delay = 1 →
      s.board.disk.cmd = diskCmdRead ∨ s.board.disk.cmd = diskCmdWrite → result = diskSectorSize
  | .interrupt => s.driver.head ≠ none → s.board.disk.status ≠ diskStatusError
  | _ => True

/-! ## §3 The status register -/

section Status

variable {s : System}

/-- A status that the disk has behind a command of the driver. -/
def Commanded (status : Byte) : Prop :=
  status = diskStatusBusy ∨ status = diskStatusReady ∨ status = diskStatusError

theorem writePhysical_diskCmd (board : Board) (cmd : Byte) :
    writePhysical board diskCmd cmd =
      if cmd = diskCmdRead ∨ cmd = diskCmdWrite then
        { board with disk := { board.disk with
            cmd := cmd, status := diskStatusBusy, delay := diskLatency } }
      else { board with disk := { board.disk with cmd := cmd } } := by
  rfl

/-- A store leaves the status alone or starts an operation. -/
theorem status_writePhysical (board : Board) (addr : Nat) (byte : Byte) :
    (writePhysical board addr byte).disk.status = board.disk.status ∨
      (writePhysical board addr byte).disk.status = diskStatusBusy := by
  by_cases hCmd : addr = diskCmd
  · subst hCmd
    rw [writePhysical_diskCmd]
    split
    · exact .inr rfl
    · exact .inl rfl
  · left
    unfold writePhysical
    rw [if_neg hCmd]
    simp only [apply_ite Board.disk, apply_ite Disk.status, ite_self]

theorem status_command (board : Board) (lba : Word) {cmd : Byte}
    (hCmd : cmd = diskCmdRead ∨ cmd = diskCmdWrite) :
    (command board lba cmd).disk.status = diskStatusBusy := by
  unfold command
  dsimp only
  rw [writePhysical_diskCmd, if_pos hCmd]

@[simp] theorem startOperation_driver : s.startOperation.driver = s.driver := by
  unfold startOperation
  split
  · rfl
  · dsimp only
    split <;> rfl

/-- An operation for a request makes the disk busy. -/
theorem startOperation_status (h : s.driver.head ≠ none) :
    s.startOperation.board.disk.status = diskStatusBusy := by
  obtain ⟨b, hHead⟩ := Option.ne_none_iff_exists'.mp h
  unfold startOperation
  rw [hHead]
  dsimp only
  split
  · exact status_command _ _ (.inr rfl)
  · exact status_command _ _ (.inl rfl)

/-- `Disk_step` leaves the status alone or ends an operation. -/
theorem status_diskStep (result : Nat) (board : Board) :
    (diskStep result board).disk.status = board.disk.status ∨
      Commanded (diskStep result board).disk.status := by
  unfold diskStep
  dsimp only
  repeat' split
  all_goals first
    | exact .inl rfl
    | exact .inr (.inr (.inl rfl))
    | exact .inr (.inr (.inr rfl))

/-- Where the status passes the test of the driver. -/
theorem interrupt_eq :
    s.interrupt = (fun t : System =>
      if s.board.disk.status &&& diskStatusReady ≠ 0 then
        match s.driver.head with
        | none => t
        | some b => t.finishSector b
      else t)
      { s with
        board := writePhysical s.board plicInterruptLines
          (readPhysical s.board plicInterruptLines &&& ~~~plicPinDisk) } := by
  rfl

/-! ## §4 One event -/

/-- A request in the queue has been given to the disk. -/
def Queued (s : System) : Prop := s.driver.head ≠ none → Commanded s.board.disk.status

theorem Queued.finishSector (b : BufferId) : Queued (s.finishSector b) := by
  unfold System.finishSector
  dsimp only
  split
  · split
    · next hEmpty => exact fun hHead => absurd hEmpty hHead
    · next hHead => exact fun _ => .inl (startOperation_status hHead)
  · exact fun hHead => .inl (startOperation_status (by simpa using hHead))

/-- The queue is not empty behind `disk_submit`, and its head changes only if it was. -/
theorem enqueue_head (d : Driver) (b : BufferId) :
    (d.enqueue b).head = some b ∨ d.head ≠ none := by
  cases hHead : d.head with
  | none =>
    left
    simp [Driver.enqueue, Driver.setBuffer, hHead]
  | some c => exact .inr (by simp)

theorem Queued.submit (h : Queued s) (b : BufferId) : Queued (s.submit b) := by
  unfold System.submit
  dsimp only
  by_cases hFirst : (s.driver.enqueue b).head = some b
  · rw [if_pos hFirst]
    intro _
    left
    apply startOperation_status
    dsimp only
    rw [hFirst]
    simp
  · -- someone else is at the head of the queue, as before
    rw [if_neg hFirst]
    intro _
    exact h ((enqueue_head s.driver b).resolve_left hFirst)

/-- **Step lemma**: a queued request has been given to the disk, behind every event. -/
theorem Queued.perform (h : Queued s) (e : Event) : Queued (s.perform e) := by
  cases e with
  -- the disk answers READY or ERROR, both of which count as an answer
  | disk result =>
    intro hHead
    rcases status_diskStep result s.board with hSame | hDone
    · show Commanded (diskStep result s.board).disk.status
      rw [hSame]
      exact h hHead
    · exact hDone
  | store addr byte =>
    intro hHead
    show Commanded (writePhysical s.board addr byte).disk.status
    rcases status_writePhysical s.board addr byte with hSame | hBusy
    · rw [hSame]
      exact h hHead
    · exact .inl hBusy
  | blockRead b =>
    apply Queued.submit
    exact h
  | blockWrite b =>
    apply Queued.submit
    exact h
  -- the next sector or the next request is submitted in the handler
  | interrupt =>
    show Queued s.interrupt
    rw [interrupt_eq]
    dsimp only
    split
    · split
      · exact h
      · exact Queued.finishSector _
    · exact h

/-- A transfer of `Disk_step` that is not short raises the interrupt line. -/
theorem reports_disk {result : Nat} (hClean : s.Clean (.disk result)) :
    s.Reports (.disk result) := by
  intro hBusy hDone
  by_cases hDelay : s.board.disk.delay - 1 = 0
  -- the condition: a transfer that is due is not short
  · have hResult := hClean hBusy (by omega)
    unfold diskStep at hDone ⊢
    simp only [hBusy, hDelay, if_true] at hDone ⊢
    by_cases hRead : s.board.disk.cmd = diskCmdRead
    · simp only [hRead, if_true, hResult (.inl hRead), ne_eq, not_true, if_false]
      rfl
    · by_cases hWrite : s.board.disk.cmd = diskCmdWrite
      · simp only [hWrite, hResult (.inr hWrite), ne_eq, not_true, if_false]
        rfl
      · simp only [hRead, hWrite, if_false]
        rfl
  · -- the transfer is not due yet
    exfalso
    apply hDone
    unfold diskStep
    simp only [hBusy, hDelay, if_true, if_false]

/-- A `disk_interrupt` that finds no error takes only a finished sector for one. -/
theorem reports_interrupt (h : Queued s) (hClean : s.Clean .interrupt) : s.Reports .interrupt := by
  intro hStatus
  rw [interrupt_eq]
  dsimp only
  cases hHead : s.driver.head with
  | none =>
    rw [ite_self]
    exact ⟨rfl, fun _ => rfl, fun _ => rfl⟩
  | some b =>
    have hQueued : s.driver.head ≠ none := by simp [hHead]
    -- behind a request the status is BUSY, READY or ERROR
    rcases h hQueued with hBusy | hReady | hError
    · rw [hBusy, if_neg (by decide)]
      exact ⟨rfl, fun _ => rfl, fun _ => rfl⟩
    · exact absurd hReady hStatus
    · exact absurd hError (hClean hQueued)

/-! ## §5 Whole runs -/

theorem powerOn_queued (board : Board) (driver : Driver) : Queued (powerOn board driver) :=
  fun hHead => absurd rfl hHead

/-- **In every run from power-on whose events are all clean, a transfer that ends raises the
    interrupt line, and only finished sectors are counted, copied or made valid.** With a request
    in the queue the status is BUSY, READY or ERROR, of which only ERROR is taken for what it is
    not. -/
theorem failures_reported {board : Board} {driver : Driver} {es : List Event} {s : System}
    {e : Event} (hRun : Run (Guarded Step Clean) (powerOn board driver) es s)
    (hClean : s.Clean e) : s.Reports e := by
  have hQueued : Queued s := by
    apply @Run.invariant _ _ _ _ _ _ Queued _ hRun (powerOn_queued board driver)
    rintro t e' _ hInv ⟨rfl, -⟩
    exact hInv.perform e'
  cases e with
  | disk result => exact reports_disk hClean
  | interrupt => exact reports_interrupt hQueued hClean
  | store addr byte => exact trivial
  | blockRead b => exact trivial
  | blockWrite b => exact trivial

/-! ## §6 The disk takes its time -/

/-- The transfer is `n` steps nearer to its end. -/
def delayed (s : System) (n : Nat) : System :=
  { s with board := { s.board with disk := { s.board.disk with delay := s.board.disk.delay - n } } }

/-- A step of the disk before the end of a transfer. -/
theorem diskStep_waits {result : Nat} (hBusy : s.board.disk.status = diskStatusBusy)
    (hDelay : s.board.disk.delay ≠ 1) : s.perform (.disk result) = s.delayed 1 := by
  show { s with board := diskStep result s.board } = _
  unfold diskStep
  rw [if_pos hBusy]
  dsimp only
  rw [if_neg (by omega)]
  rfl

theorem run_waits (hBusy : s.board.disk.status = diskStatusBusy) (n : Nat)
    (hDelay : (n : Int) < s.board.disk.delay) (result : Nat) :
    Run (Guarded Step Clean) s (List.replicate n (.disk result)) (s.delayed n) := by
  induction n with
  | zero =>
    have hSame : s.delayed 0 = s := by
      simp [delayed]
    rw [hSame]
    exact .nil s
  | succ n ih =>
    rw [List.replicate_succ']
    apply (ih (by omega)).append
    -- the operation is not due before its last step
    have hDue : (s.delayed n).board.disk.delay ≠ 1 := by
      show s.board.disk.delay - n ≠ 1
      omega
    have hStep : (s.delayed n).perform (.disk result) = s.delayed (n + 1) := by
      rw [diskStep_waits (s := s.delayed n) hBusy hDue]
      simp only [delayed]
      congr 3
      omega
    exact .cons ⟨hStep, fun _ hOne => absurd hOne hDue⟩ (.nil _)

/-- A machine that does nothing. -/
def idleBoard : Board where
  ram := fun _ => 0
  rom := ⟨0, fun _ => 0⟩
  uart := ⟨0, 0, 0⟩
  disk := ⟨fun _ => 0, fun _ => 0, 0, 0, 0, 0, 0⟩
  mmu := ⟨fun _ => 0, 0, 0, 0, 0, 0, false, false⟩
  timer := ⟨0, 0, 0, 0, 0⟩
  plic := ⟨0, false⟩

/-- A driver with empty buffers. -/
def idleDriver : Driver where
  buffer := fun _ => ⟨false, false, false, 0, 0, 0, none, fun _ => 0⟩
  head := none
  tail := none
  sectorOffset := 0

/-- The first read of a block has been given to the disk. -/
def firstRead : System := (powerOn idleBoard idleDriver).perform (.blockRead 0)

theorem firstRead_run (n : Nat) (hn : n < 200) :
    Run (Guarded Step Clean) (powerOn idleBoard idleDriver)
      (.blockRead 0 :: List.replicate n (.disk 512)) (firstRead.delayed n) :=
  .cons ⟨rfl, trivial⟩ (run_waits rfl n (by
    show (n : Int) < 200
    omega) 512)

/-- The first sector of a block, if it is read in full. -/
theorem first_sector_reported :
    Run (Guarded Step Clean) (powerOn idleBoard idleDriver)
        (.blockRead 0 :: List.replicate 199 (.disk 512)) (firstRead.delayed 199) ∧
      (firstRead.delayed 199).Reports (.disk 512) :=
  ⟨firstRead_run 199 (by decide),
    failures_reported (firstRead_run 199 (by decide)) fun _ _ _ => rfl⟩

/-- The first sector of a block, of which only 100 bytes can be read: no interrupt. And a
    transfer with an unknown command, whose error counts as a sector. -/
theorem failures_hidden :
    (Run (Guarded Step Clean) (powerOn idleBoard idleDriver)
        (.blockRead 0 :: List.replicate 199 (.disk 512)) (firstRead.delayed 199) ∧
      ¬ (firstRead.delayed 199).Reports (.disk 100)) ∧
    (Run (Guarded Step Clean) (powerOn idleBoard idleDriver)
        (.blockRead 0 :: List.replicate 199 (.disk 512) ++ [.store diskCmd 7, .disk 512])
        (((firstRead.delayed 199).perform (.store diskCmd 7)).perform (.disk 512)) ∧
      ¬ (((firstRead.delayed 199).perform (.store diskCmd 7)).perform (.disk 512)).Reports
        .interrupt) := by
  refine ⟨⟨firstRead_run 199 (by decide), ?_⟩, (firstRead_run 199 (by decide)).append ?_, ?_⟩
  -- the short read ends without an interrupt, so the process sleeps for ever
  · intro hReports
    have hRaised := hReports rfl (by decide)
    have hPin := congrArg Plic.pendingIrq hRaised
    cases hPin
  · refine .cons ⟨rfl, trivial⟩ (.cons ⟨rfl, ?_⟩ (.nil _))
    intro _ _ hCmd
    exact absurd hCmd (by decide)
  · intro hReports
    have hCounted := (hReports (by decide)).sectorOffset
    exact absurd hCounted (by decide)

end Status

end System

end Xv6502.Block.DiskStatus
