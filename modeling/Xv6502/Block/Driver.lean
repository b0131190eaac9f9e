import Xv6502.Emulator.MemoryMap
import Xv6502.Lib.Chain
import Mathlib.Data.Fin.Basic

/-!
# The Disk Driver

The disk of the machine, as `Disk_step` of `machine/machine.c` drives it, and the driver of
`kernel/disk.c`: `disk_start_operation`, `disk_submit` and `disk_interrupt`.

A buffer is an index of `buffer_cache.buffers`, and a pointer to one is an index or `none`. The
frame of a buffer is a part of the buffer here: `buffer_init` gives each buffer a frame of its
own, once and for all. A mapped window is the frame it is mapped to. The number of processes is
left open.
-/

namespace Xv6502.Block

open Xv6502.Emulator

/-! ## §1 Buffers -/

/-- `DISK_SECTOR_SIZE`. -/
def sectorSize : Nat := 512
/-- `BLOCK_SIZE`. -/
def blockSize : Nat := 4096
/-- `BLOCK_SIZE / DISK_SECTOR_SIZE`. -/
def sectorsPerBlock : Nat := 8

/-- A buffer of the cache. -/
abbrev BufferId := Fin 16

/-- `Block_Buffer`, less its place in the list of the cache. The flags are the bits of
    `flags`. -/
structure Buffer where
  busy : Bool
  valid : Bool
  dirty : Bool
  drive : Byte
  refcount : Byte
  blockNumber : Word
  queue : Option BufferId
  /-- The bytes of the frame, by offset. -/
  frame : Nat → Byte

/-- The commands of the disk. -/
inductive Command where
  | read
  | write
  deriving DecidableEq, Repr

/-- `Disk` of the machine. `busy` is `DISK_STATUS_BUSY`, else the status is
    `DISK_STATUS_READY`. -/
structure Device where
  busy : Bool
  command : Command
  lba : Word
  buffer : Nat → Byte
  /-- The bytes of the disk image. -/
  image : Nat → Byte

/-- What a process does in the block layer. `asleep` is its state `SLEEPING`, else it is
    `READY` or runs. -/
inductive Call where
  | none
  /-- In `buffer_get`, behind `sleep(b)`. -/
  | locking (drive : Byte) (block : Word) (b : BufferId) (asleep : Bool)
  /-- In `buffer_read`, behind `buffer_get`. -/
  | got (block : Word) (b : BufferId)
  /-- In `buffer_read`, behind the `sleep(b)` of `disk_submit`. -/
  | reading (block : Word) (b : BufferId) (asleep : Bool)
  /-- In `buffer_write`, behind the `sleep(b)` of `disk_submit`. -/
  | writing (b : BufferId) (asleep : Bool)
  deriving DecidableEq, Repr

/-- `wakeup(b)` for one process. -/
def Call.wake (b : BufferId) : Call → Call
  | .locking drive block c asleep => .locking drive block c (asleep && c != b)
  | .reading block c asleep => .reading block c (asleep && c != b)
  | .writing c asleep => .writing c (asleep && c != b)
  | call => call

/-- Who uses a buffer. This is what the callers of the cache know, and no field of the source:
    `held p changed` says that `buffer_read` has returned the buffer to `p`, and whether `p`
    has changed the frame since its last `buffer_write`. -/
inductive Use (P : Type) where
  | free
  | fetching (p : P)
  | held (p : P) (changed : Bool)
  deriving DecidableEq, Repr

/-- The state of the block layer, for processes `P`. -/
structure Storage (P : Type) where
  buffer : BufferId → Buffer
  /-- The buffers from `buffer_cache.head.next` on, along `next`. -/
  order : List BufferId
  /-- `disk.head`. -/
  head : Option BufferId
  /-- `disk.tail`. -/
  tail : Option BufferId
  sectorOffset : Nat
  device : Device
  /-- `PLIC_PIN_DISK` of the interrupt lines. -/
  pin : Bool
  call : P → Call
  use : BufferId → Use P

namespace Storage

variable {P : Type}

/-- Change a buffer. -/
def setBuffer (s : Storage P) (b : BufferId) (f : Buffer → Buffer) : Storage P :=
  { s with buffer := Function.update s.buffer b (f (s.buffer b)) }

/-- Change what a process does. -/
def setCall [DecidableEq P] (s : Storage P) (p : P) (call : Call) : Storage P :=
  { s with call := Function.update s.call p call }

/-- `wakeup(b)`. -/
def wakeup (s : Storage P) (b : BufferId) : Storage P :=
  { s with call := fun p => (s.call p).wake b }

/-! ## §2 The device -/

/-- `memcpy` of one sector: `n` bytes at `offset` are replaced. -/
def copyIn (bytes : Nat → Byte) (offset : Nat) (sector : Nat → Byte) : Nat → Byte :=
  fun i => if offset ≤ i ∧ i < offset + sectorSize then sector (i - offset) else bytes i

/-- The end of an operation in `Disk_step`, which raises the interrupt line. -/
def transfer (s : Storage P) : Storage P :=
  let offset := s.device.lba.toNat * sectorSize
  match s.device.command with
  | .read =>
    { s with
      device := { s.device with
        busy := false
        buffer := copyIn s.device.buffer 0 fun i => s.device.image (offset + i) }
      pin := true }
  | .write =>
    { s with
      device := { s.device with
        busy := false
        image := copyIn s.device.image offset s.device.buffer }
      pin := true }

/-! ## §3 The driver -/

/-- `disk_start_operation`. -/
def startOperation (s : Storage P) : Storage P :=
  match s.head with
  | none => s
  | some b =>
    let lba := (s.buffer b).blockNumber * 8 + BitVec.ofNat 16 s.sectorOffset
    -- the sector is copied to the device before the command starts it
    if (s.buffer b).dirty then
      { s with device := { s.device with
          busy := true
          command := .write
          lba := lba
          buffer := copyIn s.device.buffer 0 fun i =>
            (s.buffer b).frame (s.sectorOffset * sectorSize + i) } }
    else { s with device := { s.device with busy := true, command := .read, lba := lba } }

/-- `disk_submit` up to `sleep(b)`. -/
def submit (s : Storage P) (b : BufferId) : Storage P :=
  let s := s.setBuffer b fun e => { e with queue := none }
  let s :=
    match s.head, s.tail with
    | none, _ => { s with head := some b }
    | some _, some tail => s.setBuffer tail fun e => { e with queue := some b }
    -- there is no tail before the first request, when there is no head either
    | some _, none => s
  let s := { s with tail := some b }
  if s.head = some b then { s with sectorOffset := 0 }.startOperation else s

/-- If the disk has just finished a read, the sector is copied to the frame. -/
def copySector (s : Storage P) (b : BufferId) : Storage P :=
  if (s.buffer b).dirty then s
  else s.setBuffer b fun e =>
    { e with frame := copyIn e.frame (s.sectorOffset * sectorSize) s.device.buffer }

/-- The request is done: the buffer is popped from the queue, its process is woken up, and if
    someone else is in line, their transfer is started. -/
def finishBlock (s : Storage P) (b : BufferId) : Storage P :=
  let s := s.setBuffer b fun e => { e with valid := true, dirty := false }
  let s := { s with head := (s.buffer b).queue }.wakeup b
  if s.head = none then s else { s with sectorOffset := 0 }.startOperation

/-- `disk_interrupt` with a finished operation, for the buffer at the head of the queue. -/
def finishSector (s : Storage P) (b : BufferId) : Storage P :=
  let s := s.copySector b
  let s := { s with sectorOffset := s.sectorOffset + 1 }
  if sectorsPerBlock ≤ s.sectorOffset then s.finishBlock b else s.startOperation

/-- `disk_interrupt`. -/
def interrupt (s : Storage P) : Storage P :=
  let s := { s with pin := false }
  if s.device.busy then s
  else
    match s.head with
    | none => s
    | some b => s.finishSector b

end Storage

end Xv6502.Block
