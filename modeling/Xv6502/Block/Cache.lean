import Xv6502.Block.Driver
import Xv6502.Lib.Transition

/-!
# The Buffer Cache

`buffer_get`, `buffer_read`, `buffer_write` and `buffer_release` of `kernel/buffer.c` over the
disk driver, as a transition system. A process runs from one `sleep()` to the next, or between
two points where it has interrupts on, and the disk and its interrupts come in between; so a
step is what the kernel does with interrupts off.
-/

namespace Xv6502.Block.Storage

open Xv6502.Emulator
open Xv6502.Block

variable {P : Type} [DecidableEq P]

/-! ## §1 `buffer_get` -/

/-- The buffer is the one of a block on a drive. -/
def isFor (s : Storage P) (drive : Byte) (block : Word) (b : BufferId) : Bool :=
  (s.buffer b).blockNumber == block && (s.buffer b).drive == drive

/-- The buffer found for a block, along `next`. -/
def lookup (s : Storage P) (drive : Byte) (block : Word) : Option BufferId :=
  s.order.find? (s.isFor drive block)

/-- The buffer can be recycled. -/
def unused (s : Storage P) (b : BufferId) : Bool :=
  (s.buffer b).refcount == 0 && !(s.buffer b).busy

/-- The buffer that is recycled, along `prev`. -/
def victim (s : Storage P) : Option BufferId := s.order.reverse.find? s.unused

/-- A buffer of the block is locked by the process. -/
def lock (s : Storage P) (p : P) (block : Word) (b : BufferId) : Storage P :=
  let s := s.setBuffer b fun e => { e with busy := true, refcount := e.refcount + 1 }
  { s.setCall p (.got block b) with use := Function.update s.use b (.fetching p) }

/-- A buffer is recycled for the block and locked by the process. -/
def recycle (s : Storage P) (p : P) (drive : Byte) (block : Word) (b : BufferId) : Storage P :=
  let s := s.setBuffer b fun e =>
    { e with
      drive := drive, blockNumber := block, refcount := 1
      busy := true, valid := false, dirty := false }
  { s.setCall p (.got block b) with use := Function.update s.use b (.fetching p) }

/-- `buffer_get`, up to its return or to `sleep(b)`; `none` is `panic("full cache")`. -/
def bufferGet (s : Storage P) (p : P) (drive : Byte) (block : Word) : Option (Storage P) :=
  match s.lookup drive block with
  | some b =>
    if (s.buffer b).busy then some (s.setCall p (.locking drive block b true))
    else some (s.lock p block b)
  | none => s.victim.map (s.recycle p drive block)

/-! ## §2 `buffer_read`, `buffer_write` and `buffer_release` -/

/-- `buffer_read` returns the buffer. -/
def returnBuffer (s : Storage P) (p : P) (b : BufferId) : Storage P :=
  { s.setCall p .none with use := Function.update s.use b (.held p false) }

/-- `buffer_read` behind `buffer_get`: a buffer that is not valid is read from the disk. -/
def readFrame (s : Storage P) (p : P) (block : Word) (b : BufferId) : Storage P :=
  if (s.buffer b).valid then s.returnBuffer p b
  else
    ((s.setBuffer b fun e => { e with dirty := false }).submit b).setCall p (.reading block b true)

/-- `buffer_read` behind `disk_block_read`. -/
def readDone (s : Storage P) (p : P) (b : BufferId) : Storage P :=
  (s.setBuffer b fun e => { e with valid := true }).returnBuffer p b

/-- `buffer_write` up to the `sleep(b)` of `disk_submit`. -/
def bufferWrite (s : Storage P) (p : P) (b : BufferId) : Storage P :=
  let s := ((s.setBuffer b fun e => { e with dirty := true }).submit b).setCall p (.writing b true)
  { s with use := Function.update s.use b (.held p false) }

/-- `buffer_release`. A buffer without references goes to the front of the list. -/
def bufferRelease (s : Storage P) (b : BufferId) : Storage P :=
  let s := (s.wakeup b).setBuffer b fun e => { e with busy := false, refcount := e.refcount - 1 }
  let s := if (s.buffer b).refcount = 0 then { s with order := b :: s.order.erase b } else s
  { s with use := Function.update s.use b .free }

/-! ## §3 Events -/

/-- What can happen next. -/
inductive Event (P : Type) where
  /-- A process calls `buffer_read`. -/
  | read (p : P) (drive : Byte) (block : Word)
  /-- A process that has been woken up in `buffer_get` starts its search again. -/
  | retry (p : P)
  /-- `buffer_read` goes on behind `buffer_get`; the label tells the buffer it submits, if any. -/
  | readFrame (p : P) (submitted : Option BufferId)
  /-- `disk_submit` returns to `buffer_read`. -/
  | readDone (p : P)
  /-- The holder of a buffer changes its frame. -/
  | modify (p : P) (b : BufferId) (frame : Nat → Byte)
  /-- The holder calls `buffer_write`; the block and the bytes are those of the buffer. -/
  | write (p : P) (b : BufferId) (block : Word) (frame : Nat → Byte)
  /-- `disk_submit` returns to `buffer_write`. -/
  | writeDone (p : P)
  /-- The holder calls `buffer_release`. -/
  | release (p : P) (b : BufferId)
  /-- The disk finishes an operation. -/
  | transfer
  /-- The kernel takes the interrupt of the disk; the label tells the buffer and the sector that
      `disk_interrupt` finds finished. -/
  | interrupt (served : Option (BufferId × Nat))
  /-- `sys_kill` of a process. -/
  | kill (p : P)

/-- The process is the holder of the buffer and not in a call. -/
def atHand (s : Storage P) (p : P) (b : BufferId) : Bool :=
  s.call p == .none && (s.use b == .held p false || s.use b == .held p true)

/-- The buffer and the sector that `disk_interrupt` finds finished. -/
def served (s : Storage P) : Option (BufferId × Nat) :=
  if s.device.busy then none else s.head.map fun b => (b, s.sectorOffset)

/-- The buffer that `buffer_read` has to read from the disk. -/
def toSubmit (s : Storage P) (p : P) : Option BufferId :=
  match s.call p with
  | .got _ b => if (s.buffer b).valid then none else some b
  | _ => none

/-- The sleeping process is made ready. -/
def Call.awake : Call → Call
  | .locking drive block b _ => .locking drive block b false
  | .reading block b _ => .reading block b false
  | .writing b _ => .writing b false
  | call => call

/-- One event; `none` if it cannot happen or the kernel panics. The data of the labels is not
    looked at. -/
def perform (s : Storage P) : Event P → Option (Storage P)
  | .read p drive block => if s.call p = .none then s.bufferGet p drive block else none
  | .retry p =>
    match s.call p with
    | .locking drive block _ false => s.bufferGet p drive block
    | _ => none
  | .readFrame p _ =>
    match s.call p with
    | .got block b => some (s.readFrame p block b)
    | _ => none
  | .readDone p =>
    match s.call p with
    | .reading _ b false => some (s.readDone p b)
    | _ => none
  -- a store to the frame by the process that has the buffer at hand
  | .modify p b frame =>
    if s.atHand p b then
      some { s.setBuffer b fun e => { e with frame := frame } with
        use := Function.update s.use b (.held p true) }
    else none
  | .write p b _ _ =>
    if s.atHand p b ∧ (s.buffer b).busy then some (s.bufferWrite p b) else none
  | .writeDone p =>
    match s.call p with
    | .writing _ false => some (s.setCall p .none)
    | _ => none
  | .release p b =>
    if s.atHand p b ∧ (s.buffer b).busy then some (s.bufferRelease b) else none
  | .transfer => if s.device.busy then some s.transfer else none
  | .interrupt _ => if s.pin then some s.interrupt else none
  -- `sys_kill` makes a sleeper ready; nobody takes its buffer out of the queue
  | .kill p => some { s with call := Function.update s.call p (Call.awake (s.call p)) }

/-- The label tells what the state has. -/
def Labels (s : Storage P) : Event P → Prop
  | .readFrame p submitted => submitted = s.toSubmit p
  | .write _ b block frame => block = (s.buffer b).blockNumber ∧ frame = (s.buffer b).frame
  | .interrupt served => served = s.served
  | _ => True

/-- The step relation of the events. -/
def Step (s : Storage P) (e : Event P) (t : Storage P) : Prop :=
  s.Labels e ∧ s.perform e = some t

/-- `buffer_init` and `disk_init` on a machine with a disk image and the frames the buffers
    get. The loader has used the disk, so that its interrupt line may be raised. The buffers lie
    in the BSS, and each is put in front of those before it. -/
def boot (image : Nat → Byte) (frames : BufferId → Nat → Byte) (pin : Bool) : Storage P where
  buffer := fun b => ⟨false, false, false, 0, 0, 0, none, frames b⟩
  order := (List.finRange 16).reverse
  head := none
  tail := none
  sectorOffset := 0
  device := ⟨false, .read, 0, fun _ => 0, image⟩
  pin := pin
  call := fun _ => .none
  use := fun _ => .free

end Xv6502.Block.Storage
