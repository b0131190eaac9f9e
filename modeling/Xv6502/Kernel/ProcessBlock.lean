import Xv6502.Kernel.ForkSteps
import Xv6502.Emulator.Core

/-!
# The PCB in the Frame of the Kernel Stack

The system calls of `Frames` with what they store to the other fields of the `PCB`, byte by byte:
`proc_set_8` and `proc_set_16`, the copy of the parent's PCB that `sys_fork` makes and the fields it
patches there, the pids of `pid_alloc`, the `killed` field that `sys_kill` sets, the parent that
`sys_exit` gives to its children, and the ticks that `scheduler` sets. What a process stores to its
own kernel stack and its own PCB on the way is an event for each byte.

Every step is one of `Frames`, or none, with stores that keep off the page tables; so the ownership
of the frames carries over (`Owned.performs`).
-/

namespace Xv6502.Kernel

open Xv6502.Emulator

/-! ## §1 Fields

The offsets of the fields of `PCB`. -/

namespace Pcb

def ctx : Nat := 16
/-- `ctx.a`. -/
def ctxA : Nat := 20
/-- `ctx.x`. -/
def ctxX : Nat := 21
def top : Nat := 24
def pid : Nat := 26
def uid : Nat := 28
def exitCode : Nat := 30
def ticks : Nat := 32
def parent : Nat := 33
def killed : Nat := 35
def channel : Nat := 37
/-- `sizeof(PCB)`. -/
def size : Nat := 89

/-- The fields that a process sets in its own PCB, in a system call or a trap: `ctx`, `exit_code`,
    `ticks` and `channel`. -/
def Own (field : Nat) : Prop :=
  ctx ≤ field ∧ field < top ∨ field = exitCode ∨ field = ticks ∨
    channel ≤ field ∧ field < channel + 2

instance (field : Nat) : Decidable (Own field) := inferInstanceAs (Decidable (_ ∨ _))

end Pcb

/-- `proc_get_16`. -/
def Pool.pcbWord (pool : Pool) (kernelFrame : Frame) (field : Nat) : Word :=
  wordOf (pool.entry kernelFrame field) (pool.entry kernelFrame (field + 1))

namespace KernelState

/-- `proc_get_pid`. -/
def pidOf (k : KernelState) (p : Slot) : Word := k.pool.pcbWord (k.procs p).kernelFrame Pcb.pid

/-- `proc_get_uid`. -/
def uidOf (k : KernelState) (p : Slot) : Byte := k.pool.entry (k.procs p).kernelFrame Pcb.uid

/-- `proc_set_8`. -/
def storePcb (k : KernelState) (p : Slot) (field : Nat) (byte : Byte) : KernelState :=
  { k with pool := k.pool.store (k.procs p).kernelFrame (pcbOffset + field) byte }

/-- `proc_set_16`. -/
def storeWord (k : KernelState) (p : Slot) (field : Nat) (value : Word) : KernelState :=
  (k.storePcb p field (lowByte value)).storePcb p (field + 1) (highByte value)

/-! ## §2 `sys_kill` and `sys_exit` -/

/-- The process that `sys_kill` finds. -/
def killTarget (k : KernelState) (pid : Word) : Option Slot :=
  (List.finRange 512).find? fun p =>
    (k.procs p).state ≠ .unused ∧ (k.procs p).state ≠ .zombie ∧ k.pidOf p = pid ∧
      k.uidOf p = k.uidOf k.current

/-- `sys_kill`. -/
def sysKill (k : KernelState) (pid : Word) : KernelState :=
  -- cannot kill "init" and pid 0 is invalid
  if pid.toNat ≤ 1 then k
  else
    match k.killTarget pid with
    | none => k
    | some p =>
      let k := k.storeWord p Pcb.killed (k.pidOf k.current)
      -- if the victim is asleep, wake it up
      if (k.procs p).state = .sleeping then k.setProc p fun e => { e with state := .ready } else k

/-- The children of the running process. -/
def children (k : KernelState) : List Slot :=
  (List.finRange 512).filter fun p =>
    (k.procs p).state ≠ .unused ∧ (k.procs p).parent = k.current

/-- The loop of `sys_exit` over the children. -/
def reparent (k : KernelState) (initProcess : Word) : List Slot → KernelState
  | [] => k
  | p :: ps => reparent (k.storeWord p Pcb.parent initProcess) initProcess ps

end KernelState

/-! ## §3 `sys_fork` -/

/-- In user mode, or in a system call that has not come to a point where the kernel may switch. -/
def Task.isUser : Task → Bool
  | .user => true
  | _ => false

/-- The kernel with the static variables of `proc.c` that matter here. -/
structure ProcKernel where
  kernel : KernelState
  /-- `next_pid`. -/
  nextPid : Word
  /-- The local variable `child_pid` of the `sys_fork` of a process. -/
  childPid : Slot → Word

namespace ProcKernel

/-- What `sys_fork` patches in the copy of the PCB of its process. -/
def patchChild (k : KernelState) (child : Slot) (pid parent : Word) : KernelState :=
  let k := k.storeWord child Pcb.pid pid
  let k := k.storeWord child Pcb.parent parent
  let k := k.storePcb child Pcb.ctxA 0
  k.storePcb child Pcb.ctxX 0

/-- `sys_fork` up to its first `yield()`; `none` where `pid_alloc` panics. `address` is where a
    process lies in `proc_table`. -/
def forkStart (address : Slot → Word) (s : ProcKernel) : Option ProcKernel :=
  match s.kernel.firstUnused with
  | none => some s
  | some child =>
    if s.kernel.pool.kalloc.1 = frameUnused then
      some { s with kernel := s.kernel.forkInto child }
    -- `pid_alloc` panics
    else if s.nextPid = 0 then none
    else
      some
        { kernel := patchChild (s.kernel.forkInto child) child s.nextPid (address s.kernel.current)
          nextPid := s.nextPid + 1
          childPid := Function.update s.childPid s.kernel.current s.nextPid }

/-! ## §4 Events -/

end ProcKernel

/-- What can happen next. -/
inductive ProcEvent where
  /-- `scheduler()` switches to a process. -/
  | dispatch (p : Slot)
  /-- A process is woken up. -/
  | wakeup (p : Slot)
  /-- `current_process`, or `scheduler()` on its stack, stores to its kernel stack. -/
  | stackStore (offset : Nat) (byte : Byte)
  /-- It stores to its own PCB, outside `sys_fork`. -/
  | ownStore (field : Nat) (byte : Byte)
  | fork
  | kill (pid : Word)
  /-- Another action; a process in `sys_fork` goes on with `proceed`. -/
  | act (action : KernelState.Action)

namespace ProcKernel

/-- What an action stores to the PCBs besides: `sys_sbrk` the top, `sys_exit` the exit code and the
    parent of the children. -/
def afterAct (address : Slot → Word) (before after : KernelState) :
    KernelState.Action → KernelState
  | .sbrk _ =>
    -- a break that fails leaves the top alone
    if after.self.top = before.self.top then after
    else after.storeWord after.current Pcb.top after.self.top
  | .exit =>
    -- the exit code is the A register of the call
    (after.storePcb after.current Pcb.exitCode
      (before.pool.entry before.self.kernelFrame Pcb.ctxA)).reparent (address KernelState.initSlot)
        before.children
  | _ => after

/-- One event; `none` if it cannot happen. -/
def perform (address : Slot → Word) (s : ProcKernel) : ProcEvent → Option ProcKernel
  | .dispatch p => (s.kernel.perform (.dispatch p)).map fun k =>
      { s with kernel := k.storePcb p Pcb.ticks quantum }
  | .wakeup p => (s.kernel.perform (.wakeup p)).map fun k => { s with kernel := k }
  -- the C stack and the zero page of the kernel, outside the PCB
  | .stackStore offset byte =>
    if s.kernel.self.state ≠ .unused ∧ (offset < pcbOffset ∨ pcbOffset + Pcb.size ≤ offset) then
      some { s with kernel :=
        { s.kernel with pool := s.kernel.pool.store s.kernel.self.kernelFrame offset byte } }
    else none
  -- what a process stores of itself, but not while it copies its PCB in `sys_fork`
  | .ownStore field byte =>
    if s.kernel.running = true ∧ s.kernel.self.task.forking = none ∧ Pcb.Own field then
      some { s with kernel := s.kernel.storePcb s.kernel.current field byte }
    else none
  | .fork =>
    if s.kernel.running = true ∧ s.kernel.self.task.isUser then s.forkStart address else none
  | .kill pid =>
    if s.kernel.running = true ∧ s.kernel.self.task.isUser then
      some { s with kernel := s.kernel.sysKill pid }
    else none
  | .act .fork => none
  | .act (.kill _) => none
  | .act action => (s.kernel.perform (.act action)).map fun k =>
      { s with kernel := afterAct address s.kernel k action }

/-- The event does not enter a rollback that goes wrong. -/
def Clean (s : ProcKernel) : ProcEvent → Prop
  | .act action => s.kernel.Clean (.act action)
  | _ => True

end ProcKernel

end Xv6502.Kernel
