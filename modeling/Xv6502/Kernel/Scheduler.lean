import Xv6502.Emulator.MemoryMap
import Xv6502.Lib.Transition
import Mathlib.Logic.Function.Basic
import Mathlib.Data.Fin.Basic

/-!
# Processes and the Scheduler

The process table of `kernel/proc.c` with the transitions that move the CPU between
processes: `scheduler`, `yield`, `sleep`, `wakeup`, the traps of `kernel/trap.c` with
`kernel_prologue` and `kernel_epilogue`, and the parts of the system calls that change
process states. The fields of the PCB are a record of each process, and what a suspended
process does next is recorded as the point it is suspended at. The system calls are left
open here: any sequence of their effects on the table counts, and what the calls really do
is a special case of it (`Clocked.run_scheduled`).
-/

namespace Xv6502.Kernel

open Xv6502.Emulator

/-! ## §1 The process table -/

/-- `MAX_PROC_COUNT`. -/
def maxProcCount : Nat := 512
/-- `QUANTUM`: timer ticks until context switch. -/
def quantum : Byte := 10

/-- An index of `proc_table`. -/
abbrev Slot := Fin 512

instance neZeroSlots : NeZero 512 := ⟨by decide⟩

/-- `Proc_State`. -/
inductive ProcState where
  | unused
  | building
  | new
  | ready
  | running
  | sleeping
  | zombie
  deriving DecidableEq, Repr

/-- Where a process that is not running continues when it is dispatched. -/
inductive Resume where
  /-- A new process: `kernel_epilogue`, then user mode. -/
  | fresh
  /-- Behind `yield()` in `kernel_irq`, with the local `ticks`. -/
  | irqYield (ticks : Byte)
  /-- In `fs_init`, called by the prologue of `kernel_irq` on the first trap. -/
  | irqMount
  /-- In a `sleep()` or `yield()` of a system call. -/
  | syscall
  deriving DecidableEq, Repr

/-- A process: the fields of `Proc` and `PCB` the scheduler and the traps use. -/
structure Process where
  state : ProcState
  pid : Word
  ticks : Byte
  killed : Word
  resume : Resume
  deriving DecidableEq

/-- Where the CPU is. -/
inductive Mode where
  /-- In `scheduler()`. -/
  | scheduling
  /-- `scheduler()` has switched to the process, which continues at the point. -/
  | resuming (point : Resume)
  | user
  /-- In `kernel_irq`, behind a prologue that has slept. -/
  | irqMount
  /-- In a system call. -/
  | syscall
  deriving DecidableEq, Repr

/-- The scheduler's part of the kernel's state. -/
structure Sched where
  procs : Slot → Process
  current : Slot
  roundRobinIndex : Slot
  mode : Mode
  /-- `kernel_prologue` has mounted the file system. -/
  mounted : Bool

/-- The state can be dispatched. -/
def ProcState.runnable (st : ProcState) : Bool := st == .ready || st == .new

/-- `proc_get_killed(p) != 0 && proc_get_pid(p) != 1`, as the prologue and the epilogue of a
    trap test it. -/
def Process.doomed (p : Process) : Bool := p.killed != 0 && p.pid != 1

namespace Sched

/-- The running process. -/
def self (s : Sched) : Process := s.procs s.current

/-- Change a process. -/
def setProc (s : Sched) (i : Slot) (f : Process → Process) : Sched :=
  { s with procs := Function.update s.procs i (f (s.procs i)) }

/-- Change the running process. -/
def setSelf (s : Sched) (f : Process → Process) : Sched := s.setProc s.current f

/-! ## §2 Leaving the CPU -/

/-- The running process enters `scheduler()` in a state, to be continued at a point. -/
def suspend (s : Sched) (state : ProcState) (point : Resume) : Sched :=
  { s.setSelf fun p => { p with state := state, resume := point } with mode := .scheduling }

/-- `sys_exit`, as far as the scheduler sees it. -/
def exit (s : Sched) : Sched := s.suspend .zombie .syscall

/-- `kernel_epilogue` and the return to user mode. -/
def epilogue (s : Sched) : Sched :=
  if s.self.doomed then s.exit else { s with mode := .user }

/-- `for(i = 0; i < MAX_PROC_COUNT; i++)` of `scheduler`: the first process that can be
    dispatched, from the round robin index on. -/
def scan (s : Sched) : Nat → Slot → Option Slot
  | 0, _ => none
  | n + 1, i => if (s.procs i).state.runnable then some i else scan s n (i + 1)

/-- Where a process continues: a `NEW` one has nowhere to return to in the kernel. -/
def resumePoint (p : Process) : Resume := if p.state = .new then .fresh else p.resume

/-- The switch to process `p`. -/
def dispatch (s : Sched) (p : Slot) : Sched :=
  { s.setProc p fun q => { q with state := .running, ticks := quantum } with
    current := p
    roundRobinIndex := p + 1
    mode := .resuming (resumePoint (s.procs p)) }

/-- The rest of `kernel_irq` behind its prologue, if `timer` is the timer's bit of
    `which_device`. `yield()` returns to `proc_set_ticks` with the local `ticks`. -/
def irqTail (s : Sched) (timer : Bool) : Sched :=
  if timer then
    let ticks := s.self.ticks - 1
    if ticks = 0 then s.suspend .ready (.irqYield ticks)
    else (s.setSelf fun p => { p with ticks := ticks }).epilogue
  else s.epilogue

/-- `kernel_irq` calls `yield()`. -/
def irqYields (s : Sched) (timer : Bool) : Bool := timer && s.self.ticks - 1 == 0

/-! ## §3 Events -/

/-- What can happen next. -/
inductive Event where
  /-- `scheduler()` dispatches a process. -/
  | dispatch (p : Slot) (point : Resume)
  /-- The process that has been dispatched continues. -/
  | resume
  /-- A device interrupt taken from user mode; `yielded` tells whether `kernel_irq` calls
      `yield()`. -/
  | irq (timer yielded : Bool)
  /-- `kernel_irq` goes on behind a prologue that has slept. -/
  | irqMounted (timer yielded : Bool)
  /-- A `BRK` from user mode. -/
  | syscall
  /-- An NMI from user mode: `kernel_nmi` ends the process. -/
  | nmi
  /-- A system call returns to user mode. -/
  | sysReturn
  /-- `sleep()`. -/
  | sleep
  /-- `yield()` in a system call. -/
  | yield
  | exit
  /-- `proc_alloc` with the copy of the PCB in `sys_fork`. -/
  | create (child : Slot) (pid : Word)
  /-- The end of `sys_fork`. -/
  | publish (child : Slot)
  /-- `proc_free`. -/
  | free (p : Slot)
  /-- `sys_kill` finds its victim. -/
  | kill (p : Slot)
  /-- An interrupt handler or a system call wakes a process up. -/
  | wakeup (p : Slot)
  deriving DecidableEq

/-- A trap from user mode through `kernel_prologue`: a killed process exits, and the first
    trap of all mounts the file system, which sleeps for the disk. -/
def prologue (s : Sched) (mounting : Resume) (body : Sched → Sched) : Sched :=
  if s.self.doomed then s.exit
  else if !s.mounted then { s.suspend .sleeping mounting with mounted := true }
  else body s

/-- The interrupt reaches the test of the timer's bit at once. -/
def reachesTail (s : Sched) : Bool := !s.self.doomed && s.mounted

/-- One event; `none` if it cannot happen. -/
def perform (s : Sched) : Event → Option Sched
  | .dispatch p point =>
    if s.mode = .scheduling ∧ s.scan maxProcCount s.roundRobinIndex = some p ∧
        point = resumePoint (s.procs p) then some (s.dispatch p)
    else none
  | .resume =>
    match s.mode with
    | .resuming .fresh => some s.epilogue
    -- behind its `yield()` the process writes the ticks of before back
    | .resuming (.irqYield ticks) => some (s.setSelf fun p => { p with ticks := ticks }).epilogue
    | .resuming .irqMount => some { s with mode := .irqMount }
    | .resuming .syscall => some { s with mode := .syscall }
    | _ => none
  | .irq timer yielded =>
    if s.mode = .user ∧ yielded = (s.reachesTail && s.irqYields timer) then
      some (s.prologue .irqMount (irqTail · timer))
    else none
  | .irqMounted timer yielded =>
    if s.mode = .irqMount ∧ yielded = s.irqYields timer then some (s.irqTail timer) else none
  | .syscall =>
    if s.mode = .user then some (s.prologue .syscall fun s => { s with mode := .syscall })
    else none
  -- a violation ends the process behind the prologue
  | .nmi => if s.mode = .user then some (s.prologue .syscall Sched.exit) else none
  | .sysReturn => if s.mode = .syscall then some s.epilogue else none
  | .sleep =>
    match s.mode with
    | .syscall => some (s.suspend .sleeping .syscall)
    | .irqMount => some (s.suspend .sleeping .irqMount)
    | _ => none
  | .yield => if s.mode = .syscall then some (s.suspend .ready .syscall) else none
  | .exit => if s.mode = .syscall then some s.exit else none
  | .create child pid =>
    if s.mode = .syscall ∧ (s.procs child).state = .unused then
      some (s.setProc child fun _ => { s.self with state := .building, pid := pid })
    else none
  | .publish child =>
    if s.mode = .syscall ∧ (s.procs child).state = .building then
      some (s.setProc child fun p => { p with state := .new })
    else none
  | .free p =>
    if s.mode = .syscall ∧ ((s.procs p).state = .zombie ∨ (s.procs p).state = .building) then
      some (s.setProc p fun q => { q with state := .unused })
    else none
  -- `sys_kill` of a process with a pid above 1
  | .kill p =>
    if s.mode = .syscall ∧ (s.procs p).state ≠ .unused ∧ (s.procs p).state ≠ .zombie ∧
        1 < (s.procs p).pid then
      some (s.setProc p fun q =>
        { q with
          killed := s.self.pid
          state := if q.state = .sleeping then .ready else q.state })
    else none
  | .wakeup p =>
    if (s.procs p).state = .sleeping then some (s.setProc p fun q => { q with state := .ready })
    else none

/-- The step relation of the events. -/
def Step (s : Sched) (e : Event) (t : Sched) : Prop := s.perform e = some t

/-- The first call of `scheduler()`: only the process "init" exists. -/
def boot : Sched where
  procs := fun i => ⟨if i = 0 then .new else .unused, if i = 0 then 1 else 0, 0, 0, .fresh⟩
  current := 0
  roundRobinIndex := 0
  mode := .scheduling
  mounted := false

end Sched

end Xv6502.Kernel
