import Xv6502.Kernel.ProcessLife
import Xv6502.Kernel.TimeSlice

/-!
# The Process Table with its Clock

The process table of the system calls gets what `kernel_irq` keeps of the timer, the counter
`ticks` of every PCB. What the scheduler of the time slices sees of such a table is stated as
a relation between the two: it has the same processes with the same counters, and the CPU is
where the running process stands.
-/

namespace Xv6502.Kernel

open Xv6502.Emulator Xv6502.Lib

/-! ## §1 The table with its clock -/

/-- The process table with the counters of `kernel_irq`. -/
structure Clocked where
  table : Table
  /-- `ticks` of the PCBs. -/
  ticks : Slot → Byte
  /-- `fs_init` has slept for the disk, as `disk_submit` always does. -/
  slept : Bool

namespace Clocked

/-- What can happen next. -/
inductive Event where
  /-- `kernel_irq` behind its prologue; `timer` is the timer's bit of `which_device`, and
      `yielded` tells whether it calls `yield()`. -/
  | irq (timer yielded : Bool)
  /-- Any other step of the table. -/
  | step (e : Table.Event)

/-- A step of the table that leaves the counters as they are, or changes them. -/
def lift (c : Clocked) (e : Table.Event) (ticks : Slot → Byte) : Option Clocked :=
  (c.table.perform e).map fun t => { c with table := t, ticks := ticks }

/-- The running process is behind the prologue of `kernel_irq`. -/
def inIrq (c : Clocked) : Bool := c.table.running && c.table.self.point == .trapped .irq

/-- The running process is in `fs_init`. -/
def inMount (c : Clocked) : Bool :=
  match c.table.self.point with
  | .mounting _ => true
  | _ => false

/-- `proc_set_ticks(current_process, ticks)`. -/
def setTicks (c : Clocked) (ticks : Byte) : Slot → Byte :=
  Function.update c.ticks c.table.current ticks

/-- The rest of `kernel_irq`, up to its `yield()` or to user mode. -/
def irqTail (c : Clocked) (timer : Bool) : Option Clocked :=
  if timer then
    let ticks := c.ticks c.table.current - 1
    if ticks = 0 then c.lift .preempt c.ticks else c.lift .proceed (c.setTicks ticks)
  else c.lift .proceed c.ticks

/-- The PCB of a child is a copy of its parent's. -/
def forkTicks (c : Clocked) (frame : Bool) : Slot → Byte :=
  match Table.find fun i => (c.table.procs i).state == .unused with
  | some child =>
    if frame then Function.update c.ticks child (c.ticks c.table.current) else c.ticks
  | none => c.ticks

/-- `kernel_irq` calls `yield()`. -/
def irqYields (c : Clocked) (timer : Bool) : Bool := timer && c.ticks c.table.current - 1 == 0

/-- One event; `none` if it cannot happen, or if the kernel panics. -/
def perform (c : Clocked) : Event → Option Clocked
  | .irq timer yielded =>
    if c.inIrq ∧ yielded = c.irqYields timer then c.irqTail timer else none
  | .step e =>
    match e with
    | .preempt => none
    | .proceed =>
      if c.inIrq then none
      -- behind `yield()` the local `ticks` of `kernel_irq` is written back
      else if c.table.self.point = .irqYield then c.lift .proceed (c.setTicks 0)
      else c.lift .proceed c.ticks
    | .dispatch p => c.lift (.dispatch p) (Function.update c.ticks p quantum)
    | .fork frame => c.lift (.fork frame) (c.forkTicks frame)
    | .mounted => if c.slept then c.lift .mounted c.ticks else none
    | .block device =>
      (c.lift (.block device) c.ticks).map fun d => { d with slept := c.slept || c.inMount }
    | e => c.lift e c.ticks

/-- The step relation of the events. -/
def Step (c : Clocked) (e : Event) (d : Clocked) : Prop := c.perform e = some d

/-- The first call of `scheduler()`. -/
def boot (code : Page) (top : Word) : Clocked where
  table := .boot code top
  ticks := fun _ => 0
  slept := false

/-! ## §2 What the scheduler sees -/

/-- What a run shows of the use of the CPU. -/
inductive Mark where
  | dispatch (p : Slot)
  /-- `kernel_irq` finds the timer's bit set. -/
  | tick
  /-- `kernel_irq` calls `yield()`. -/
  | yield
  deriving DecidableEq, Repr

/-- The marks of an interrupt. -/
def irqMarks (timer yielded : Bool) : List Mark :=
  (if timer then [.tick] else []) ++ if yielded then [.yield] else []

/-- The marks of an event of the clocked table. -/
def Event.marks : Event → List Mark
  | .irq timer yielded => irqMarks timer yielded
  | .step (.dispatch p) => [.dispatch p]
  | .step _ => []

/-- The marks of an event of the scheduler. -/
def schedMarks : Sched.Event → List Mark
  | .irq timer yielded | .irqMounted timer yielded => irqMarks timer yielded
  | .dispatch p _ => [.dispatch p]
  | _ => []

/-- Where a process that is suspended at a place continues. -/
def resumeAt : Place → Resume
  | .fresh => .fresh
  -- the local `ticks` of `kernel_irq` has been counted down to 0
  | .irqYield => .irqYield 0
  | .mounting .irq => .irqMount
  | _ => .syscall

/-- The scheduler's record of a process. -/
structure Seen (p : Proc) (ticks : Byte) (q : Process) : Prop where
  state : q.state = p.state
  pid : q.pid = p.pid
  ticks : q.ticks = ticks
  killed : q.killed = p.killed
  resume : p.state = .ready ∨ p.state = .sleeping → q.resume = resumeAt p.point

/-- The scheduler has the same processes. -/
structure Agrees (c : Clocked) (u : Sched) : Prop where
  procs : ∀ p, Seen (c.table.procs p) (c.ticks p) (u.procs p)
  current : u.current = c.table.current
  roundRobinIndex : u.roundRobinIndex = c.table.roundRobinIndex
  mounted : u.mounted = c.slept

/-- Where the CPU is while the running process stands at a place. A trap that meets nothing on
    its way shows when the handler is done with it. -/
def Stands (p : Proc) (slept : Bool) (mode : Mode) : Prop :=
  match p.point with
  | .user => mode = .user
  | .fresh => mode = .resuming .fresh
  | .irqYield => mode = .resuming (.irqYield 0)
  | .mounting .irq => mode = .irqMount
  | .trapped .irq => mode = .irqMount ∨ mode = .user ∧ p.doomed = false ∧ slept = true
  | .trapped (.nmi _ _) => mode = .syscall ∨ mode = .user ∧ p.doomed = false ∧ slept = true
  | _ => mode = .syscall

/-- The scheduler describes the clocked table. -/
inductive Describes (c : Clocked) (u : Sched) : Prop
  | idle (h : Agrees c u) (hMounted : c.table.mounted = c.slept) (hIdle : c.table.running = false)
      (hMode : u.mode = .scheduling)
  | turn (h : Agrees c u) (hMounted : c.table.mounted = c.slept) (hRun : c.table.running = true)
      (hMode : Stands c.table.self c.slept u.mode)
  /-- The first trap of all, before `fs_init` sleeps. -/
  | entering (trap : Trap) (h : Agrees c u) (hFirst : c.slept = false)
      (hMounted : c.table.mounted = true) (hRun : c.table.running = true)
      (hPoint : c.table.self.point = .mounting trap) (hMode : u.mode = .user)
      (hAlive : c.table.self.doomed = false)

/-- The scheduler can follow to a state that describes the clocked table, with these marks. -/
def Follows (u : Sched) (marks : List Mark) (d : Clocked) : Prop :=
  ∃ es v, Run Sched.Step u es v ∧ es.flatMap schedMarks = marks ∧ Describes d v

variable {c d : Clocked} {u v : Sched} {t : Table}

theorem Follows.stay (h : Describes d u) : Follows u [] d := ⟨[], u, .nil u, rfl, h⟩

theorem Follows.head {e : Sched.Event} {marks : List Mark} (hStep : u.perform e = some v)
    (h : Follows v marks d) : Follows u (schedMarks e ++ marks) d := by
  obtain ⟨es, w, hRun, hMarks, hDescribes⟩ := h
  exact ⟨e :: es, w, .cons hStep hRun, by rw [List.flatMap_cons, hMarks], hDescribes⟩

/-- An event without a mark. -/
theorem Follows.silent {e : Sched.Event} {marks : List Mark} (hSilent : schedMarks e = [])
    (hStep : u.perform e = some v) (h : Follows v marks d) : Follows u marks d := by
  have hHead := h.head hStep
  rw [hSilent] at hHead
  exact hHead

/-- The scheduler does not see the log, the pids to come and the time. -/
structure Alike (s t : Table) : Prop where
  procs : t.procs = s.procs
  current : t.current = s.current
  running : t.running = s.running
  roundRobinIndex : t.roundRobinIndex = s.roundRobinIndex
  mounted : t.mounted = s.mounted

theorem Agrees.alike (h : Agrees c u) (hAlike : Alike c.table t) :
    Agrees { c with table := t } u := by
  refine ⟨?_, ?_, ?_, h.mounted⟩
  · dsimp only
    rw [hAlike.procs]
    exact h.procs
  · exact h.current.trans hAlike.current.symm
  · exact h.roundRobinIndex.trans hAlike.roundRobinIndex.symm

theorem Describes.alike (h : Describes c u) (hAlike : Alike c.table t) :
    Describes { c with table := t } u := by
  have hSelf : t.self = c.table.self := by
    rw [Table.self, hAlike.procs, hAlike.current]
    rfl
  cases h with
  | idle h hMounted hIdle hMode =>
    exact .idle (h.alike hAlike) (hAlike.mounted.trans hMounted) (hAlike.running.trans hIdle) hMode
  | turn h hMounted hRun hMode =>
    refine .turn (h.alike hAlike) (hAlike.mounted.trans hMounted) (hAlike.running.trans hRun) ?_
    dsimp only
    rw [hSelf]
    exact hMode
  | entering trap h hFirst hMounted hRun hPoint hMode hAlive =>
    refine .entering trap (h.alike hAlike) hFirst (hAlike.mounted.trans hMounted)
      (hAlike.running.trans hRun) ?_ hMode ?_
    · dsimp only
      rw [hSelf]
      exact hPoint
    · dsimp only
      rw [hSelf]
      exact hAlive

/-! ## §3 Changing one process -/

section Agreement

theorem Agrees.self (h : Agrees c u) : Seen c.table.self (c.ticks c.table.current) u.self := by
  rw [Sched.self, h.current]
  exact h.procs c.table.current

theorem Seen.doomed {p : Proc} {ticks : Byte} {q : Process} (h : Seen p ticks q) :
    q.doomed = p.doomed := by
  rw [Process.doomed, Proc.doomed, h.killed, h.pid]

theorem Agrees.doomed (h : Agrees c u) : u.self.doomed = c.table.self.doomed := h.self.doomed

/-- Both sides change one process. -/
theorem Agrees.setProc (h : Agrees c u) (i : Slot) {f : Proc → Proc} {g : Process → Process}
    {ticks : Byte} (hSeen : Seen (f (c.table.procs i)) ticks (g (u.procs i))) :
    Agrees { c with table := c.table.setProc i f, ticks := Function.update c.ticks i ticks }
      (u.setProc i g) := by
  refine ⟨fun p => ?_, h.current, h.roundRobinIndex, h.mounted⟩
  dsimp only
  rw [Table.procs_setProc, Sched.procs_setProc, Function.update_apply]
  split
  · exact hSeen
  · exact h.procs p

/-- Both sides change one process and not its counter. -/
theorem Agrees.setProc_same (h : Agrees c u) (i : Slot) {f : Proc → Proc} {g : Process → Process}
    (hSeen : Seen (f (c.table.procs i)) (c.ticks i) (g (u.procs i))) :
    Agrees { c with table := c.table.setProc i f } (u.setProc i g) := by
  have hBoth := h.setProc i hSeen
  rw [Function.update_eq_self] at hBoth
  exact hBoth

/-- The scheduler does not see the change. -/
theorem Agrees.setProc_unseen (h : Agrees c u) (i : Slot) {f : Proc → Proc}
    (hSeen : Seen (f (c.table.procs i)) (c.ticks i) (u.procs i)) :
    Agrees { c with table := c.table.setProc i f } u := by
  refine ⟨fun p => ?_, h.current, h.roundRobinIndex, h.mounted⟩
  dsimp only
  rw [Table.procs_setProc]
  split
  · next hEq => exact hEq ▸ hSeen
  · exact h.procs p

/-- Both sides change the running process. -/
theorem Agrees.setSelf (h : Agrees c u) {f : Proc → Proc} {g : Process → Process} {ticks : Byte}
    (hSeen : Seen (f c.table.self) ticks (g u.self)) :
    Agrees { c with table := c.table.setSelf f, ticks := c.setTicks ticks } (u.setSelf g) := by
  rw [Sched.self, h.current] at hSeen
  rw [Sched.setSelf, h.current]
  exact h.setProc c.table.current hSeen

theorem setTicks_same (c : Clocked) : c.setTicks (c.ticks c.table.current) = c.ticks :=
  Function.update_eq_self ..

/-- The running process gives up the CPU. -/
theorem Agrees.suspend (h : Agrees c u) {r : Proc} (point : Resume)
    (hPid : r.pid = c.table.self.pid) (hKilled : r.killed = c.table.self.killed)
    (hPoint : r.state = .ready ∨ r.state = .sleeping → point = resumeAt r.point) :
    Agrees { c with table := c.table.become r false } (u.suspend r.state point) := by
  have hSelf := h.self
  have hBoth := h.setSelf (f := fun _ => r) (g := fun p => { p with state := r.state, resume := point })
    ⟨rfl, hSelf.pid.trans hPid.symm, hSelf.ticks, hSelf.killed.trans hKilled.symm, hPoint⟩
  rw [setTicks_same] at hBoth
  exact ⟨hBoth.procs, h.current, h.roundRobinIndex, h.mounted⟩

/-- The scheduler does not see what the running process does to its registers, its memory, its
    channel or its place. -/
theorem Agrees.unseen (h : Agrees c u) {f : Proc → Proc} (hState : (f c.table.self).state = .running)
    (hRunning : c.table.self.state = .running) (hPid : (f c.table.self).pid = c.table.self.pid)
    (hKilled : (f c.table.self).killed = c.table.self.killed) :
    Agrees { c with table := c.table.setSelf f } u := by
  have hSelf := h.procs c.table.current
  refine h.setProc_unseen c.table.current ⟨?_, ?_, hSelf.ticks, ?_, ?_⟩
  · exact hSelf.state.trans (hRunning.trans hState.symm)
  · exact hSelf.pid.trans hPid.symm
  · exact hSelf.killed.trans hKilled.symm
  · intro hParked
    have hState : (f (c.table.procs c.table.current)).state = .running := hState
    rw [hState] at hParked
    rcases hParked with h | h <;> cases h

/-- `proc_set_ticks(current_process, ticks)`. -/
theorem Agrees.count (h : Agrees c u) (ticks : Byte) :
    Agrees { c with ticks := c.setTicks ticks } (u.setSelf fun p => { p with ticks := ticks }) := by
  refine ⟨fun p => ?_, h.current, h.roundRobinIndex, h.mounted⟩
  have hSeen := h.procs p
  dsimp only
  rw [setTicks, Sched.setSelf, Sched.procs_setProc, Function.update_apply, h.current]
  split
  · next hIs =>
    subst hIs
    exact ⟨hSeen.state, hSeen.pid, rfl, hSeen.killed, hSeen.resume⟩
  · exact hSeen

end Agreement

end Clocked

end Xv6502.Kernel
