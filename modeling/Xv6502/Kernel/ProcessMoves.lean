import Xv6502.Kernel.Processes
import Mathlib.Logic.Relation

/-!
# What a Step of the Process Table Can Do

Every step of the process table is a sequence of moves: wakeups, ticks of the timer, the
dispatch of a process, what the running process does to its own record, and the few system
calls that touch another process. Each move is stated with all that is known when it is
made, so that an invariant of the process table is proved move by move.
-/

namespace Xv6502.Kernel

open Xv6502.Emulator Xv6502.Lib

namespace Table

/-! ## §1 Small facts about the operations -/

section Operations

variable (s : Table) (i j : Slot) (f : Proc → Proc)

theorem procs_setProc : (s.setProc i f).procs j = if j = i then f (s.procs i) else s.procs j := by
  simp [setProc, Function.update_apply]

@[simp] theorem setProc_current : (s.setProc i f).current = s.current := rfl

@[simp] theorem setProc_running : (s.setProc i f).running = s.running := rfl

@[simp] theorem setProc_log : (s.setProc i f).log = s.log := rfl

@[simp] theorem self_setSelf : (s.setSelf f).self = f s.self := by
  simp [setSelf, setProc, self]

/-- The new record of a process agrees with the old one in what the change leaves alone. -/
theorem proj_setProc {β : Type} (g : Proc → β) (h : g (f (s.procs i)) = g (s.procs i)) :
    g ((s.setProc i f).procs j) = g (s.procs j) := by
  rw [procs_setProc]
  split
  · next hEq => rw [h, hEq]
  · rfl

end Operations

theorem find_some {test : Slot → Bool} {i : Slot} (h : find test = some i) : test i = true :=
  search_some h

theorem find_none {test : Slot → Bool} (h : find test = none) (i : Slot) : test i = false :=
  search_none h i

/-- The running process replaces its record, and goes on or calls `scheduler()`. -/
def become (s : Table) (r : Proc) (running : Bool) : Table :=
  { s with
    procs := Function.update s.procs s.current r
    running := running }

theorem setSelf_eq_become (s : Table) (f : Proc → Proc) :
    s.setSelf f = s.become (f s.self) s.running := rfl

theorem goto_eq_become (s : Table) (point : Place) :
    s.goto point = s.become { s.self with point := point } s.running := rfl

theorem yield_eq_become (s : Table) (point : Place) :
    s.yield point = s.become { s.self with state := .ready, point := point } false := rfl

theorem sleep_eq_become (s : Table) (channel : Channel) (point : Place) :
    s.sleep channel point =
      s.become { s.self with state := .sleeping, channel := channel, point := point } false := by
  simp [sleep, suspend, become, setSelf, setProc, self]

theorem procs_become (s : Table) (r : Proc) (running : Bool) (p : Slot) :
    (s.become r running).procs p = if p = s.current then r else s.procs p :=
  Function.update_apply ..

@[simp] theorem self_become (s : Table) (r : Proc) (running : Bool) :
    (s.become r running).self = r :=
  Function.update_self ..

theorem procs_dispatch (s : Table) (p q : Slot) :
    (s.dispatch p).procs q =
      if q = p then { s.procs p with state := .running, channel := .null } else s.procs q := by
  simp only [dispatch, setProc, Function.update_apply]

theorem procs_create (s : Table) (child p : Slot) :
    (s.create child).procs p = if p = child then s.newborn else s.procs p := by
  simp only [create, note, setProc, Function.update_apply]

/-- What happens to another process and where the running one goes do not depend on each
    other. -/
theorem setProc_goto_comm (s : Table) {i : Slot} (f : Proc → Proc) (point : Place)
    (h : i ≠ s.current) : (s.setProc i f).goto point = (s.goto point).setProc i f := by
  have hSelf : (s.setProc i f).procs s.current = s.procs s.current := by
    rw [procs_setProc, if_neg h.symm]
  have hOther : (s.goto point).procs i = s.procs i := by
    rw [goto, setSelf, procs_setProc, if_neg h]
  rw [goto, setSelf, setProc, setProc_current, hSelf]
  conv => rhs; rw [setProc, hOther]
  simp only [goto, setSelf, setProc]
  rw [Function.update_comm h]

/-- `sys_kill` may as well return first. -/
theorem mark_goto_comm (s : Table) (i : Slot) (point : Place) :
    (s.mark i).goto point = (s.goto point).mark i := by
  have hSelf : (s.goto point).self.pid = s.self.pid := by rw [goto, self_setSelf]
  have hPid : ((s.goto point).procs i).pid = (s.procs i).pid := by
    rw [goto, setSelf, proj_setProc s _ i _ (·.pid) rfl]
  rw [mark, mark, hSelf, hPid]
  by_cases hIs : i = s.current
  · subst hIs
    simp [goto, note, setSelf, setProc]
  · rw [← setProc_goto_comm s _ point hIs]
    rfl

/-! ## §2 The moves -/

/-- The sleep of a process is one it can be woken from: on a device, in `sys_wait` without a
    zombie among its children, or in `sys_sleep` before its time. -/
inductive Sleeps (s : Table) (r : Proc) : Prop
  | device (n : Nat) (hChannel : r.channel = .device n)
  | wait (hChannel : r.channel = .proc s.current)
      (hNone : ∀ q, (s.procs q).state = .zombie → (s.procs q).parent ≠ some s.current)
  | timed (start ticks total : Ticks) (hChannel : r.channel = .systicks)
      (hPoint : r.point = .timing start ticks total) (hEarly : s.systicks < total)
      (hCall : s.nextWakeupCall ≤ total)

/-- How the running process comes to a place: each place that promises something is entered
    where the code has made sure of it. -/
def Enters (s : Table) (state : ProcState) (running : Bool) : Place → Prop
  | .user => running = true ∧ (s.self.point = .user ∨ s.self.doomed = false)
  | .fresh => running = true ∧ s.self.point = .fresh
  | .exited => running = true ∧ s.self.point = .exited
  | .mounting trap => s.self.point = .mounting trap
  | .trapped trap =>
    running = true ∧
      (s.self.point = .mounting trap ∨ s.self.point = .trapped trap ∨
        s.self.doomed = false ∧ s.mounted = true)
  | .forking child pid _ =>
    (running = true ∨ state = .ready) ∧
      ((∃ segment, s.self.point = .forking child pid segment) ∨
        (s.procs child).state = .building ∧ (s.procs child).parent = some s.current ∧
          (s.procs child).pid = pid)
  | .timing start ticks total =>
    s.self.point = .timing start ticks total ∨ total = sleepTotal start ticks
  | .irqYield | .waiting _ | .serving | .returning _ => True

/-- What the running process can do to its own record. -/
structure Acts (s : Table) (r : Proc) (running : Bool) : Prop where
  pid : r.pid = s.self.pid
  uid : r.uid = s.self.uid
  parent : r.parent = s.self.parent
  killed : r.killed = s.self.killed
  state : running = true ∧ r.state = s.self.state ∧ r.channel = s.self.channel ∨
    running = false ∧ r.state = .ready ∧ r.channel = s.self.channel ∨
    running = false ∧ r.state = .sleeping ∧ Sleeps s r
  enters : s.Enters r.state running r.point

/-- A move of the process table that gives the CPU to no process and frees none. -/
inductive Calm : Table → Table → Prop
  | wakeup (s : Table) (channel : Channel) : Calm s (s.wakeup channel)
  | tick {s t : Table} (h : s.timerInterrupt = some t) : Calm s t
  | act {s : Table} (r : Proc) (running : Bool) (hRun : s.running = true)
      (h : Acts s r running) : Calm s (s.become r running)
  | arm (s : Table) (total : Ticks) (h : total ≤ s.nextWakeupCall) :
      Calm s { s with nextWakeupCall := total }
  | slept (s : Table) (start ticks total : Ticks)
      (hTotal : s.self.point = .timing start ticks total ∨ total = sleepTotal start ticks)
      (hTime : total ≤ s.systicks) : Calm s (s.note (.slept start ticks s.systicks))
  | mount {s : Table} (trap : Trap) (hRun : s.running = true) (hPoint : s.self.point = .user)
      (hFirst : s.mounted = false) : Calm s { s.goto (.mounting trap) with mounted := true }
  | exit {s t : Table} (cause : ExitCause) (hRun : s.running = true)
      (hCode : s.self.ax.setWidth 8 = cause.code) (h : s.exit cause = some t) : Calm s t
  | create {s : Table} (child : Slot) (trap : Trap) (hRun : s.running = true)
      (hPoint : s.self.point = .trapped trap) (hState : (s.procs child).state = .unused)
      (hPid : s.nextPid ≠ 0) : Calm s (s.create child)
  | page {s : Table} (child : Slot) (childPid : Word) (segment : Nat)
      (k : Segment) (page : Option Page) (hRun : s.running = true)
      (hPoint : s.self.point = .forking child childPid segment) :
      Calm s (s.setProc child fun p => { p with pages := Function.update p.pages k page })
  | publish {s : Table} (child : Slot) (childPid : Word) (segment : Nat) (hRun : s.running = true)
      (hPoint : s.self.point = .forking child childPid segment) :
      Calm s ((s.setProc child fun p => { p with state := .new }).goto (.returning childPid))
  | mark {s : Table} (i : Slot) (hRun : s.running = true) (hPoint : s.self.point = .returning 0)
      (hUsed : (s.procs i).state ≠ .unused) (hAlive : (s.procs i).state ≠ .zombie)
      (hPid : (1 : Word) < (s.procs i).pid) : Calm s (s.mark i)

/-- The calm moves of a step. -/
abbrev Calms : Table → Table → Prop := Relation.ReflTransGen Calm

/-- A move of the process table. -/
inductive Move : Table → Table → Prop
  | calm {s t : Table} (h : Calm s t) : Move s t
  | dispatch {s : Table} (p : Slot) (hIdle : s.running = false)
      (hState : (s.procs p).state.runnable = true) : Move s (s.dispatch p)
  | abandon {s : Table} (child : Slot) (childPid : Word) (segment : Nat) (hRun : s.running = true)
      (hPoint : s.self.point = .forking child childPid segment) :
      Move s ((s.free child).goto (.returning (-1)))
  | reap {s : Table} (i : Slot) (hRun : s.running = true) (hState : (s.procs i).state = .zombie)
      (hParent : (s.procs i).parent = some s.current) : Move s (s.reap i)

/-- The moves of a step. -/
abbrev Moves : Table → Table → Prop := Relation.ReflTransGen Move

/-! ## §3 The system calls as moves -/

variable {s t : Table}

/-- The registers and the memory of a process are its own affair. -/
def Data (p r : Proc) : Prop :=
  ∃ ax top pages, r = { p with ax := ax, top := top, pages := pages }

/-- Staying at a place needs nothing. -/
theorem enters_stay (s : Table) (state : ProcState) : s.Enters state true s.self.point := by
  cases h : s.self.point with
  | user => exact ⟨rfl, .inl h⟩
  | fresh => exact ⟨rfl, h⟩
  | exited => exact ⟨rfl, h⟩
  | mounting trap => exact h
  | trapped trap => exact ⟨rfl, .inr (.inl h)⟩
  | forking child pid segment => exact ⟨.inl rfl, .inl ⟨segment, h⟩⟩
  | timing start ticks total => exact .inl h
  | irqYield => trivial
  | waiting code => trivial
  | serving => trivial
  | returning value => trivial

theorem Calm.data (hRun : s.running = true) {f : Proc → Proc} (h : Data s.self (f s.self)) :
    Calm s (s.setSelf f) := by
  obtain ⟨ax, top, pages, hEq⟩ := h
  rw [setSelf_eq_become, hRun, hEq]
  exact .act _ _ hRun ⟨rfl, rfl, rfl, rfl, .inl ⟨rfl, rfl, rfl⟩, enters_stay s _⟩

theorem Calm.goto (hRun : s.running = true) {point : Place}
    (h : s.Enters s.self.state true point) : Calm s (s.goto point) := by
  rw [goto_eq_become, hRun]
  exact .act _ _ hRun ⟨rfl, rfl, rfl, rfl, .inl ⟨rfl, rfl, rfl⟩, h⟩

theorem Calm.returning (hRun : s.running = true) (value : Word) :
    Calm s (s.goto (.returning value)) :=
  .goto hRun trivial

theorem Calm.yield (hRun : s.running = true) {point : Place} (h : s.Enters .ready false point) :
    Calm s (s.yield point) :=
  .act _ _ hRun ⟨rfl, rfl, rfl, rfl, .inr (.inl ⟨rfl, rfl, rfl⟩), h⟩

theorem Calm.sleep (hRun : s.running = true) {channel : Channel} {point : Place}
    (h : s.Enters .sleeping false point)
    (hSleep : Sleeps s { s.self with state := .sleeping, channel := channel, point := point }) :
    Calm s (s.sleep channel point) := by
  rw [sleep_eq_become]
  exact .act _ _ hRun ⟨rfl, rfl, rfl, rfl, .inr (.inr ⟨rfl, rfl, hSleep⟩), h⟩

/-- `sys_exit`, called after a change of the registers. -/
theorem exit_moves {cause : ExitCause} (hRun : s.running = true) {f : Proc → Proc}
    (hData : Data s.self (f s.self)) (hCode : (f s.self).ax.setWidth 8 = cause.code)
    (h : (s.setSelf f).exit cause = some t) : Calms s t := by
  refine .head (.data hRun hData) (.single (.exit cause hRun ?_ h))
  rw [self_setSelf]
  exact hCode

theorem setA_code (p : Proc) (a : Byte) : (p.setA a).ax.setWidth 8 = a := by
  ext i
  simp [Proc.setA]

theorem epilogue_moves (hRun : s.running = true) (h : s.epilogue = some t) : Calms s t := by
  rw [epilogue] at h
  split at h
  · exact exit_moves hRun ⟨_, _, _, rfl⟩ (setA_code _ _) h
  · next hSpared =>
    obtain rfl := Option.some.inj h
    exact .single (.goto hRun ⟨rfl, .inr (Bool.eq_false_iff.mpr hSpared)⟩)

theorem prologue_moves {trap : Trap} {ax : Word} (hRun : s.running = true)
    (hPoint : s.self.point = .user) (h : s.prologue trap ax = some t) : Calms s t := by
  rw [prologue] at h
  split at h
  · exact exit_moves hRun ⟨_, _, _, rfl⟩ (setA_code _ _) h
  · next hSpared =>
    -- the context is saved before the file system is mounted
    refine .head (.data (f := fun p => { p with ax := ax }) hRun ⟨_, _, _, rfl⟩) ?_
    dsimp only at h
    split at h
    · next hMounted =>
      obtain rfl := Option.some.inj h
      refine .single (Calm.goto (s := s.setSelf _) hRun ⟨rfl, .inr (.inr ⟨?_, hMounted⟩)⟩)
      rw [self_setSelf]
      exact Bool.eq_false_iff.mpr hSpared
    · next hFirst =>
      obtain rfl := Option.some.inj h
      refine .single (.mount trap hRun ?_ (Bool.eq_false_iff.mpr hFirst))
      rw [self_setSelf]
      exact hPoint

theorem copyToUser_data {dest : Word} {value : Byte} (h : s.copyToUser dest value = some t) :
    ∃ f, t = s.setSelf f ∧ Data s.self (f s.self) := by
  rw [copyToUser] at h
  split at h
  · cases h
  · split at h
    · cases h
    · obtain rfl := Option.some.inj h
      exact ⟨_, rfl, _, _, _, rfl⟩

/-- `sys_wait` reaps a zombie among the children of its caller. -/
structure Reaps (s : Table) (userExitCode : Word) (i : Slot) (t : Table) : Prop where
  running : s.running = true
  zombie : (s.procs i).state = .zombie
  parent : (s.procs i).parent = some s.current
  copied : userExitCode = 0 ∧ t = s.reap i ∨
    userExitCode ≠ 0 ∧
      ∃ u, s.copyToUser userExitCode (s.procs i).exitCode = some u ∧ t = u.reap i

theorem waitTurn_cases (hRun : s.running = true) (userExitCode : Word) (hasChildren : Bool) :
    Calms s (s.waitTurn userExitCode hasChildren) ∨
      ∃ i, Reaps s userExitCode i (s.waitTurn userExitCode hasChildren) := by
  rw [waitTurn]
  split
  · next i hFind =>
    have hTest := find_some hFind
    simp only [isChild, Bool.and_eq_true, bne_iff_ne, beq_iff_eq] at hTest
    obtain ⟨⟨-, hParent⟩, hZombie⟩ := hTest
    split
    · next hNull => exact .inr ⟨i, hRun, hZombie, hParent, .inl ⟨hNull, rfl⟩⟩
    · next hPointer =>
      split
      · exact .inl (.single (.returning hRun _))
      · next u hCopy =>
        exact .inr ⟨i, hRun, hZombie, hParent, .inr ⟨hPointer, u, hCopy, rfl⟩⟩
  · next hFind =>
    split
    · refine .inl (.single (.sleep hRun trivial (.wait rfl ?_)))
      intro q hZombie hParent
      have hTest := find_none hFind q
      simp [isChild, hZombie, hParent] at hTest
    · exact .inl (.single (.returning hRun _))

/-- The copy of the exit code is a move of its own. -/
theorem Reaps.split {userExitCode : Word} {i : Slot} (h : Reaps s userExitCode i t) :
    ∃ u, Calms s u ∧ u.running = true ∧ (u.procs i).state = .zombie ∧
      (u.procs i).parent = some u.current ∧ t = u.reap i := by
  obtain ⟨hRun, hZombie, hParent, ⟨-, rfl⟩ | ⟨-, u, hCopy, rfl⟩⟩ := h
  · exact ⟨s, .refl, hRun, hZombie, hParent, rfl⟩
  · obtain ⟨f, rfl, ax, top, pages, hData⟩ := copyToUser_data hCopy
    have hSame : (f (s.procs s.current)).state = s.self.state ∧
        (f (s.procs s.current)).parent = s.self.parent := by
      rw [← self, hData]
      exact ⟨rfl, rfl⟩
    refine ⟨_, .single (.data hRun ⟨ax, top, pages, hData⟩), hRun, ?_, ?_, rfl⟩
    · rw [setSelf, proj_setProc _ _ _ _ (·.state) hSame.1]
      exact hZombie
    · rw [setSelf, proj_setProc _ _ _ _ (·.parent) hSame.2]
      exact hParent

theorem Reaps.moves {userExitCode : Word} {i : Slot} (h : Reaps s userExitCode i t) :
    Moves s t := by
  obtain ⟨u, hCalms, hRun, hZombie, hParent, rfl⟩ := h.split
  exact .tail (hCalms.lift id fun _ _ => .calm) (.reap i hRun hZombie hParent)

theorem kill_moves (hRun : s.running = true) : Calms s s.kill := by
  rw [kill]
  split
  · exact .single (.returning hRun _)
  · next hPid =>
    split
    · next i hFind =>
      have hTest := find_some hFind
      simp only [isVictim, Bool.and_eq_true, bne_iff_ne, beq_iff_eq] at hTest
      obtain ⟨⟨⟨hUsed, hAlive⟩, hIs⟩, -⟩ := hTest
      rw [mark_goto_comm]
      refine .head (.returning hRun 0) (.single (.mark (s := s.goto _) i hRun ?_ ?_ ?_ ?_))
      · rw [goto, self_setSelf]
      · rw [goto, setSelf, proj_setProc s _ i _ (·.state) rfl]
        exact hUsed
      · rw [goto, setSelf, proj_setProc s _ i _ (·.state) rfl]
        exact hAlive
      · rw [goto, setSelf, proj_setProc s _ i _ (·.pid) rfl, hIs]
        exact BitVec.not_le.mp hPid
    · exact .single (.returning hRun _)

theorem fork_moves {frame : Bool} (hRun : s.running = true) {trap : Trap}
    (hPoint : s.self.point = .trapped trap) (h : s.fork frame = some t) : Calms s t := by
  rw [fork] at h
  split at h
  · obtain rfl := Option.some.inj h
    exact .single (.returning hRun _)
  · next child hFind =>
    have hState : (s.procs child).state = .unused := by simpa using find_some hFind
    split at h
    · split at h
      · cases h
      · next hPid =>
        obtain rfl := Option.some.inj h
        refine .head (.create child trap hRun hPoint hState hPid) (.single (.yield (s := s.create child) hRun ?_))
        refine ⟨.inr rfl, .inr ?_⟩
        simp [create, note, setProc, newborn]
    · obtain rfl := Option.some.inj h
      exact .single (.returning hRun _)

theorem clone_cases {child : Slot} {childPid : Word} {segment : Nat} (hRun : s.running = true)
    (hPoint : s.self.point = .forking child childPid segment) (frame : Bool) :
    Calms s (s.clone child childPid segment frame) ∨
      frame = false ∧
        s.clone child childPid segment frame = (s.free child).goto (.returning (-1)) := by
  rw [clone]
  split
  · next k _ =>
    split
    · refine .inl (.head (.page child childPid segment k (s.self.pages k) hRun hPoint) (.single ?_))
      apply Calm.yield (s := s.setProc _ _) hRun
      refine ⟨.inr rfl, .inl ⟨segment, ?_⟩⟩
      rw [self, proj_setProc _ _ _ _ (·.point) rfl]
      exact hPoint
    · next hFrame => exact .inr ⟨Bool.eq_false_iff.mpr hFrame, rfl⟩
  · exact .inl (.single (.publish child childPid segment hRun hPoint))

theorem sleepTurn_moves {start ticks total : Ticks} (hRun : s.running = true)
    (hTotal : s.self.point = .timing start ticks total ∨ total = sleepTotal start ticks) :
    Calms s (s.sleepTurn start ticks total) := by
  rw [sleepTurn]
  split
  · next hTime =>
    exact .head (.slept s start ticks total hTotal hTime)
      (.single (.returning (s := s.note _) hRun 0))
  · next hEarly =>
    -- `next_wakeup_call` is lowered before the process sleeps
    obtain ⟨low, hLow, hCall, hTarget⟩ : ∃ low,
        low = (if total < s.nextWakeupCall then total else s.nextWakeupCall) ∧
          low ≤ s.nextWakeupCall ∧ low ≤ total := by
      refine ⟨_, rfl, ?_⟩
      split
      · next hLess => exact ⟨BitVec.le_of_lt hLess, BitVec.le_refl _⟩
      · next hMore => exact ⟨BitVec.le_refl _, BitVec.not_lt.mp hMore⟩
    rw [← hLow]
    refine .head (.arm s low hCall) (.single ?_)
    apply Calm.sleep (s := { s with nextWakeupCall := low }) hRun
    · exact hTotal
    · exact .timed start ticks total rfl rfl (BitVec.not_le.mp hEarly) hTarget

theorem kernelBrk_cases {number : Byte} (hRun : s.running = true)
    (h : s.kernelBrk number = some t) :
    Calms s t ∨ syscallsTable number = some .wait ∧ ∃ i, Reaps s s.self.ax i t := by
  rw [kernelBrk] at h
  split at h
  · exact .inl (exit_moves hRun ⟨_, _, _, rfl⟩ rfl h)
  · exact .inl (.single (.exit _ hRun rfl h))
  · next hCall =>
    obtain rfl := Option.some.inj h
    exact (waitTurn_cases hRun _ _).imp_right (⟨hCall, ·⟩)
  · obtain rfl := Option.some.inj h
    exact .inl (kill_moves hRun)
  · obtain rfl := Option.some.inj h
    exact .inl (.single (.returning hRun _))
  · cases h
  · cases h
  · obtain rfl := Option.some.inj h
    exact .inl (.single (.goto hRun trivial))

theorem kernelNmi_moves {cause watchdog : Byte} (hRun : s.running = true)
    (h : s.kernelNmi cause watchdog = some t) : Calms s t := by
  rw [kernelNmi] at h
  split at h
  · refine exit_moves hRun ⟨_, _, _, rfl⟩ ?_ h
    exact BitVec.setWidth_setWidth_of_le cause (by decide)
  · cases h

/-- The running process is at a turn of the loop of `sys_wait`. -/
def AtWait (s : Table) (userExitCode : Word) : Prop :=
  s.self.point = .waiting userExitCode ∨
    userExitCode = s.self.ax ∧
      ∃ number, s.self.point = .trapped (.brk number) ∧ syscallsTable number = some .wait

theorem proceed_cases (hRun : s.running = true) (h : s.proceed = some t) :
    Calms s t ∨ ∃ userExitCode i, s.AtWait userExitCode ∧ Reaps s userExitCode i t := by
  rw [proceed] at h
  split at h
  · exact .inl (epilogue_moves hRun h)
  · exact .inl (epilogue_moves hRun h)
  · exact .inl (epilogue_moves hRun h)
  -- the value of a call is written back before the way out
  · next value _ =>
    refine .inl (.head (.data (f := fun p => { p with ax := value }) hRun ⟨_, _, _, rfl⟩) ?_)
    exact epilogue_moves (s := s.setSelf _) hRun h
  · next number hPoint =>
    obtain hCalm | ⟨hCall, i, hReaps⟩ := kernelBrk_cases hRun h
    · exact .inl hCalm
    · exact .inr ⟨_, i, .inr ⟨rfl, number, hPoint, hCall⟩, hReaps⟩
  · exact .inl (kernelNmi_moves hRun h)
  · next userExitCode hPoint =>
    obtain rfl := Option.some.inj h
    obtain hCalm | ⟨i, hReaps⟩ := waitTurn_cases hRun userExitCode true
    · exact .inl hCalm
    · exact .inr ⟨_, i, .inl hPoint, hReaps⟩
  · next start ticks total hPoint =>
    obtain rfl := Option.some.inj h
    exact .inl (sleepTurn_moves hRun (.inl hPoint))
  · cases h

/-! ## §4 The steps as moves -/

theorem atSyscall_point {call : Syscall} (h : s.atSyscall call) :
    ∃ number, s.self.point = .trapped (.brk number) ∧ syscallsTable number = some call := by
  rw [atSyscall] at h
  split at h
  · next number hPoint => exact ⟨number, hPoint, h⟩
  · exact h.elim

/-- `scheduler()` dispatches a process, `sys_wait` reaps a child, `sys_fork` fails, or the step
    does none of these. -/
inductive Effect (s : Table) (e : Event) (t : Table) : Prop
  | calm (hEvent : ∀ p, e ≠ .dispatch p) (h : Calms s t)
  | dispatch (p : Slot) (hEvent : e = .dispatch p) (hIdle : s.running = false)
      (hState : (s.procs p).state.runnable = true) (hEq : t = s.dispatch p)
  | reap (userExitCode : Word) (i : Slot) (hEvent : e = .proceed) (hWait : s.AtWait userExitCode)
      (hReaps : Reaps s userExitCode i t)
  | abandon (child : Slot) (childPid : Word) (segment : Nat) (hEvent : e = .clone false)
      (hRun : s.running = true) (hPoint : s.self.point = .forking child childPid segment)
      (hEq : t = (s.free child).goto (.returning (-1)))

theorem act_effect {e : Event} (hRun : s.running = true) (h : s.act e = some t) :
    Effect s e t := by
  -- the events of a process that runs, one kernel path each; those of others do not get here
  cases e with
  | dispatch p => cases h
  | tick => cases h
  | wakeup device => cases h
  | store addr value =>
    rw [act] at h
    split at h
    · split at h
      · cases h
      · obtain rfl := Option.some.inj h
        exact .calm nofun (.single (.data hRun ⟨_, _, _, rfl⟩))
    · cases h
  | trap trap ax =>
    obtain ⟨hPoint, h⟩ := Option.ite_none_right_eq_some.mp h
    exact .calm nofun (prologue_moves hRun hPoint h)
  | block device =>
    rw [act] at h
    split at h
    · next trap hPoint =>
      obtain rfl := Option.some.inj h
      exact .calm nofun (.single (.sleep hRun hPoint (.device device rfl)))
    · obtain rfl := Option.some.inj h
      exact .calm nofun (.single (.sleep hRun trivial (.device device rfl)))
    · cases h
  | mounted =>
    rw [act] at h
    split at h
    · next trap hPoint =>
      obtain rfl := Option.some.inj h
      exact .calm nofun (.single (.goto hRun ⟨rfl, .inl hPoint⟩))
    · cases h
  | preempt =>
    obtain ⟨-, h⟩ := Option.ite_none_right_eq_some.mp h
    obtain rfl := Option.some.inj h
    exact .calm nofun (.single (.yield hRun trivial))
  | proceed =>
    -- only a wait can reap
    obtain hCalm | ⟨userExitCode, i, hWait, hReaps⟩ := proceed_cases hRun h
    · exact .calm nofun hCalm
    · exact .reap userExitCode i rfl hWait hReaps
  | fork frame =>
    obtain ⟨hCall, h⟩ := Option.ite_none_right_eq_some.mp h
    obtain ⟨number, hPoint, -⟩ := atSyscall_point hCall
    exact .calm nofun (fork_moves hRun hPoint h)
  | clone frame =>
    rw [act] at h
    split at h
    · next child childPid segment hPoint =>
      obtain rfl := Option.some.inj h
      -- only a fork that runs out of memory gives its child up
      obtain hCalm | ⟨rfl, hEq⟩ := clone_cases hRun hPoint frame
      · exact .calm nofun hCalm
      · exact .abandon child childPid segment rfl hRun hPoint hEq
    · cases h
  | sleep ticks =>
    obtain ⟨-, h⟩ := Option.ite_none_right_eq_some.mp h
    obtain rfl := Option.some.inj h
    cases ticks with
    | none => exact .calm nofun (.single (.returning hRun _))
    | some ticks => exact .calm nofun (sleepTurn_moves hRun (.inr rfl))
  | pause =>
    obtain ⟨-, h⟩ := Option.ite_none_right_eq_some.mp h
    obtain rfl := Option.some.inj h
    exact .calm nofun (.single (.yield hRun trivial))
  | remap top pages =>
    obtain ⟨-, h⟩ := Option.ite_none_right_eq_some.mp h
    obtain rfl := Option.some.inj h
    exact .calm nofun (.single (.data hRun ⟨_, _, _, rfl⟩))
  | finish value =>
    obtain ⟨-, h⟩ := Option.ite_none_right_eq_some.mp h
    obtain rfl := Option.some.inj h
    exact .calm nofun (.single (.returning hRun _))

/-- What the running process does, if the event is neither a dispatch nor an interrupt. -/
theorem perform_cases {e : Event} (h : s.perform e = some t) :
    (∃ p, e = .dispatch p ∧ s.running = false ∧
      search s.runnable maxProcCount s.roundRobinIndex = some p ∧ t = s.dispatch p) ∨
    (e = .tick ∧ s.inUser = false ∧ s.timerInterrupt = some t) ∨
    (∃ device, e = .wakeup device ∧ s.inUser = false ∧ t = s.wakeup (.device device)) ∨
    s.running = true ∧ s.act e = some t := by
  cases e
  case dispatch p =>
    obtain ⟨⟨hIdle, hSearch⟩, h⟩ := Option.ite_none_right_eq_some.mp h
    exact .inl ⟨p, rfl, hIdle, hSearch, (Option.some.inj h).symm⟩
  case tick =>
    obtain ⟨hKernel, h⟩ := Option.ite_none_left_eq_some.mp h
    exact .inr (.inl ⟨rfl, Bool.eq_false_iff.mpr hKernel, h⟩)
  case wakeup device =>
    obtain ⟨hKernel, h⟩ := Option.ite_none_left_eq_some.mp h
    exact .inr (.inr (.inl ⟨device, rfl, Bool.eq_false_iff.mpr hKernel, (Option.some.inj h).symm⟩))
  all_goals exact .inr (.inr (.inr (Option.ite_none_right_eq_some.mp h)))

theorem Step.effect {e : Event} (h : Step s e t) : Effect s e t := by
  obtain ⟨p, rfl, hIdle, hSearch, rfl⟩ | ⟨rfl, -, hTick⟩ | ⟨device, rfl, -, rfl⟩ | ⟨hRun, hAct⟩ :=
    perform_cases h
  · exact .dispatch p rfl hIdle (search_some hSearch) rfl
  · exact .calm nofun (.single (.tick hTick))
  · exact .calm nofun (.single (.wakeup s _))
  · exact act_effect hRun hAct

/-- **Every step is a sequence of moves.** -/
theorem Step.moves {e : Event} (h : Step s e t) : Moves s t := by
  cases h.effect with
  | calm _ hCalm => exact hCalm.lift id fun _ _ => .calm
  | dispatch p _ hIdle hState hEq =>
    rw [hEq]
    exact .single (.dispatch p hIdle hState)
  | reap userExitCode i _ _ hReaps => exact hReaps.moves
  | abandon child childPid segment _ hRun hPoint hEq =>
    rw [hEq]
    exact .single (.abandon child childPid segment hRun hPoint)

/-- What every move preserves, every step preserves. -/
theorem Moves.invariant {inv : Table → Prop} (hMove : ∀ s t, inv s → Move s t → inv t)
    (h : Moves s t) (hs : inv s) : inv t := by
  induction h with
  | refl => exact hs
  | tail _ hLast ih => exact hMove _ _ ih hLast

/-! ## §5 Quiet moves -/

/-- A process that another one does not notice: it may be woken up, killed or given memory. -/
structure Woken (p r : Proc) : Prop where
  point : r.point = p.point
  parent : r.parent = p.parent
  pid : r.pid = p.pid
  channel : r.channel = p.channel
  exitCode : r.exitCode = p.exitCode
  state : r.state = p.state ∨ p.state = .sleeping ∧ r.state = .ready

theorem Woken.refl (p : Proc) : Woken p p := ⟨rfl, rfl, rfl, rfl, rfl, .inl rfl⟩

/-- A move without a change of the running process, by which no process ends or begins. -/
structure Quiet (s t : Table) : Prop where
  current : t.current = s.current
  running : t.running = s.running
  nextPid : t.nextPid = s.nextPid
  mounted : t.mounted = s.mounted
  woken : ∀ p, Woken (s.procs p) (t.procs p)

theorem wakeup_woken (s : Table) (channel : Channel) (p : Slot) :
    Woken (s.procs p) ((s.wakeup channel).procs p) := by
  simp only [wakeup]
  split
  · next h => exact ⟨rfl, rfl, rfl, rfl, rfl, .inr ⟨h.1, rfl⟩⟩
  · exact Woken.refl _

theorem Quiet.wakeup (s : Table) (channel : Channel) : Quiet s (s.wakeup channel) :=
  ⟨rfl, rfl, rfl, rfl, wakeup_woken s channel⟩

/-- What a timer interrupt does. -/
theorem timerInterrupt_cases (h : s.timerInterrupt = some t) :
    s.systicks + 1 ≠ 0 ∧
      (s.nextWakeupCall ≤ s.systicks + 1 ∧
          t = { ({ s with systicks := s.systicks + 1 }).wakeup .systicks with
            nextWakeupCall := 0xffffffff } ∨
        s.systicks + 1 < s.nextWakeupCall ∧ t = { s with systicks := s.systicks + 1 }) := by
  simp only [timerInterrupt] at h
  split at h
  · cases h
  · next hNow =>
    refine ⟨hNow, ?_⟩
    split at h
    · next hCall => exact .inl ⟨hCall, (Option.some.inj h).symm⟩
    · next hCall => exact .inr ⟨BitVec.not_le.mp hCall, (Option.some.inj h).symm⟩

theorem Quiet.tick (h : s.timerInterrupt = some t) : Quiet s t := by
  obtain ⟨-, ⟨-, rfl⟩ | ⟨-, rfl⟩⟩ := timerInterrupt_cases h
  · exact ⟨rfl, rfl, rfl, rfl, wakeup_woken { s with systicks := s.systicks + 1 } _⟩
  · exact ⟨rfl, rfl, rfl, rfl, fun p => Woken.refl _⟩

theorem Quiet.setProc {i : Slot} {f : Proc → Proc} (h : Woken (s.procs i) (f (s.procs i))) :
    Quiet s (s.setProc i f) := by
  refine ⟨rfl, rfl, rfl, rfl, fun p => ?_⟩
  rw [procs_setProc]
  split
  · next hEq => exact hEq ▸ h
  · exact Woken.refl _

theorem Quiet.note (notice : Notice) (h : Quiet s t) : Quiet s (t.note notice) :=
  ⟨h.current, h.running, h.nextPid, h.mounted, h.woken⟩

theorem Quiet.mark (s : Table) (i : Slot) : Quiet s (s.mark i) := by
  refine Quiet.note _ (Quiet.setProc ⟨rfl, rfl, rfl, rfl, rfl, ?_⟩)
  dsimp only
  split
  · next h => exact .inr ⟨h, rfl⟩
  · exact .inl rfl

end Table

end Xv6502.Kernel
