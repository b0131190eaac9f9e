import Xv6502.Kernel.ProcessExit

/-!
# A Parent and Its Children

The runs in which "init" forks a child, the child exits, and "init" reaps it, over and over:
the shortest life of a process from `sys_fork` to `sys_wait`, with every event spelled out.
-/

namespace Xv6502.Kernel

open Xv6502.Emulator Xv6502.Lib

namespace Table

/-! ## §1 Tables of two processes -/

/-- The table of "init" and at most one other process. -/
def pair (a b : Proc) (current : Slot) (running : Bool) (index : Slot) (nextPid : Word)
    (mounted : Bool) (log : List Notice) : Table where
  procs := fun i => if i = 0 then a else if i = 1 then b else emptySlot
  current := current
  running := running
  roundRobinIndex := index
  nextPid := nextPid
  systicks := 0
  nextWakeupCall := 0xffffffff
  mounted := mounted
  log := log

section Pair

variable (a b : Proc) (current : Slot) (running : Bool) (index : Slot) (nextPid : Word)
  (mounted : Bool) (log : List Notice)

@[simp] theorem pair_self_zero : (pair a b 0 running index nextPid mounted log).self = a := rfl

@[simp] theorem pair_self_one : (pair a b 1 running index nextPid mounted log).self = b := rfl

@[simp] theorem pair_current :
    (pair a b current running index nextPid mounted log).current = current := rfl

@[simp] theorem pair_running :
    (pair a b current running index nextPid mounted log).running = running := rfl

@[simp] theorem pair_index :
    (pair a b current running index nextPid mounted log).roundRobinIndex = index := rfl

@[simp] theorem pair_nextPid :
    (pair a b current running index nextPid mounted log).nextPid = nextPid := rfl

@[simp] theorem pair_mounted :
    (pair a b current running index nextPid mounted log).mounted = mounted := rfl

@[simp] theorem pair_procs_zero :
    (pair a b current running index nextPid mounted log).procs 0 = a := rfl

@[simp] theorem pair_procs_one :
    (pair a b current running index nextPid mounted log).procs 1 = b := rfl

@[simp] theorem pair_setProc_zero (f : Proc → Proc) :
    (pair a b current running index nextPid mounted log).setProc 0 f =
      pair (f a) b current running index nextPid mounted log := by
  simp only [pair, setProc, mk.injEq, and_true]
  funext i
  by_cases h : i = 0
  · simp [h]
  · simp [h]

@[simp] theorem pair_setProc_one (f : Proc → Proc) :
    (pair a b current running index nextPid mounted log).setProc 1 f =
      pair a (f b) current running index nextPid mounted log := by
  simp only [pair, setProc, mk.injEq, and_true]
  funext i
  by_cases h : i = 1
  · simp [h]
  · by_cases hZero : i = 0
    · simp [hZero]
    · simp [h, hZero]

@[simp] theorem pair_setSelf_zero (f : Proc → Proc) :
    (pair a b 0 running index nextPid mounted log).setSelf f =
      pair (f a) b 0 running index nextPid mounted log :=
  pair_setProc_zero ..

@[simp] theorem pair_setSelf_one (f : Proc → Proc) :
    (pair a b 1 running index nextPid mounted log).setSelf f =
      pair a (f b) 1 running index nextPid mounted log :=
  pair_setProc_one ..

@[simp] theorem pair_suspend_zero (state : ProcState) (point : Place) :
    (pair a b 0 running index nextPid mounted log).suspend state point =
      pair { a with state := state, point := point } b 0 false index nextPid mounted log := by
  rw [suspend, pair_setSelf_zero]
  rfl

@[simp] theorem pair_suspend_one (state : ProcState) (point : Place) :
    (pair a b 1 running index nextPid mounted log).suspend state point =
      pair a { b with state := state, point := point } 1 false index nextPid mounted log := by
  rw [suspend, pair_setSelf_one]
  rfl

@[simp] theorem pair_dispatch_zero :
    (pair a b current running index nextPid mounted log).dispatch 0 =
      pair { a with state := .running, channel := .null } b 0 true 1 nextPid mounted log := by
  rw [dispatch, pair_setProc_zero]
  rfl

@[simp] theorem pair_dispatch_one :
    (pair a b current running index nextPid mounted log).dispatch 1 =
      pair a { b with state := .running, channel := .null } 1 true 2 nextPid mounted log := by
  rw [dispatch, pair_setProc_one]
  rfl

@[simp] theorem pair_note (notice : Notice) :
    (pair a b current running index nextPid mounted log).note notice =
      pair a b current running index nextPid mounted (notice :: log) := rfl

@[simp] theorem pair_create :
    (pair a b 0 running index nextPid mounted log).create 1 =
      pair a (newborn (pair a b 0 running index nextPid mounted log)) 0 running index (nextPid + 1)
        mounted (.forked a.pid nextPid :: log) := by
  rw [create, pair_setProc_one]
  rfl

/-- What a `wakeup` does to a process. -/
def wakeProc (p : Proc) (channel : Channel) : Proc :=
  if p.state = .sleeping ∧ p.channel = channel then { p with state := .ready } else p

@[simp] theorem pair_wakeup (channel : Channel) :
    (pair a b current running index nextPid mounted log).wakeup channel =
      pair (wakeProc a channel) (wakeProc b channel) current running index nextPid mounted log := by
  simp only [pair, wakeup, mk.injEq, and_true]
  funext i
  by_cases h : i = 0
  · simp [h, wakeProc]
  · by_cases hOne : i = 1
    · simp [hOne, wakeProc]
    · simp [h, hOne, emptySlot]

/-- The only process that can be dispatched is found from everywhere. -/
theorem search_only {test : Slot → Bool} {p : Slot} (hTest : test p = true)
    (hOnly : ∀ q, test q = true → q = p) (i : Slot) : search test maxProcCount i = some p := by
  cases h : search test maxProcCount i with
  | none =>
    have hNone := search_none h p
    rw [hTest] at hNone
    cases hNone
  | some q => rw [hOnly q (search_some h)]

/-- Of two processes only the first can be dispatched. -/
theorem pair_search_zero (ha : a.state.runnable = true) (hb : b.state.runnable = false) (i : Slot) :
    search (pair a b current running index nextPid mounted log).runnable maxProcCount i =
      some 0 := by
  refine search_only ha ?_ i
  intro q hq
  by_contra hNe
  by_cases hOne : q = 1
  · simp [runnable, pair, hOne, hb] at hq
  · simp [runnable, pair, hOne, hNe, emptySlot, ProcState.runnable] at hq

theorem pair_search_one (ha : a.state.runnable = false) (hb : b.state.runnable = true) (i : Slot) :
    search (pair a b current running index nextPid mounted log).runnable maxProcCount i =
      some 1 := by
  refine search_only hb ?_ i
  intro q hq
  by_contra hNe
  by_cases hZero : q = 0
  · simp [runnable, pair, hZero, ha] at hq
  · simp [runnable, pair, hZero, hNe, emptySlot, ProcState.runnable] at hq

end Pair

/-! ## §2 The steps of a parent and its child -/

/-- What the running process does is a step. -/
theorem step_of_act {s t : Table} {e : Event} (hRun : s.running = true) (hAct : s.act e = some t) :
    Step s e t := by
  cases e
  case dispatch => cases hAct
  case tick => cases hAct
  case wakeup => cases hAct
  all_goals exact (if_pos hRun).trans hAct

theorem step_of_search {s : Table} {p : Slot} (hIdle : s.running = false)
    (hSearch : search s.runnable maxProcCount s.roundRobinIndex = some p) :
    Step s (.dispatch p) (s.dispatch p) :=
  if_pos ⟨hIdle, hSearch⟩

section Cycle

variable (code : Page) (top : Word)

/-- The record of "init" where it changes. -/
def parentAt (state : ProcState) (ax : Word) (channel : Channel) (point : Place) : Proc :=
  { initProc code top with
    state := state
    ax := ax
    channel := channel
    point := point }

/-- The record of its child where it changes. -/
def childAt (state : ProcState) (pid ax : Word) (exitCode : Byte)
    (pages : Segment → Option Page) (point : Place) : Proc :=
  { emptySlot with
    state := state
    pid := pid
    parent := some initProcess
    exitCode := exitCode
    ax := ax
    top := top
    pages := pages
    point := point }

variable {code top} {b : Proc} {index : Slot} {nextPid ax value : Word} {mounted running : Bool}
  {log : List Notice}

/-- "init" enters the kernel. -/
theorem pair_trap (trap : Trap) (ax' : Word) :
    Step (pair (parentAt code top .running ax .null .user) b 0 true index nextPid true log)
      (.trap trap ax')
      (pair (parentAt code top .running ax' .null (.trapped trap)) b 0 true index nextPid true
        log) := by
  simp [Step, perform, act, prologue, Proc.doomed, goto, parentAt, initProc, emptySlot]

/-- "init" returns from a system call. -/
theorem pair_return (value : Word) :
    Step (pair (parentAt code top .running ax .null (.returning value)) b 0 true index nextPid true
        log) .proceed
      (pair (parentAt code top .running value .null .user) b 0 true index nextPid true log) := by
  simp [Step, perform, act, proceed, epilogue, Proc.doomed, goto, parentAt, initProc, emptySlot]

/-- `sys_fork` builds a child in the second slot. -/
theorem pair_fork (hFree : b.state = .unused) (hPid : nextPid ≠ 0) :
    Step (pair (parentAt code top .running 0 .null (.trapped (.brk 0x46))) b 0 true index nextPid
        true log) (.fork true)
      (pair (parentAt code top .ready 0 .null (.forking 1 nextPid 0))
        (childAt top .building nextPid 0 0 (fun _ => none) .fresh) 0 false index (nextPid + 1) true
        (.forked 1 nextPid :: log)) := by
  have hFind : find (fun i => (Table.procs (pair (parentAt code top .running 0 .null
      (.trapped (.brk 0x46))) b 0 true index nextPid true log) i).state == .unused) = some 1 := by
    simp [find, maxProcCount, search, hFree, parentAt]
  apply step_of_act rfl
  rw [act, if_pos (by rfl), fork, hFind]
  simp only [if_true, pair_nextPid, if_neg hPid, pair_create, yield, pair_suspend_zero]
  rfl

/-- "init" is dispatched, the only process that is ready. -/
theorem pair_again (hState : b.state.runnable = false) {channel : Channel} {point : Place}
    {current : Slot} :
    Step (pair (parentAt code top .ready ax channel point) b current false index nextPid true log)
      (.dispatch 0)
      (pair (parentAt code top .running ax .null point) b 0 true 1 nextPid true log) := by
  have hSearch := pair_search_zero (parentAt code top .ready ax channel point) b current false index
    nextPid true log rfl hState index
  have hStep := step_of_search rfl hSearch
  rw [pair_dispatch_zero] at hStep
  exact hStep

/-- `sys_fork` copies the only page of "init". -/
theorem pair_clone {pid : Word} {c : Proc} :
    Step (pair (parentAt code top .running ax .null (.forking 1 pid 0)) c 0 true index nextPid true
        log) (.clone true)
      (pair (parentAt code top .ready ax .null (.forking 1 pid 1))
        { c with pages := Function.update c.pages 0 (some code) } 0 false index nextPid true
        log) := by
  apply step_of_act rfl
  show some (clone _ 1 pid 0 true) = _
  have hNext : nextMapped (parentAt code top .running ax .null (.forking 1 pid 0)).pages 0 =
      some 0 := rfl
  rw [clone, pair_self_zero, hNext]
  simp only [if_true, pair_setProc_one, yield, pair_suspend_zero]
  rfl

/-- `sys_fork` ends. -/
theorem pair_publish {pid : Word} {c : Proc} :
    Step (pair (parentAt code top .running ax .null (.forking 1 pid 1)) c 0 true index nextPid true
        log) (.clone true)
      (pair (parentAt code top .running ax .null (.returning pid)) { c with state := .new } 0 true
        index nextPid true log) := by
  apply step_of_act rfl
  show some (clone _ 1 pid 1 true) = _
  have hNext : nextMapped (parentAt code top .running ax .null (.forking 1 pid 1)).pages 1 =
      none := rfl
  rw [clone, pair_self_zero, hNext]
  simp only [pair_setProc_one, goto, pair_setSelf_zero]
  rfl

/-- The children of "init" in a table of two processes. -/
theorem pair_isChild {a c : Proc} (ha : a.parent = none) (i : Slot) :
    (pair a c 0 running index nextPid mounted log).isChild i =
      (i == 1 && c.state != .unused && c.parent == some 0) := by
  by_cases hZero : i = 0
  · simp [isChild, hZero, ha]
  · by_cases hOne : i = 1
    · simp [isChild, hOne]
    · simp [isChild, pair, hZero, hOne, emptySlot]

theorem find_only {test : Slot → Bool} {p : Slot} (hTest : test p = true)
    (hOnly : ∀ q, test q = true → q = p) : find test = some p :=
  search_only hTest hOnly 0

theorem find_nothing {test : Slot → Bool} (hNone : ∀ q, test q = false) : find test = none := by
  cases h : find test with
  | none => rfl
  | some p =>
    have hTest := search_some h
    rw [hNone p] at hTest
    cases hTest

theorem pair_waitTurn_sleep {a c : Proc} (ha : a.parent = none) (hParent : c.parent = some 0)
    (hUsed : c.state ≠ .unused) (hAlive : c.state ≠ .zombie) (hasChildren : Bool) :
    (pair a c 0 true index nextPid mounted log).waitTurn 0 hasChildren =
      (pair a c 0 true index nextPid mounted log).sleep (.proc 0) (.waiting 0) := by
  have hNone : find (fun i => (pair a c 0 true index nextPid mounted log).isChild i &&
      ((pair a c 0 true index nextPid mounted log).procs i).state == .zombie) = none := by
    refine find_nothing fun q => ?_
    rw [pair_isChild ha]
    by_cases hOne : q = 1
    · simp [hOne, hAlive]
    · simp [hOne]
  have hSome : find (pair a c 0 true index nextPid mounted log).isChild = some 1 := by
    refine find_only ?_ fun q hq => ?_
    · simp [pair_isChild ha, hParent, hUsed]
    · simp [pair_isChild ha] at hq
      exact hq.1.1
  rw [waitTurn, hNone, hSome]
  simp

theorem pair_waitTurn_reap {a c : Proc} (ha : a.parent = none) (hParent : c.parent = some 0)
    (hState : c.state = .zombie) (hasChildren : Bool) :
    (pair a c 0 true index nextPid mounted log).waitTurn 0 hasChildren =
      (pair a c 0 true index nextPid mounted log).reap 1 := by
  have hSome : find (fun i => (pair a c 0 true index nextPid mounted log).isChild i &&
      ((pair a c 0 true index nextPid mounted log).procs i).state == .zombie) = some 1 := by
    refine find_only ?_ fun q hq => ?_
    · simp [pair_isChild ha, hParent, hState]
    · simp [pair_isChild ha] at hq
      exact hq.1.1.1
  rw [waitTurn, hSome]
  simp

/-- "init" waits for its child. -/
theorem pair_wait {pid : Word} {pages : Segment → Option Page} :
    Step (pair (parentAt code top .running 0 .null (.trapped (.brk 0x57)))
        (childAt top .new pid 0 0 pages .fresh) 0 true index nextPid true log) .proceed
      (pair (parentAt code top .sleeping 0 (.proc 0) (.waiting 0))
        (childAt top .new pid 0 0 pages .fresh) 0 false index nextPid true log) := by
  apply step_of_act rfl
  show some (waitTurn _ 0 false) = _
  rw [pair_waitTurn_sleep rfl rfl (by simp [childAt]) (by simp [childAt])]
  rw [sleep, pair_setSelf_zero, pair_suspend_zero]
  rfl

/-- The child is dispatched for the first time. -/
theorem pair_start {pid : Word} {pages : Segment → Option Page} {channel : Channel} {point : Place} :
    Step (pair (parentAt code top .sleeping ax channel point)
        (childAt top .new pid 0 0 pages .fresh) 0 false index nextPid true log) (.dispatch 1)
      (pair (parentAt code top .sleeping ax channel point)
        (childAt top .running pid 0 0 pages .fresh) 1 true 2 nextPid true log) := by
  have hSearch := pair_search_one (parentAt code top .sleeping ax channel point)
    (childAt top .new pid 0 0 pages .fresh) 0 false index nextPid true log rfl rfl index
  have hStep := step_of_search rfl hSearch
  rw [pair_dispatch_one] at hStep
  exact hStep

/-- The child enters user mode. -/
theorem pair_enter {a : Proc} {pid : Word} {pages : Segment → Option Page} :
    Step (pair a (childAt top .running pid 0 0 pages .fresh) 1 true index nextPid true log) .proceed
      (pair a (childAt top .running pid 0 0 pages .user) 1 true index nextPid true log) := by
  simp [Step, perform, act, proceed, epilogue, Proc.doomed, goto, childAt, emptySlot]

/-- The child calls `sys_exit`. -/
theorem pair_call {a : Proc} {pid : Word} {pages : Segment → Option Page} (number : Byte)
    (ax' : Word) :
    Step (pair a (childAt top .running pid 0 0 pages .user) 1 true index nextPid true log)
      (.trap (.brk number) ax')
      (pair a (childAt top .running pid ax' 0 pages (.trapped (.brk number))) 1 true index nextPid
        true log) := by
  simp [Step, perform, act, prologue, Proc.doomed, goto, childAt, emptySlot]

/-- The child ends, and "init" wakes up. -/
theorem pair_exit {pid : Word} {pages : Segment → Option Page} (code' : Word) :
    Step (pair (parentAt code top .sleeping 0 (.proc 0) (.waiting 0))
        (childAt top .running pid code' 0 pages (.trapped (.brk 0x45))) 1 true index nextPid true
        log) .proceed
      (pair (parentAt code top .ready 0 (.proc 0) (.waiting 0))
        (childAt top .zombie pid code' (code'.setWidth 8) (fun _ => none) .exited) 1 false index
        nextPid true (.exited pid (.called (code'.setWidth 8)) :: log)) := by
  generalize hs : pair (parentAt code top .sleeping 0 (.proc 0) (.waiting 0))
    (childAt top .running pid code' 0 pages (.trapped (.brk 0x45))) 1 true index nextPid true log = s
  -- "init" waits for its child, so the end of the child wakes it up
  have hEnded : s.ended = pair (parentAt code top .ready 0 (.proc 0) (.waiting 0))
      (childAt top .zombie pid code' (code'.setWidth 8) (fun _ => none) .exited) 1 false index
      nextPid true log := by
    rw [← hs, ended, emptied, pair_setSelf_one, pair_self_one]
    show suspend (wakeup (pair _ _ _ _ _ _ _ _) (.proc 0)) _ _ = _
    rw [pair_wakeup, pair_suspend_one]
    rfl
  have hAct : s.act .proceed = s.exit (.called (code'.setWidth 8)) := by
    rw [← hs]
    rfl
  apply step_of_act (by rw [← hs, pair_running])
  rw [hAct, exit_childless, hEnded]
  · rfl
  · rw [← hs]
    simp [initProcess]
  · rw [hEnded]
    intro i
    by_cases hZero : i = 0
    · simp [hZero, parentAt, initProc, emptySlot]
    · by_cases hOne : i = 1
      · simp [hOne, childAt, initProcess]
      · simp [pair, hZero, hOne, emptySlot]

/-- "init" reaps its child. -/
theorem pair_reap {pid ax' : Word} {exitCode : Byte} {pages : Segment → Option Page} :
    Step (pair (parentAt code top .running 0 .null (.waiting 0))
        (childAt top .zombie pid ax' exitCode pages .exited) 0 true index nextPid true log) .proceed
      (pair (parentAt code top .running 0 .null (.returning ((pid.setWidth 8).setWidth 16)))
        (childAt top .unused pid ax' exitCode pages .exited) 0 true index nextPid true
        (.reaped 1 pid ((pid.setWidth 8).setWidth 16) :: log)) := by
  apply step_of_act rfl
  show some (waitTurn _ 0 true) = _
  rw [pair_waitTurn_reap rfl rfl rfl, reap, free, pair_setProc_one, goto, pair_setSelf_zero, pair_note]
  rfl

/-! ## §3 Whole lives -/

variable (code top)

/-- "init" in user mode, beside a slot that is free. -/
def resting (ax : Word) (b : Proc) (index : Slot) (nextPid : Word) (log : List Notice) : Table :=
  pair (parentAt code top .running ax .null .user) b 0 true index nextPid true log

/-- "init" is about to find its child a zombie. -/
def reaping (pid : Word) (log : List Notice) : Table :=
  pair (parentAt code top .running 0 .null (.waiting 0))
    (childAt top .zombie pid 7 7 (fun _ => none) .exited) 0 true 1 (pid + 1) true log

/-- The first trap of all, by which the file system is mounted. -/
def firstTrap : List Event := [.dispatch 0, .proceed, .trap .irq 0, .mounted, .proceed]

/-- The table at the first call of `scheduler()`. -/
theorem boot_eq_pair : boot code top =
    pair (parentAt code top .new 0 .null .fresh) emptySlot 0 false 0 2 false [] := by
  simp only [boot, pair, initProcess, mk.injEq, and_true]
  funext i
  by_cases h : i = 0
  · simp [h, parentAt, initProc, emptySlot]
  · simp [h]

variable {code top} in
/-- "init" is dispatched for the first time. -/
theorem pair_first_dispatch :
    Step (pair (parentAt code top .new 0 .null .fresh) emptySlot 0 false 0 2 false []) (.dispatch 0)
      (pair (parentAt code top .running 0 .null .fresh) emptySlot 0 true 1 2 false []) := by
  have hSearch := pair_search_zero (parentAt code top .new 0 .null .fresh) emptySlot 0 false 0 2
    false [] rfl rfl 0
  have hStep := step_of_search rfl hSearch
  rw [pair_dispatch_zero] at hStep
  exact hStep

variable {code top} in
/-- It enters user mode. -/
theorem pair_first_enter :
    Step (pair (parentAt code top .running 0 .null .fresh) emptySlot 0 true 1 2 false []) .proceed
      (pair (parentAt code top .running 0 .null .user) emptySlot 0 true 1 2 false []) := by
  simp [Step, perform, act, proceed, epilogue, Proc.doomed, goto, parentAt, initProc, emptySlot]

variable {code top} in
/-- The first timer interrupt, by which the file system is mounted. -/
theorem pair_first_trap :
    Step (pair (parentAt code top .running 0 .null .user) emptySlot 0 true 1 2 false [])
      (.trap .irq 0)
      (pair (parentAt code top .running 0 .null (.mounting .irq)) emptySlot 0 true 1 2 true []) := by
  simp [Step, perform, act, prologue, Proc.doomed, goto, parentAt, initProc, emptySlot]
  rfl

variable {code top} in
theorem pair_first_mounted :
    Step (pair (parentAt code top .running 0 .null (.mounting .irq)) emptySlot 0 true 1 2 true [])
      .mounted
      (pair (parentAt code top .running 0 .null (.trapped .irq)) emptySlot 0 true 1 2 true []) := by
  simp [Step, perform, act, goto, parentAt]

variable {code top} in
theorem pair_first_return :
    Step (pair (parentAt code top .running 0 .null (.trapped .irq)) emptySlot 0 true 1 2 true [])
      .proceed (resting code top 0 emptySlot 1 2 []) := by
  simp [Step, perform, act, proceed, epilogue, Proc.doomed, goto, resting, parentAt, initProc,
    emptySlot]

theorem boot_resting :
    Run Step (boot code top) firstTrap (resting code top 0 emptySlot 1 2 []) := by
  rw [boot_eq_pair]
  refine .cons pair_first_dispatch (.cons pair_first_enter (.cons pair_first_trap ?_))
  exact .cons pair_first_mounted (.cons pair_first_return (.nil _))

/-- The page table of a child of "init". -/
def childPages : Segment → Option Page := Function.update (fun _ => none) 0 (some code)

/-- "init" forks its first child and returns to user mode. -/
def forkOnce : List Event :=
  firstTrap ++ [.trap (.brk 0x46) 0, .fork true, .dispatch 0, .clone true, .dispatch 0, .clone true,
    .proceed]

theorem boot_forked :
    Run Step (boot code top) forkOnce
      (pair (parentAt code top .running 2 .null .user)
        (childAt top .new 2 0 0 (childPages code) .fresh) 0 true 1 3 true [.forked 1 2]) := by
  refine (boot_resting code top).append (.cons (pair_trap (.brk 0x46) 0) ?_)
  refine .cons (pair_fork rfl (by decide)) (.cons (pair_again rfl) (.cons pair_clone ?_))
  exact .cons (pair_again rfl) (.cons pair_publish (.cons (pair_return 2) (.nil _)))

/-- "init" forks, its child exits with code 7, and "init" is about to reap it. -/
def forkAndExit : List Event :=
  [.trap (.brk 0x46) 0, .fork true, .dispatch 0, .clone true, .dispatch 0, .clone true, .proceed,
    .trap (.brk 0x57) 0, .proceed, .dispatch 1, .proceed, .trap (.brk 0x45) 7, .proceed, .dispatch 0]

theorem resting_reaping {ax : Word} {b : Proc} {index : Slot} {nextPid : Word} {log : List Notice}
    (hFree : b.state = .unused) (hPid : nextPid ≠ 0) :
    Run Step (resting code top ax b index nextPid log) forkAndExit
      (reaping code top nextPid (.exited nextPid (.called 7) :: .forked 1 nextPid :: log)) := by
  refine .cons (pair_trap (.brk 0x46) 0) (.cons (pair_fork hFree hPid) ?_)
  refine .cons (pair_again rfl) (.cons pair_clone ?_)
  refine .cons (pair_again rfl) (.cons pair_publish (.cons (pair_return nextPid) ?_))
  refine .cons (pair_trap (.brk 0x57) 0) (.cons pair_wait (.cons pair_start ?_))
  refine .cons pair_enter (.cons (pair_call 0x45 7) (.cons (pair_exit 7) ?_))
  exact .cons (pair_again rfl) (.nil _)

/-- "init" reaps its child and returns to user mode. -/
theorem reaping_resting (pid : Word) (log : List Notice) :
    Run Step (reaping code top pid log) [.proceed, .proceed]
      (resting code top ((pid.setWidth 8).setWidth 16)
        (childAt top .unused pid 7 7 (fun _ => none) .exited) 1 (pid + 1)
        (.reaped 1 pid ((pid.setWidth 8).setWidth 16) :: log)) :=
  .cons pair_reap (.cons (pair_return _) (.nil _))

/-- The children come and go, one pid after the other. -/
theorem boot_resting_at (n : Nat) (hn : n + 2 < 0x10000) :
    ∃ es ax b log, b.state = .unused ∧
      Run Step (boot code top) es (resting code top ax b 1 (BitVec.ofNat 16 (n + 2)) log) := by
  induction n with
  | zero => exact ⟨firstTrap, 0, emptySlot, [], rfl, boot_resting code top⟩
  | succ n ih =>
    obtain ⟨es, ax, b, log, hFree, hRun⟩ := ih (by omega)
    have hPid : BitVec.ofNat 16 (n + 2) ≠ 0 := by
      intro hZero
      have hToNat := congrArg BitVec.toNat hZero
      rw [BitVec.toNat_ofNat, Nat.mod_eq_of_lt (by omega)] at hToNat
      simp at hToNat
    have hNext : BitVec.ofNat 16 (n + 2) + 1 = BitVec.ofNat 16 (n + 1 + 2) := by
      show BitVec.ofNat 16 (n + 2) + BitVec.ofNat 16 1 = _
      rw [← BitVec.ofNat_add]
    have hLife := (hRun.append (resting_reaping code top hFree hPid)).append
      (reaping_resting code top _ _)
    rw [hNext] at hLife
    exact ⟨_, _, _, _, rfl, hLife⟩

/-- Every pid from 2 on is the pid of a child that "init" reaps. -/
theorem boot_reaping (pid : Word) (hPid : 2 ≤ pid.toNat) :
    ∃ es log, Run Step (boot code top) es (reaping code top pid log) := by
  obtain ⟨es, ax, b, log, hFree, hRun⟩ := boot_resting_at code top (pid.toNat - 2) (by omega)
  have hEq : BitVec.ofNat 16 (pid.toNat - 2 + 2) = pid := by
    rw [Nat.sub_add_cancel hPid]
    simp
  have hNe : pid ≠ 0 := by
    rintro rfl
    simp at hPid
  rw [hEq] at hRun
  exact ⟨_, _, hRun.append (resting_reaping code top hFree hNe)⟩

end Cycle

end Table

end Xv6502.Kernel
