import Xv6502.Kernel.ProcessLife
import Xv6502.Kernel.ProcessRuns

/-!
# The Process State Machine

At every moment either one process is running and it is the current one, or the kernel is in
`scheduler()` and none is. Only a process that is ready or new is dispatched, a slot becomes
unused only when its zombie is reaped by its parent or its building is given up by its
forker, and no two processes have the same pid.
-/

namespace Xv6502.Kernel

open Xv6502.Emulator Xv6502.Lib

/-- The pids a notice is about. -/
def Notice.pids : Notice → List Word
  | .forked parent child => [parent, child]
  | .exited pid _ => [pid]
  | .reaped parent child _ => [parent, child]
  | .killed pid => [pid]
  | .slept _ _ _ => []

namespace Table

variable {s t : Table}

/-! ## §1 The pids -/

/-- The first pid that `pid_alloc` has not handed out. `next_pid` wraps around to 0 after the
    last one, where `pid_alloc` panics. -/
def pidLimit (s : Table) : Nat := if s.nextPid = 0 then 0x10000 else s.nextPid.toNat

/-- Pids are handed out once. -/
structure Pids (s : Table) : Prop where
  positive : ∀ p, (s.procs p).state ≠ .unused → (s.procs p).pid ≠ 0
  bound : ∀ p, (s.procs p).state ≠ .unused → (s.procs p).pid.toNat < s.pidLimit
  distinct : ∀ p q, (s.procs p).state ≠ .unused → (s.procs q).state ≠ .unused →
    (s.procs p).pid = (s.procs q).pid → p = q
  logged : ∀ notice ∈ s.log, ∀ pid ∈ notice.pids, pid.toNat < s.pidLimit
  init : Alive (s.procs initProcess)
  first : (s.procs initProcess).pid = 1

theorem pidLimit_of_ne {s : Table} (h : s.nextPid ≠ 0) : s.pidLimit = s.nextPid.toNat := if_neg h

theorem pidLimit_create (s : Table) (child : Slot) :
    (s.create child).pidLimit = s.nextPid.toNat + 1 := by
  have hBound := s.nextPid.isLt
  have hSucc : (s.nextPid + 1).toNat = (s.nextPid.toNat + 1) % 2 ^ 16 := by
    rw [BitVec.toNat_add]
    rfl
  have hEq : (s.create child).nextPid = s.nextPid + 1 := rfl
  rw [pidLimit, hEq]
  by_cases hWrap : s.nextPid + 1 = 0
  · rw [if_pos hWrap]
    have hZero : (s.nextPid + 1).toNat = 0 := congrArg BitVec.toNat hWrap
    omega
  · rw [if_neg hWrap]
    have hPositive : (s.nextPid + 1).toNat ≠ 0 := fun hZero => hWrap (BitVec.eq_of_toNat_eq hZero)
    omega

/-- Processes that keep their pids, and notices about pids in use. -/
theorem Pids.mono (h : Pids s) (hNext : t.nextPid = s.nextPid)
    (hUsed : ∀ p, (t.procs p).state ≠ .unused →
      (s.procs p).state ≠ .unused ∧ (t.procs p).pid = (s.procs p).pid)
    (hInit : Alive (t.procs initProcess))
    (hLog : ∀ notice ∈ t.log, notice ∈ s.log ∨
      ∀ pid ∈ notice.pids, ∃ p, (s.procs p).state ≠ .unused ∧ pid = (s.procs p).pid) :
    Pids t := by
  -- the limit is the pid to be given next, which has not moved
  have hLimit : t.pidLimit = s.pidLimit := by rw [pidLimit, pidLimit, hNext]
  refine ⟨?_, ?_, ?_, ?_, hInit, ?_⟩
  · intro p hp
    obtain ⟨hBefore, hPid⟩ := hUsed p hp
    rw [hPid]
    exact h.positive p hBefore
  · intro p hp
    obtain ⟨hBefore, hPid⟩ := hUsed p hp
    rw [hPid, hLimit]
    exact h.bound p hBefore
  · intro p q hp hq hSame
    obtain ⟨hBeforeP, hPidP⟩ := hUsed p hp
    obtain ⟨hBeforeQ, hPidQ⟩ := hUsed q hq
    rw [hPidP, hPidQ] at hSame
    exact h.distinct p q hBeforeP hBeforeQ hSame
  · intro notice hMem pid hPid
    rw [hLimit]
    obtain hOld | hNew := hLog notice hMem
    · exact h.logged notice hOld pid hPid
    · obtain ⟨p, hp, rfl⟩ := hNew pid hPid
      exact h.bound p hp
  · rw [(hUsed initProcess hInit.1).2]
    exact h.first

theorem Pids.create (h : Pids s) (hLife : Life s) {child : Slot} (hRun : s.running = true)
    (hState : (s.procs child).state = .unused) (hPid : s.nextPid ≠ 0) : Pids (s.create child) := by
  have hLimit := pidLimit_create s child
  have hBefore := pidLimit_of_ne hPid
  have hNow := procs_create s child
  have hSelf : s.self.state ≠ .unused := by
    rw [hLife.turn hRun]
    simp
  have hNotInit : initProcess ≠ child := by
    rintro rfl
    exact h.init.1 hState
  -- the other slots are those from before
  have hOther : ∀ p, p ≠ child → ((s.create child).procs p).state ≠ .unused →
      (s.procs p).state ≠ .unused ∧ ((s.create child).procs p).pid = (s.procs p).pid := by
    intro p hNe hp
    rw [hNow, if_neg hNe] at hp ⊢
    exact ⟨hp, rfl⟩
  have hChild : ((s.create child).procs child).pid = s.nextPid := by
    rw [hNow, if_pos rfl]
    rfl
  refine ⟨?_, ?_, ?_, ?_, ?_, ?_⟩
  · intro p hp
    by_cases hIs : p = child
    · rw [hIs, hChild]
      exact hPid
    · rw [(hOther p hIs hp).2]
      exact h.positive p (hOther p hIs hp).1
  · intro p hp
    rw [hLimit]
    by_cases hIs : p = child
    · rw [hIs, hChild]
      omega
    · rw [(hOther p hIs hp).2]
      have hOld := h.bound p (hOther p hIs hp).1
      omega
  · -- the new pid is above all others
    have hFresh : ∀ p, p ≠ child → ((s.create child).procs p).state ≠ .unused →
        ((s.create child).procs p).pid ≠ s.nextPid := by
      intro p hNe hp hSame
      rw [(hOther p hNe hp).2] at hSame
      have hOld := h.bound p (hOther p hNe hp).1
      rw [hSame] at hOld
      omega
    intro p q hp hq hSame
    by_cases hIsP : p = child
    · by_cases hIsQ : q = child
      · rw [hIsP, hIsQ]
      · rw [hIsP, hChild] at hSame
        exact absurd hSame.symm (hFresh q hIsQ hq)
    · by_cases hIsQ : q = child
      · rw [hIsQ, hChild] at hSame
        exact absurd hSame (hFresh p hIsP hp)
      · rw [(hOther p hIsP hp).2, (hOther q hIsQ hq).2] at hSame
        exact h.distinct p q (hOther p hIsP hp).1 (hOther q hIsQ hq).1 hSame
  · intro notice hMem pid hMemPid
    rw [hLimit]
    obtain rfl | hOld := List.mem_cons.mp hMem
    · simp only [Notice.pids, List.mem_cons, List.not_mem_nil, or_false] at hMemPid
      obtain rfl | rfl := hMemPid
      · have hParent := h.bound s.current hSelf
        rw [← self] at hParent
        omega
      · omega
    · have hBound := h.logged notice hOld pid hMemPid
      omega
  · rw [hNow, if_neg hNotInit]
    exact h.init
  · rw [hNow, if_neg hNotInit]
    exact h.first

theorem Released.alive {me : Slot} {p r : Proc} (h : Released me p r) (hAlive : Alive p) :
    Alive r := by
  have hState := h.state
  obtain ⟨hUsed, hBuilt, hZombie⟩ := hAlive
  refine ⟨?_, ?_, ?_⟩ <;> grind

theorem Pids.move (hLife : Life s) (h : Pids s) (hMove : Move s t) : Pids t := by
  obtain hSteady | ⟨child, hState, hPid, hRun, rfl⟩ | ⟨cause, -, hRun, hExits⟩ | ⟨i, hRun, hFrees⟩ :=
    hMove.cases hLife
  -- a steady move keeps every pid; its notice, if there is one, is about a process there is
  · refine h.mono hSteady.nextPid ?_ ((hSteady.keeps initProcess).alive h.init) ?_
    · intro p hp
      exact ⟨fun hUnused => hp ((hSteady.keeps p).unused.mpr hUnused), (hSteady.keeps p).pid⟩
    · intro notice hMem
      rcases hSteady.log with hLog | ⟨start, ticks, hLog⟩ | ⟨i, hUsed, hLog⟩
      · exact .inl (hLog ▸ hMem)
      · rw [hLog] at hMem
        exact (List.mem_cons.mp hMem).symm.imp_right fun hEq => by simp [hEq, Notice.pids]
      · rw [hLog] at hMem
        refine (List.mem_cons.mp hMem).symm.imp_right fun hEq => ?_
        rintro pid hPid
        rw [hEq, Notice.pids, List.mem_singleton] at hPid
        exact ⟨i, hUsed, hPid⟩
  · exact h.create hLife hRun hState hPid
  · have hSelf : s.self.state ≠ .unused := by
      rw [hLife.turn hRun]
      simp
    refine h.mono (by rw [hExits.rest]) ?_ ?_ ?_
    · intro p hp
      by_cases hIs : p = s.current
      · subst hIs
        exact ⟨hSelf, hExits.ended.pid⟩
      · have hState := (hExits.released p hIs).state
        exact ⟨by grind, (hExits.released p hIs).pid⟩
    · exact (hExits.released _ hExits.notInit.symm).alive h.init
    · intro notice hMem
      rw [hExits.rest] at hMem
      refine (List.mem_cons.mp hMem).symm.imp_right fun hEq => ?_
      rintro pid hPid
      rw [hEq, Notice.pids, List.mem_singleton] at hPid
      exact ⟨s.current, hSelf, hPid⟩
  · have hUsed : (s.procs i).state ≠ .unused := by
      rcases hFrees.log with ⟨hState, -⟩ | ⟨hState, -⟩ <;> simp [hState]
    -- "init" is alive, and what is freed is not
    have hNotInit : initProcess ≠ i := by
      rintro rfl
      have hAlive := h.init
      rcases hFrees.log with ⟨hState, -⟩ | ⟨hState, -⟩ <;> simp [Alive, hState] at hAlive
    refine h.mono hFrees.nextPid ?_ ((hFrees.keeps _ hNotInit).alive h.init) ?_
    · intro p hp
      have hNe : p ≠ i := by
        rintro rfl
        exact hp hFrees.state
      exact ⟨fun hUnused => hp ((hFrees.keeps p hNe).unused.mpr hUnused), (hFrees.keeps p hNe).pid⟩
    · intro notice hMem
      rcases hFrees.log with ⟨-, result, hLog⟩ | ⟨-, hLog⟩
      · rw [hLog] at hMem
        refine (List.mem_cons.mp hMem).symm.imp_right fun hEq => ?_
        rintro pid hPid
        simp only [hEq, Notice.pids, List.mem_cons, List.not_mem_nil, or_false] at hPid
        obtain rfl | rfl := hPid
        · refine ⟨s.current, ?_, rfl⟩
          rw [← self, hLife.turn hRun]
          simp
        · exact ⟨i, hUsed, rfl⟩
      · exact .inl (hLog ▸ hMem)

theorem Pids.boot (code : Page) (top : Word) : Pids (boot code top) := by
  -- "init" is the only process, with pid 1
  have hOnly : ∀ p, ((Table.boot code top).procs p).state ≠ .unused → p = initProcess := by
    intro p hUsed
    by_contra hNe
    exact hUsed (by simp [Table.boot, hNe, emptySlot])
  have hInit : (Table.boot code top).procs initProcess = initProc code top := by
    simp [Table.boot]
  refine ⟨?_, ?_, ?_, ?_, ?_, ?_⟩
  · intro p hp
    rw [hOnly p hp, hInit]
    show (1 : Word) ≠ 0
    decide
  · intro p hp
    rw [hOnly p hp, hInit]
    show 1 < 2
    decide
  · intro p q hp hq _
    rw [hOnly p hp, hOnly q hq]
  · intro notice hMem
    cases hMem
  · rw [hInit]
    simp [Alive, initProc]
  · rw [hInit]
    rfl

/-- The states and the pids of the processes, in every run from the boot on. -/
theorem run_life_pids {code : Page} {top : Word} {es : List Event}
    (hRun : Run Step (boot code top) es t) : Life t ∧ Pids t :=
  invariant_of_moves (fun _ _ hLife hPids hMove => hPids.move hLife hMove) hRun (Life.boot code top)
    (Pids.boot code top)

/-! ## §2 Turns -/

/-- The current process is the one that is running, or the kernel is in `scheduler()` and none
    is. -/
def OneRunning (s : Table) : Prop :=
  if s.running then ∀ p, (s.procs p).state = .running ↔ p = s.current
  else ∀ p, (s.procs p).state ≠ .running

theorem Life.oneRunning (h : Life s) : OneRunning s := by
  rw [OneRunning]
  split
  · next hRun =>
    intro p
    refine ⟨fun hState => (h.only p hState).2, ?_⟩
    rintro rfl
    exact h.turn hRun
  · next hIdle =>
    intro p hState
    exact hIdle (h.only p hState).1

/-- The current process runs, or has called `scheduler()` in `yield`, `sleep` or `sys_exit`. -/
def HasTurn (s : Table) : Prop :=
  s.running = true ∨ s.self.state = .ready ∨ s.self.state = .sleeping ∨ s.self.state = .zombie

theorem HasTurn.quiet (h : HasTurn s) (hQuiet : Quiet s t) : HasTurn t := by
  have hState := (hQuiet.woken s.current).state
  rw [HasTurn, hQuiet.running, self, hQuiet.current]
  rw [HasTurn, self] at h
  grind

theorem HasTurn.calm (h : HasTurn s) (hCalm : Calm s t) : HasTurn t := by
  cases hCalm with
  | wakeup channel => exact h.quiet (Quiet.wakeup s channel)
  | tick hTick => exact h.quiet (Quiet.tick hTick)
  | act r running _ hActs =>
    have hState := hActs.state
    rw [HasTurn, self_become]
    show running = true ∨ _
    grind
  | arm total _ => exact h
  | slept start ticks total _ _ => exact h
  | mount trap hRun _ _ => exact .inl hRun
  | exit cause _ _ hExit =>
    have hExits := exit_exits hExit
    have hCurrent : t.current = s.current := by rw [hExits.rest]
    rw [HasTurn, self, hCurrent]
    exact .inr (.inr (.inr hExits.ended.state))
  | create child trap hRun _ _ _ => exact .inl hRun
  | page child pid segment k page hRun _ => exact .inl hRun
  | publish child pid segment hRun _ => exact .inl hRun
  | mark i hRun _ _ _ _ => exact .inl hRun

theorem HasTurn.move (h : HasTurn s) (hMove : Move s t) : HasTurn t := by
  cases hMove with
  | calm hCalm => exact h.calm hCalm
  | dispatch p _ _ => exact .inl rfl
  | abandon child pid segment hRun _ => exact .inl hRun
  | reap i hRun _ _ => exact .inl hRun

/-- From the first dispatch on the CPU is given up only by `yield`, `sleep` and `sys_exit`. -/
theorem run_hasTurn {es : List Event} (hRun : Run Step s es t)
    (hFirst : HasTurn s ∨ ∃ p, .dispatch p ∈ es) : HasTurn t := by
  induction hRun with
  | nil s => exact hFirst.resolve_right (by simp)
  | cons hStep hRest ih =>
    refine ih ?_
    rcases hFirst with hTurn | ⟨p, hMem⟩
    · exact .inl (hStep.moves.invariant (fun _ _ => HasTurn.move) hTurn)
    · rcases List.mem_cons.mp hMem with hNow | hLater
      · subst hNow
        obtain ⟨-, h⟩ := Option.ite_none_right_eq_some.mp hStep
        obtain rfl := Option.some.inj h
        exact .inl (.inl rfl)
      · exact .inr ⟨p, hLater⟩

/-! ## §3 The end of a slot's use -/

/-- A step frees the slot of a process: `sys_wait` of its parent has found it a zombie, or
    `sys_fork` has failed to build it. -/
def Freed (s : Table) (e : Event) (p : Slot) : Prop :=
  (s.procs p).parent = some s.current ∧
    ((s.procs p).state = .zombie ∧ e = .proceed ∧ (∃ userExitCode, s.AtWait userExitCode) ∨
      (s.procs p).state = .building ∧ e = .clone false ∧
        ∃ pid segment, s.self.point = .forking p pid segment)

theorem Calm.used (hLife : Life s) (hCalm : Calm s t) {p : Slot}
    (hUsed : (s.procs p).state ≠ .unused) : (t.procs p).state ≠ .unused := by
  obtain hSteady | ⟨child, hState, -, -, rfl⟩ | ⟨cause, -, -, hExits⟩ := hCalm.cases hLife
  · exact fun hUnused => hUsed ((hSteady.keeps p).unused.mp hUnused)
  · have hNe : p ≠ child := by
      rintro rfl
      exact hUsed hState
    rw [procs_create, if_neg hNe]
    exact hUsed
  · by_cases hIs : p = s.current
    · rw [hIs, hExits.ended.state]
      simp
    · have hState := (hExits.released p hIs).state
      grind

theorem Calms.used (hLife : Life s) (hCalms : Calms s t) {p : Slot}
    (hUsed : (s.procs p).state ≠ .unused) : Life t ∧ (t.procs p).state ≠ .unused := by
  induction hCalms with
  | refl => exact ⟨hLife, hUsed⟩
  | tail _ hLast ih => exact ⟨ih.1.calm hLast, hLast.used ih.1 ih.2⟩

/-- `sys_wait` frees the zombie it finds and no other process. -/
theorem Reaps.used (hLife : Life s) {userExitCode : Word} {i : Slot}
    (h : Reaps s userExitCode i t) {p : Slot} (hNe : p ≠ i)
    (hUsed : (s.procs p).state ≠ .unused) : (t.procs p).state ≠ .unused := by
  obtain ⟨u, hCalms, hRun, hZombie, hParent, rfl⟩ := h.split
  obtain ⟨hLifeU, hUsedU⟩ := Calms.used hLife hCalms hUsed
  have hFrees := Frees.reap hLifeU hRun hZombie hParent
  exact fun hUnused => hUsedU ((hFrees.keeps p hNe).unused.mp hUnused)

theorem Step.freed (hLife : Life s) {e : Event} (hStep : Step s e t) {p : Slot}
    (hUsed : (s.procs p).state ≠ .unused) (hUnused : (t.procs p).state = .unused) :
    Freed s e p := by
  cases hStep.effect with
  | calm _ hCalms => exact absurd hUnused (Calms.used hLife hCalms hUsed).2
  | dispatch q _ _ hState hEq =>
    rw [hEq] at hUnused
    exact absurd (((Steady.dispatch hState).keeps p).unused.mp hUnused) hUsed
  | reap userExitCode i hEvent hWait hReaps =>
    by_cases hIs : p = i
    · subst hIs
      exact ⟨hReaps.parent, .inl ⟨hReaps.zombie, hEvent, userExitCode, hWait⟩⟩
    · exact absurd hUnused (hReaps.used hLife hIs hUsed)
  | abandon child pid segment hEvent hRun hPoint hEq =>
    have hFrees := Frees.abandon hLife hRun hPoint
    have hBuilds := hLife.builds s.current child pid segment hPoint
    by_cases hIs : p = child
    · subst hIs
      exact ⟨hBuilds.parent, .inr ⟨hBuilds.building, hEvent, pid, segment, hPoint⟩⟩
    · rw [hEq] at hUnused
      exact absurd ((hFrees.keeps p hIs).unused.mp hUnused) hUsed

/-! ## §4 The state machine -/

/-- **The process state machine**, in every state reached from the boot and at every step from
    there. Every step is a sequence of moves, and each kind of move changes the states of at most
    two processes. -/
theorem process_state_machine {code : Page} {top : Word} {es : List Event}
    (hRun : Run Step (boot code top) es s) :
    OneRunning s ∧
      ((∃ p, .dispatch p ∈ es) → HasTurn s) ∧
      (s.running = true → s.self.point ≠ .exited) ∧
      (∀ p q, (s.procs p).state ≠ .unused → (s.procs q).state ≠ .unused →
        (s.procs p).pid = (s.procs q).pid → p = q) ∧
      ∀ e t, Step s e t →
        (∀ p, e = .dispatch p → (s.procs p).state = .ready ∨ (s.procs p).state = .new) ∧
        ∀ p, (s.procs p).state ≠ .unused → (t.procs p).state = .unused → Freed s e p := by
  obtain ⟨hLife, hPids⟩ := run_life_pids hRun
  refine ⟨hLife.oneRunning, ?_, ?_, hPids.distinct, ?_⟩
  · intro hDispatched
    exact run_hasTurn hRun (.inr hDispatched)
  · intro hTurn hExited
    have hEnd := (hLife.fits s.current).exited hExited
    rw [← self, hLife.turn hTurn] at hEnd
    simp at hEnd
  · intro e t hStep
    refine ⟨?_, fun p => hStep.freed hLife⟩
    rintro p rfl
    obtain ⟨⟨-, hSearch⟩, -⟩ := Option.ite_none_right_eq_some.mp hStep
    simpa [runnable, ProcState.runnable] using search_some hSearch

/-- The first child of "init" is freed as a zombie in `sys_wait`. -/
theorem first_child_freed :
    ∃ log, Freed (reaping (fun _ => 0) 0x800 2 log) .proceed 1 := by
  have hRun := (boot_resting (fun _ => 0) 0x800).append
    (resting_reaping (fun _ => 0) 0x800 rfl (by decide))
  obtain ⟨-, -, -, -, hSteps⟩ := process_state_machine hRun
  refine ⟨_, (hSteps .proceed _ pair_reap).2 1 ?_ ?_⟩
  · simp [reaping, childAt]
  · simp [childAt]

end Table

end Xv6502.Kernel
