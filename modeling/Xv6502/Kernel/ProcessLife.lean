import Xv6502.Kernel.ProcessExit

/-!
# The States of the Processes

Where each process stands fits the state it is in, at most one process is running, and a
process in `sys_fork` has the child it builds. On this rests the description of a move that
the other invariants use: it builds a process, ends one, frees one, or leaves all of them the
processes they are.
-/

namespace Xv6502.Kernel

open Xv6502.Emulator Xv6502.Lib

/-! ## §1 The places of a process -/

/-- The state of a process fits the place it stands at. -/
structure Proc.Fits (p : Proc) : Prop where
  zombie : p.state = .zombie → p.point = .exited
  exited : p.point = .exited → p.state = .zombie ∨ p.state = .unused
  fresh : p.state = .building ∨ p.state = .new → p.point = .fresh
  user : p.point = .user → p.state = .running
  trapped : ∀ trap, p.point = .trapped trap → p.state = .running

/-- A process that is woken up stays where it stands. -/
theorem Proc.Fits.woken {p r : Proc} (h : p.Fits) (hPoint : r.point = p.point)
    (hState : r.state = p.state ∨ p.state = .sleeping ∧ r.state = .ready) : r.Fits := by
  refine ⟨?_, ?_, ?_, ?_, ?_⟩
  · have hZombie := h.zombie
    grind
  · have hExited := h.exited
    grind
  · have hFresh := h.fresh
    grind
  · have hUser := h.user
    grind
  · have hTrapped := h.trapped
    grind

namespace Table

variable {s t : Table}

/-! ## §2 The invariant -/

/-- A process in `sys_fork` with the child it builds. -/
structure Builds (s : Table) (p child : Slot) (pid : Word) : Prop where
  state : (s.procs p).state = .ready ∨ (s.procs p).state = .running
  building : (s.procs child).state = .building
  parent : (s.procs child).parent = some p
  pid : (s.procs child).pid = pid

/-- The states of the processes. -/
structure Life (s : Table) : Prop where
  turn : s.running = true → s.self.state = .running
  only : ∀ p, (s.procs p).state = .running → s.running = true ∧ p = s.current
  fits : ∀ p, (s.procs p).Fits
  builds : ∀ p child pid segment, (s.procs p).point = .forking child pid segment →
    Builds s p child pid

namespace Life

/-- The child that is being built is not the running process. -/
theorem building_ne (h : Life s) (hRun : s.running = true) {child : Slot}
    (hState : (s.procs child).state = .building) : child ≠ s.current := by
  rintro rfl
  have hTurn := h.turn hRun
  rw [self, hState] at hTurn
  cases hTurn

theorem quiet (h : Life s) (hQuiet : Quiet s t) : Life t := by
  -- a quiet move wakes sleepers up and changes nothing else
  have hWoken := hQuiet.woken
  refine ⟨?_, ?_, ?_, ?_⟩
  · intro hRun
    have hTurn := h.turn (hQuiet.running ▸ hRun)
    have hState := (hWoken s.current).state
    rw [self, hQuiet.current]
    rw [self] at hTurn
    grind
  · intro p hState
    have hBefore := (hWoken p).state
    rw [hQuiet.running, hQuiet.current]
    exact h.only p (by grind)
  · intro p
    exact (h.fits p).woken (hWoken p).point (hWoken p).state
  · intro p child pid segment hPoint
    rw [(hWoken p).point] at hPoint
    have hBuilds := h.builds p child pid segment hPoint
    have hBefore := (hWoken p).state
    have hBeforeChild := (hWoken child).state
    have hState := hBuilds.state
    have hBuilding := hBuilds.building
    refine ⟨by grind, by grind, ?_, ?_⟩
    · rw [(hWoken child).parent, hBuilds.parent]
    · rw [(hWoken child).pid, hBuilds.pid]

theorem dispatch (h : Life s) {p : Slot} (hIdle : s.running = false)
    (hState : (s.procs p).state.runnable = true) : Life (s.dispatch p) := by
  have hNow := procs_dispatch s p
  have hReady : (s.procs p).state = .ready ∨ (s.procs p).state = .new := by
    simpa [ProcState.runnable] using hState
  refine ⟨?_, ?_, ?_, ?_⟩
  · intro _
    rw [self, hNow]
    simp [Table.dispatch]
  · intro q hRunning
    rw [hNow] at hRunning
    split at hRunning
    · next hEq => exact ⟨rfl, hEq⟩
    · have hTurn := (h.only q hRunning).1
      rw [hIdle] at hTurn
      cases hTurn
  · intro q
    rw [hNow]
    split
    · have hExited := (h.fits p).exited
      refine ⟨?_, ?_, ?_, fun _ => rfl, fun _ _ => rfl⟩ <;> grind
    · exact h.fits q
  · intro q child pid segment hPoint
    have hBefore : (s.procs q).point = .forking child pid segment := by
      rw [hNow] at hPoint
      grind
    have hBuilds := h.builds q child pid segment hBefore
    -- the child is not dispatched, since it is still being built
    have hChild : child ≠ p := by
      rintro rfl
      have hBuilding := hBuilds.building
      grind
    have hSame : (s.dispatch p).procs child = s.procs child := by rw [hNow, if_neg hChild]
    refine ⟨?_, hSame ▸ hBuilds.building, hSame ▸ hBuilds.parent, hSame ▸ hBuilds.pid⟩
    rw [hNow]
    split
    · exact .inr rfl
    · exact hBuilds.state

/-- Only the records of the processes, the current one and whether it runs matter. -/
theorem congr (h : Life s) (hProcs : t.procs = s.procs) (hCurrent : t.current = s.current)
    (hRunning : t.running = s.running) : Life t := by
  refine ⟨?_, ?_, ?_, ?_⟩
  · rw [self, hProcs, hCurrent, hRunning]
    exact h.turn
  · rw [hProcs, hCurrent, hRunning]
    exact h.only
  · rw [hProcs]
    exact h.fits
  · intro p child pid segment hPoint
    rw [hProcs] at hPoint
    have hBuilds := h.builds p child pid segment hPoint
    exact ⟨hProcs ▸ hBuilds.state, hProcs ▸ hBuilds.building, hProcs ▸ hBuilds.parent,
      hProcs ▸ hBuilds.pid⟩

/-- The running process replaces its record. -/
theorem replace (h : Life s) {r : Proc} {running : Bool} (hRun : s.running = true)
    (hState : running = true ∧ r.state = .running ∨
      running = false ∧ (r.state = .ready ∨ r.state = .sleeping))
    (hFits : r.Fits)
    (hForking : ∀ child pid segment, r.point = .forking child pid segment →
      r.state ≠ .sleeping ∧ (s.procs child).state = .building ∧
        (s.procs child).parent = some s.current ∧ (s.procs child).pid = pid) :
    Life (s.become r running) := by
  have hNow := procs_become s r running
  refine ⟨?_, ?_, ?_, ?_⟩
  · intro hStill
    have hStill : running = true := hStill
    rw [self_become]
    grind
  · intro q hRunning
    rw [hNow] at hRunning
    split at hRunning
    · next hEq =>
      refine ⟨?_, hEq⟩
      show running = true
      grind
    · next hNe => exact absurd (h.only q hRunning).2 hNe
  · intro q
    rw [hNow]
    split
    · exact hFits
    · exact h.fits q
  · intro q child pid segment hPoint
    rw [hNow] at hPoint
    -- a child being built is not the process that runs
    have hSame : (s.procs child).state = .building →
        (s.become r running).procs child = s.procs child := by
      intro hBuilding
      rw [hNow, if_neg (h.building_ne hRun hBuilding)]
    split at hPoint
    · next hEq =>
      obtain ⟨hAwake, hBuilding, hParent, hPid⟩ := hForking child pid segment hPoint
      refine ⟨?_, ?_, ?_, ?_⟩
      · rw [hNow, if_pos hEq]
        grind
      · rw [hSame hBuilding, hBuilding]
      · rw [hSame hBuilding, hParent, hEq]
      · rw [hSame hBuilding, hPid]
    · next hNe =>
      have hBuilds := h.builds q child pid segment hPoint
      refine ⟨?_, ?_, ?_, ?_⟩
      · rw [hNow, if_neg hNe]
        exact hBuilds.state
      · rw [hSame hBuilds.building, hBuilds.building]
      · rw [hSame hBuilds.building, hBuilds.parent]
      · rw [hSame hBuilds.building, hBuilds.pid]

/-- The running process acts on its own record. -/
theorem act (h : Life s) {r : Proc} {running : Bool} (hRun : s.running = true)
    (hActs : Acts s r running) : Life (s.become r running) := by
  have hTurn := h.turn hRun
  have hState := hActs.state
  -- which places the process may come to, and from which ones
  have hEnters := hActs.enters
  refine h.replace hRun ?_ ?_ ?_
  · grind
  · refine ⟨by grind, ?_, by grind, ?_, ?_⟩
    · intro hPoint
      rw [hPoint] at hEnters
      have hBefore := (h.fits s.current).exited hEnters.2
      rw [← self] at hBefore
      grind
    · intro hPoint
      rw [hPoint] at hEnters
      have hStill := hEnters.1
      grind
    · intro trap hPoint
      rw [hPoint] at hEnters
      have hStill := hEnters.1
      grind
  · intro child pid segment hPoint
    rw [hPoint] at hEnters
    refine ⟨?_, ?_⟩
    · have hHow := hEnters.1
      grind
    · obtain ⟨-, ⟨segment, hBefore⟩ | hFacts⟩ := hEnters
      · have hBuilds := h.builds s.current child pid segment hBefore
        exact ⟨hBuilds.building, hBuilds.parent, hBuilds.pid⟩
      · exact hFacts

theorem goto (h : Life s) (hRun : s.running = true) {point : Place}
    (hEnters : s.Enters s.self.state true point) : Life (s.goto point) := by
  rw [goto_eq_become, hRun]
  exact h.act hRun ⟨rfl, rfl, rfl, rfl, .inl ⟨rfl, rfl, rfl⟩, hEnters⟩

theorem returning (h : Life s) (hRun : s.running = true) (value : Word) :
    Life (s.goto (.returning value)) :=
  h.goto hRun trivial

theorem mount (h : Life s) (trap : Trap) (hRun : s.running = true) :
    Life { s.goto (.mounting trap) with mounted := true } := by
  have hTurn := h.turn hRun
  have hGoto : Life (s.goto (.mounting trap)) := by
    rw [goto_eq_become, hRun]
    refine h.replace hRun (.inl ⟨rfl, hTurn⟩) ?_ ?_
    · constructor <;> simp [hTurn]
    · intro child pid segment hPoint
      cases hPoint
  exact hGoto.congr rfl rfl rfl

/-- A process that does not run and that nobody builds is replaced. -/
theorem other (h : Life s) {i : Slot} {f : Proc → Proc} (hOther : s.running = true → i ≠ s.current)
    (hState : (f (s.procs i)).state ≠ .running) (hFits : (f (s.procs i)).Fits)
    (hPoint : ∀ child pid segment, (f (s.procs i)).point ≠ .forking child pid segment)
    (hFree : ∀ p pid segment, (s.procs p).point ≠ .forking i pid segment) :
    Life (s.setProc i f) := by
  have hNow := fun q => procs_setProc s i q f
  refine ⟨?_, ?_, ?_, ?_⟩
  · intro hRun
    rw [self, setProc_current, hNow, if_neg (Ne.symm (hOther hRun))]
    exact h.turn hRun
  · intro q hRunning
    rw [hNow] at hRunning
    split at hRunning
    · exact absurd hRunning hState
    · exact h.only q hRunning
  · intro q
    rw [hNow]
    split
    · exact hFits
    · exact h.fits q
  · intro q child pid segment hForking
    rw [hNow] at hForking
    split at hForking
    · exact absurd hForking (hPoint child pid segment)
    · next hNe =>
      have hBuilds := h.builds q child pid segment hForking
      -- the child of a fork is being built, and `i` is not
      have hChild : child ≠ i := by
        rintro rfl
        exact hFree q pid segment hForking
      have hSame : (s.setProc i f).procs child = s.procs child := by rw [hNow, if_neg hChild]
      refine ⟨?_, hSame ▸ hBuilds.building, hSame ▸ hBuilds.parent, hSame ▸ hBuilds.pid⟩
      rw [hNow, if_neg hNe]
      exact hBuilds.state

/-- A process that is not being built has no forker. -/
theorem no_forker (h : Life s) {i : Slot} (hState : (s.procs i).state ≠ .building) (p : Slot)
    (pid : Word) (segment : Nat) : (s.procs p).point ≠ .forking i pid segment :=
  fun hPoint => hState (h.builds p i pid segment hPoint).building

theorem create (h : Life s) {child : Slot} (hRun : s.running = true)
    (hState : (s.procs child).state = .unused) : Life (s.create child) := by
  have hOther : child ≠ s.current := by
    rintro rfl
    have hTurn := h.turn hRun
    rw [self, hState] at hTurn
    cases hTurn
  have hChild : Life (s.setProc child fun _ => s.newborn) := by
    refine h.other (fun _ => hOther) ?_ ?_ ?_ (h.no_forker (by simp [hState]))
    · simp [newborn]
    · constructor <;> simp [newborn]
    · simp [newborn]
  exact hChild.congr rfl rfl rfl

theorem reap (h : Life s) {i : Slot} (hRun : s.running = true)
    (hState : (s.procs i).state = .zombie) : Life (s.reap i) := by
  have hOther : i ≠ s.current := by
    rintro rfl
    have hTurn := h.turn hRun
    rw [self, hState] at hTurn
    cases hTurn
  have hPoint := (h.fits i).zombie hState
  have hFree : Life (s.free i) := by
    refine h.other (fun _ => hOther) (by simp) ?_ (by simp [hPoint]) (h.no_forker (by simp [hState]))
    constructor <;> simp [hPoint]
  exact (hFree.returning hRun _).congr rfl rfl rfl

/-- The end of `sys_fork`: its child is published or given up. -/
theorem finish (h : Life s) {child : Slot} {pid : Word} {segment : Nat} {f : Proc → Proc}
    {value : Word} (hRun : s.running = true) (hPoint : s.self.point = .forking child pid segment)
    (hState : (f (s.procs child)).state = .new ∨ (f (s.procs child)).state = .unused)
    (hSame : (f (s.procs child)).point = (s.procs child).point) :
    Life ((s.setProc child f).goto (.returning value)) := by
  have hBuilds := h.builds s.current child pid segment hPoint
  have hOther := h.building_ne hRun hBuilds.building
  have hFresh := (h.fits child).fresh (.inl hBuilds.building)
  have hChild : (s.goto (.returning value)).procs child = s.procs child := by
    rw [goto_eq_become, procs_become, if_neg hOther]
  rw [setProc_goto_comm s f _ hOther]
  -- the forker has left `sys_fork` when its child changes, so nobody builds it
  refine (h.returning hRun value).other (fun _ => hOther) ?_ ?_ ?_ ?_
  · rw [hChild]
    grind
  · rw [hChild]
    constructor <;> grind
  · intro child' pid' segment'
    rw [hChild, hSame, hFresh]
    simp
  · intro p pid' segment'
    rw [goto_eq_become, procs_become]
    split
    · simp
    · next hNe =>
      intro hForking
      have hParent := (h.builds p child pid' segment' hForking).parent
      rw [hBuilds.parent] at hParent
      exact hNe (Option.some.inj hParent).symm

theorem exit (h : Life s) {cause : ExitCause} (hRun : s.running = true)
    (hExits : Exits s cause t) : Life t := by
  have hIdle : t.running = false := by rw [hExits.rest]
  have hEnded := hExits.ended
  refine ⟨?_, ?_, ?_, ?_⟩
  · intro hTurn
    rw [hIdle] at hTurn
    cases hTurn
  · intro p hRunning
    by_cases hSelf : p = s.current
    · rw [hSelf, hEnded.state] at hRunning
      cases hRunning
    · have hBefore := (hExits.released p hSelf).state
      exact absurd (h.only p (by grind)).2 hSelf
  · intro p
    by_cases hSelf : p = s.current
    · have hState := hEnded.state
      have hPoint := hEnded.point
      subst hSelf
      constructor <;> grind
    · have hReleased := hExits.released p hSelf
      exact (h.fits p).woken hReleased.point hReleased.state
  · intro p child pid segment hPoint
    -- a zombie is at no fork
    have hSelf : p ≠ s.current := by
      rintro rfl
      rw [hEnded.point] at hPoint
      cases hPoint
    rw [(hExits.released p hSelf).point] at hPoint
    have hBuilds := h.builds p child pid segment hPoint
    -- the child of another process's fork may get "init" as parent only if its parent is the one
    -- that ends
    have hChild := hExits.released child (h.building_ne hRun hBuilds.building)
    have hState := (hExits.released p hSelf).state
    have hStateChild := hChild.state
    have hParentChild := hChild.parent
    have hBefore := hBuilds.state
    have hBuilding := hBuilds.building
    have hParent := hBuilds.parent
    refine ⟨by grind, by grind, by grind, ?_⟩
    rw [hChild.pid, hBuilds.pid]

theorem calm (h : Life s) (hCalm : Calm s t) : Life t := by
  cases hCalm with
  | wakeup channel => exact h.quiet (Quiet.wakeup s channel)
  | tick hTick => exact h.quiet (Quiet.tick hTick)
  | act r running hRun hActs => exact h.act hRun hActs
  | arm total _ => exact h.congr rfl rfl rfl
  | slept start ticks total _ _ => exact h.congr rfl rfl rfl
  | mount trap hRun _ _ => exact h.mount trap hRun
  | exit cause hRun _ hExit => exact h.exit hRun (exit_exits hExit)
  | create child trap hRun _ hState _ => exact h.create hRun hState
  | page child pid segment k page _ _ =>
    exact h.quiet (Quiet.setProc ⟨rfl, rfl, rfl, rfl, rfl, .inl rfl⟩)
  | publish child pid segment hRun hPoint => exact h.finish hRun hPoint (.inl rfl) rfl
  | mark i _ _ _ _ _ => exact h.quiet (Quiet.mark s i)

theorem move (h : Life s) (hMove : Move s t) : Life t := by
  cases hMove with
  | calm hCalm => exact h.calm hCalm
  | dispatch p hIdle hState => exact h.dispatch hIdle hState
  | abandon child pid segment hRun hPoint => exact h.finish hRun hPoint (.inr rfl) rfl
  | reap i hRun hState _ => exact h.reap hRun hState

theorem boot (code : Page) (top : Word) : Life (boot code top) := by
  have hBoot : ∀ p, (Table.boot code top).procs p = initProc code top ∨
      (Table.boot code top).procs p = emptySlot := by
    intro p
    by_cases h : p = initProcess
    · exact .inl (if_pos h)
    · exact .inr (if_neg h)
  refine ⟨?_, ?_, ?_, ?_⟩
  · intro hRun
    cases hRun
  · intro p hState
    rcases hBoot p with h | h <;> rw [h] at hState <;> cases hState
  · intro p
    rcases hBoot p with h | h <;> rw [h] <;> constructor <;> simp [initProc, emptySlot]
  · intro p child pid segment hPoint
    rcases hBoot p with h | h <;> rw [h] at hPoint <;> cases hPoint

end Life

/-! ## §3 What a move changes -/

/-- The process has begun and has not ended. -/
def Alive (p : Proc) : Prop := p.state ≠ .unused ∧ p.state ≠ .building ∧ p.state ≠ .zombie

/-- The process is still the same one, and has neither ended nor been freed. -/
structure Keeps (p r : Proc) : Prop where
  pid : r.pid = p.pid
  parent : r.parent = p.parent
  unused : r.state = .unused ↔ p.state = .unused
  zombie : r.state = .zombie ↔ p.state = .zombie
  exitCode : r.state = .zombie → r.exitCode = p.exitCode
  alive : Alive p → Alive r

theorem Woken.keeps {p r : Proc} (h : Woken p r) : Keeps p r := by
  have hState := h.state
  refine ⟨h.pid, h.parent, by grind, by grind, fun _ => h.exitCode, ?_⟩
  rintro ⟨hUsed, hBuilt, hZombie⟩
  refine ⟨?_, ?_, ?_⟩ <;> grind

theorem Keeps.refl (p : Proc) : Keeps p p := (Woken.refl p).keeps

/-- A process that starts to sleep in this move. -/
def FallsAsleep (s t : Table) (p : Slot) : Prop :=
  p = s.current ∧ Sleeps s (t.procs p)

/-- No process begins or ends. -/
structure Steady (s t : Table) : Prop where
  nextPid : t.nextPid = s.nextPid
  keeps : ∀ p, Keeps (s.procs p) (t.procs p)
  sleepers : ∀ p, (t.procs p).state = .sleeping →
    (s.procs p).state = .sleeping ∧ (t.procs p).channel = (s.procs p).channel ∨
      FallsAsleep s t p
  log : t.log = s.log ∨ (∃ start ticks, t.log = .slept start ticks s.systicks :: s.log) ∨
    ∃ i, (s.procs i).state ≠ .unused ∧ t.log = .killed (s.procs i).pid :: s.log

/-- The running process frees the slot of its child: a zombie, or the child `sys_fork` fails
    to build. -/
structure Frees (s : Table) (i : Slot) (t : Table) : Prop where
  nextPid : t.nextPid = s.nextPid
  parent : (s.procs i).parent = some s.current
  state : (t.procs i).state = .unused
  keeps : ∀ p, p ≠ i → Keeps (s.procs p) (t.procs p)
  sleepers : ∀ p, (t.procs p).state = .sleeping →
    (s.procs p).state = .sleeping ∧ (t.procs p).channel = (s.procs p).channel
  log : (s.procs i).state = .zombie ∧
      (∃ result, t.log = .reaped s.self.pid (s.procs i).pid result :: s.log) ∨
    (s.procs i).state = .building ∧ t.log = s.log

theorem Steady.of_quiet (hQuiet : Quiet s t)
    (hLog : t.log = s.log ∨ (∃ start ticks, t.log = .slept start ticks s.systicks :: s.log) ∨
      ∃ i, (s.procs i).state ≠ .unused ∧ t.log = .killed (s.procs i).pid :: s.log) :
    Steady s t := by
  refine ⟨hQuiet.nextPid, fun p => (hQuiet.woken p).keeps, ?_, hLog⟩
  intro p hState
  have hBefore := (hQuiet.woken p).state
  exact .inl ⟨by grind, (hQuiet.woken p).channel⟩

/-- The running process keeps its identity when it replaces its record. -/
theorem keeps_of_running {p r : Proc} (hRunning : p.state = .running) (hPid : r.pid = p.pid)
    (hParent : r.parent = p.parent)
    (hState : r.state = .running ∨ r.state = .ready ∨ r.state = .sleeping) : Keeps p r := by
  refine ⟨hPid, hParent, by grind, by grind, by grind, fun _ => ?_⟩
  refine ⟨?_, ?_, ?_⟩ <;> grind

theorem Steady.become (h : Life s) {r : Proc} {running : Bool} (hRun : s.running = true)
    (hActs : Acts s r running) : Steady s (s.become r running) := by
  have hTurn := h.turn hRun
  have hState := hActs.state
  have hNow := procs_become s r running
  refine ⟨rfl, ?_, ?_, .inl rfl⟩
  · intro p
    rw [hNow]
    split
    · next hEq =>
      subst hEq
      exact keeps_of_running hTurn hActs.pid hActs.parent (by grind)
    · exact Keeps.refl _
  -- only the process that runs goes to sleep
  · intro p hSleeping
    rw [FallsAsleep, hNow] at *
    split at hSleeping
    · next hEq =>
      rw [if_pos hEq]
      refine .inr ⟨hEq, ?_⟩
      rcases hState with ⟨-, hSame, -⟩ | ⟨-, hReady, -⟩ | ⟨-, -, hSleeps⟩
      · rw [hSleeping, hTurn] at hSame
        cases hSame
      · rw [hSleeping] at hReady
        cases hReady
      · exact hSleeps
    · next hNe =>
      rw [if_neg hNe]
      exact .inl ⟨hSleeping, rfl⟩

theorem goto_keeps (h : Life s) (hRun : s.running = true) (point : Place) :
    ∀ p, Keeps (s.procs p) ((s.goto point).procs p) ∧
      ((s.goto point).procs p).state = (s.procs p).state ∧
        ((s.goto point).procs p).channel = (s.procs p).channel := by
  intro p
  rw [goto_eq_become, procs_become]
  split
  · next hEq =>
    subst hEq
    have hTurn := h.turn hRun
    exact ⟨keeps_of_running hTurn rfl rfl (.inl hTurn), rfl, rfl⟩
  · exact ⟨Keeps.refl _, rfl, rfl⟩

theorem Steady.dispatch {p : Slot} (hState : (s.procs p).state.runnable = true) :
    Steady s (s.dispatch p) := by
  have hReady : (s.procs p).state = .ready ∨ (s.procs p).state = .new := by
    simpa [ProcState.runnable] using hState
  refine ⟨rfl, ?_, ?_, .inl rfl⟩
  · intro q
    rw [procs_dispatch]
    split
    · next hEq =>
      subst hEq
      exact ⟨rfl, rfl, by grind, by grind, by grind, fun _ => by simp [Alive]⟩
    · exact Keeps.refl _
  · intro q hSleeping
    rw [procs_dispatch] at hSleeping ⊢
    split at hSleeping
    · cases hSleeping
    · next hNe =>
      rw [if_neg hNe]
      exact .inl ⟨hSleeping, rfl⟩

theorem Steady.mount (h : Life s) (trap : Trap) (hRun : s.running = true) :
    Steady s { s.goto (.mounting trap) with mounted := true } := by
  have hGoto := goto_keeps h hRun (.mounting trap)
  refine ⟨rfl, fun p => (hGoto p).1, ?_, .inl rfl⟩
  intro p hSleeping
  exact .inl ⟨(hGoto p).2.1 ▸ hSleeping, (hGoto p).2.2⟩

theorem Steady.publish (h : Life s) {child : Slot} {pid value : Word} {segment : Nat}
    (hRun : s.running = true) (hPoint : s.self.point = .forking child pid segment) :
    Steady s ((s.setProc child fun p => { p with state := .new }).goto (.returning value)) := by
  have hBuilds := h.builds s.current child pid segment hPoint
  have hBuilding := hBuilds.building
  -- the child becomes runnable and the parent goes on to its return
  have hOther := h.building_ne hRun hBuilding
  have hGoto := goto_keeps h hRun (.returning value)
  rw [setProc_goto_comm s _ _ hOther]
  refine ⟨rfl, ?_, ?_, .inl rfl⟩
  · intro p
    rw [procs_setProc]
    split
    · next hEq =>
      subst hEq
      have hSame := hGoto p
      refine ⟨hSame.1.pid, hSame.1.parent, ?_, ?_, ?_, ?_⟩
      · simp [hBuilding]
      · simp [hBuilding]
      · simp
      · intro hAlive
        exact absurd hBuilding hAlive.2.1
    · exact (hGoto p).1
  · intro p hSleeping
    rw [procs_setProc] at hSleeping ⊢
    split at hSleeping
    · cases hSleeping
    · next hNe =>
      rw [if_neg hNe]
      exact .inl ⟨(hGoto p).2.1 ▸ hSleeping, (hGoto p).2.2⟩

/-- `proc_free` of another process, behind which the running one returns. -/
theorem free_keeps (h : Life s) {i : Slot} (hRun : s.running = true) (hOther : i ≠ s.current)
    (value : Word) :
    (((s.free i).goto (.returning value)).procs i).state = .unused ∧
      ∀ p, p ≠ i → Keeps (s.procs p) (((s.free i).goto (.returning value)).procs p) ∧
        (((s.free i).goto (.returning value)).procs p).state = (s.procs p).state ∧
          (((s.free i).goto (.returning value)).procs p).channel = (s.procs p).channel := by
  have hGoto := goto_keeps h hRun (.returning value)
  rw [free, setProc_goto_comm s _ _ hOther]
  refine ⟨?_, ?_⟩
  · rw [procs_setProc, if_pos rfl]
  · intro p hNe
    rw [procs_setProc, if_neg hNe]
    exact hGoto p

theorem Frees.abandon (h : Life s) {child : Slot} {pid : Word} {segment : Nat}
    (hRun : s.running = true) (hPoint : s.self.point = .forking child pid segment) :
    Frees s child ((s.free child).goto (.returning (-1))) := by
  have hBuilds := h.builds s.current child pid segment hPoint
  obtain ⟨hFree, hKeeps⟩ := free_keeps h hRun (h.building_ne hRun hBuilds.building) (-1)
  refine ⟨rfl, hBuilds.parent, hFree, fun p hNe => (hKeeps p hNe).1, ?_, .inr ⟨hBuilds.building, rfl⟩⟩
  intro p hSleeping
  have hNe : p ≠ child := by
    rintro rfl
    rw [hFree] at hSleeping
    cases hSleeping
  exact ⟨(hKeeps p hNe).2.1 ▸ hSleeping, (hKeeps p hNe).2.2⟩

theorem Frees.reap (h : Life s) {i : Slot} (hRun : s.running = true)
    (hState : (s.procs i).state = .zombie) (hParent : (s.procs i).parent = some s.current) :
    Frees s i (s.reap i) := by
  have hOther : i ≠ s.current := by
    rintro rfl
    have hTurn := h.turn hRun
    rw [self, hState] at hTurn
    cases hTurn
  obtain ⟨hFree, hKeeps⟩ := free_keeps h hRun hOther
    (((s.procs i).pid.setWidth 8).setWidth 16)
  refine ⟨rfl, hParent, hFree, fun p hNe => (hKeeps p hNe).1, ?_, .inl ⟨hState, _, rfl⟩⟩
  intro p hSleeping
  have hNe : p ≠ i := by
    rintro rfl
    have hSleeping : (((s.free p).goto (.returning (((s.procs p).pid.setWidth 8).setWidth 16))).procs
        p).state = .sleeping := hSleeping
    rw [hFree] at hSleeping
    cases hSleeping
  exact ⟨(hKeeps p hNe).2.1 ▸ hSleeping, (hKeeps p hNe).2.2⟩

/-- **What a calm move changes**: it builds a process, ends one, or does neither. -/
theorem Calm.cases (h : Life s) (hCalm : Calm s t) :
    Steady s t ∨
      (∃ child, (s.procs child).state = .unused ∧ s.nextPid ≠ 0 ∧ s.running = true ∧
        t = s.create child) ∨
      ∃ cause, s.self.ax.setWidth 8 = cause.code ∧ s.running = true ∧ Exits s cause t := by
  -- three of the moves are creation and exit; the others are steady
  cases hCalm with
  | wakeup channel => exact .inl (.of_quiet (Quiet.wakeup s channel) (.inl rfl))
  | tick hTick =>
    refine .inl (.of_quiet (Quiet.tick hTick) (.inl ?_))
    obtain ⟨-, ⟨-, rfl⟩ | ⟨-, rfl⟩⟩ := timerInterrupt_cases hTick
    · rfl
    · rfl
  | act r running hRun hActs => exact .inl (.become h hRun hActs)
  | arm total _ => exact .inl ⟨rfl, fun p => Keeps.refl _, fun p hp => .inl ⟨hp, rfl⟩, .inl rfl⟩
  | slept start ticks total _ _ =>
    exact .inl ⟨rfl, fun p => Keeps.refl _, fun p hp => .inl ⟨hp, rfl⟩,
      .inr (.inl ⟨start, ticks, rfl⟩)⟩
  | mount trap hRun _ _ => exact .inl (.mount h trap hRun)
  | exit cause hRun hCode hExit => exact .inr (.inr ⟨cause, hCode, hRun, exit_exits hExit⟩)
  | create child trap hRun _ hState hPid => exact .inr (.inl ⟨child, hState, hPid, hRun, rfl⟩)
  | page child pid segment k page _ _ =>
    exact .inl (.of_quiet (Quiet.setProc ⟨rfl, rfl, rfl, rfl, rfl, .inl rfl⟩) (.inl rfl))
  | publish child pid segment hRun hPoint => exact .inl (.publish h hRun hPoint)
  | mark i _ _ hUsed _ _ =>
    exact .inl (.of_quiet (Quiet.mark s i) (.inr (.inr ⟨i, hUsed, rfl⟩)))

/-- **What a move changes**: it builds a process, ends one, frees one or none of these. -/
theorem Move.cases (h : Life s) (hMove : Move s t) :
    Steady s t ∨
      (∃ child, (s.procs child).state = .unused ∧ s.nextPid ≠ 0 ∧ s.running = true ∧
        t = s.create child) ∨
      (∃ cause, s.self.ax.setWidth 8 = cause.code ∧ s.running = true ∧ Exits s cause t) ∨
      ∃ i, s.running = true ∧ Frees s i t := by
  cases hMove with
  | calm hCalm =>
    obtain hSteady | hCreate | hExit := Calm.cases h hCalm
    · exact .inl hSteady
    · exact .inr (.inl hCreate)
    · exact .inr (.inr (.inl hExit))
  | dispatch p _ hState => exact .inl (.dispatch hState)
  | abandon child pid segment hRun hPoint =>
    exact .inr (.inr (.inr ⟨child, hRun, .abandon h hRun hPoint⟩))
  | reap i hRun hState hParent => exact .inr (.inr (.inr ⟨i, hRun, .reap h hRun hState hParent⟩))

theorem Steady.log_mono (h : Steady s t) : ∀ notice ∈ s.log, notice ∈ t.log := by
  intro notice hMem
  rcases h.log with hLog | ⟨start, ticks, hLog⟩ | ⟨i, -, hLog⟩
  · exact hLog ▸ hMem
  · exact hLog ▸ List.mem_cons_of_mem _ hMem
  · exact hLog ▸ List.mem_cons_of_mem _ hMem

theorem Frees.log_mono {i : Slot} (h : Frees s i t) : ∀ notice ∈ s.log, notice ∈ t.log := by
  intro notice hMem
  rcases h.log with ⟨-, result, hLog⟩ | ⟨-, hLog⟩
  · exact hLog ▸ List.mem_cons_of_mem _ hMem
  · exact hLog ▸ hMem

/-- What has happened is not forgotten. -/
theorem Move.log_mono (h : Life s) (hMove : Move s t) : ∀ notice ∈ s.log, notice ∈ t.log := by
  obtain hSteady | ⟨child, -, -, -, rfl⟩ | ⟨cause, -, -, hExits⟩ | ⟨i, -, hFrees⟩ := hMove.cases h
  · exact hSteady.log_mono
  · exact fun notice hMem => List.mem_cons_of_mem _ hMem
  · rw [hExits.rest]
    exact fun notice hMem => List.mem_cons_of_mem _ hMem
  · exact hFrees.log_mono

/-- What every move preserves beside the states of the processes, every run preserves. -/
theorem invariant_of_moves {inv : Table → Prop}
    (hMove : ∀ s t, Life s → inv s → Move s t → inv t) {es : List Event}
    (hRun : Run Step s es t) (hLife : Life s) (hs : inv s) : Life t ∧ inv t := by
  have hBoth : ∀ s t, Life s ∧ inv s → Move s t → Life t ∧ inv t := by
    rintro s t ⟨hLife, hInv⟩ hNext
    exact ⟨hLife.move hNext, hMove s t hLife hInv hNext⟩
  have hStep : ∀ s e t, Life s ∧ inv s → Step s e t → Life t ∧ inv t := by
    intro s e t hBefore hStep
    exact hStep.moves.invariant hBoth hBefore
  exact @Run.invariant _ _ _ _ _ _ (fun s => Life s ∧ inv s) hStep hRun ⟨hLife, hs⟩

/-! ## §4 New processes -/

/-- `proc_alloc` has taken the slot. -/
def Taken (s t : Table) (i : Slot) : Prop :=
  (s.procs i).state = .unused ∧ (t.procs i).state ≠ .unused

instance (s t : Table) (i : Slot) : Decidable (s.Taken t i) := by
  unfold Taken
  infer_instance

/-- Only the running process takes a slot. -/
theorem Taken.running {e : Event} {i : Slot} (hTaken : s.Taken t i) (hStep : Step s e t) :
    s.running = true := by
  obtain ⟨hBefore, hAfter⟩ := hTaken
  obtain ⟨p, -, -, hSearch, rfl⟩ | ⟨-, -, hTick⟩ | ⟨device, -, -, rfl⟩ | ⟨hRun, -⟩ :=
    perform_cases hStep
  · have hSteady := Steady.dispatch (s := s) (search_some hSearch)
    exact absurd ((hSteady.keeps i).unused.mpr hBefore) hAfter
  · have hKeeps := ((Quiet.tick hTick).woken i).keeps
    exact absurd (hKeeps.unused.mpr hBefore) hAfter
  · have hKeeps := ((Quiet.wakeup s (.device device)).woken i).keeps
    exact absurd (hKeeps.unused.mpr hBefore) hAfter
  · exact hRun

/-- The process that takes a slot has one of its own. -/
theorem Taken.current_used {e : Event} {i : Slot} (hTaken : s.Taken t i) (hStep : Step s e t)
    (hLife : Life s) : (s.procs s.current).state ≠ .unused := by
  have hState := hLife.turn (hTaken.running hStep)
  rw [self] at hState
  simp [hState]

/-! ## §5 Suspended processes -/

/-- A step other than a dispatch leaves the CPU to the same process. -/
theorem Step.turn {e : Event} (h : Step s e t) (hEvent : ∀ p, e ≠ .dispatch p) :
    t.current = s.current ∧ (s.running = false → t.running = false) := by
  cases h.effect with
  | calm _ hCalms => exact ⟨(Calms.turn hCalms).1, (Calms.turn hCalms).2.2⟩
  | dispatch p hIs _ _ _ => exact absurd hIs (hEvent p)
  | reap userExitCode i _ _ hReaps =>
    obtain ⟨u, hCalms, -, -, -, rfl⟩ := hReaps.split
    exact ⟨(Calms.turn hCalms).1, (Calms.turn hCalms).2.2⟩
  | abandon child childPid segment _ _ _ hEq =>
    subst hEq
    exact ⟨rfl, id⟩

/-- A process that is not running is not ended by the others. -/
theorem Move.alive (h : Life s) (hMove : Move s t) {p : Slot} (hAlive : Alive (s.procs p))
    (hAway : s.running = true → s.current ≠ p) : Alive (t.procs p) := by
  obtain hSteady | ⟨child, hFree, -, -, rfl⟩ | ⟨cause, -, hRun, hExits⟩ | ⟨i, -, hFrees⟩ :=
    hMove.cases h
  · exact (hSteady.keeps p).alive hAlive
  · have hNe : p ≠ child := by
      rintro rfl
      exact hAlive.1 hFree
    rw [procs_create, if_neg hNe]
    exact hAlive
  · have hReleased := (hExits.released p (hAway hRun).symm).state
    obtain ⟨hUsed, hBuilt, hEnded⟩ := hAlive
    refine ⟨?_, ?_, ?_⟩ <;> grind
  · have hNe : p ≠ i := by
      rintro rfl
      rcases hFrees.log with ⟨hZombie, -⟩ | ⟨hBuilding, -⟩
      · exact hAlive.2.2 hZombie
      · exact hAlive.2.1 hBuilding
    exact (hFrees.keeps p hNe).alive hAlive

theorem Step.alive {e : Event} (h : Life s) (hStep : Step s e t) {p : Slot}
    (hAlive : Alive (s.procs p)) (hAway : s.running = true → s.current ≠ p) :
    Alive (t.procs p) := by
  -- a process that lives and does not run is not the one that ends, whatever the running one does
  have hCalms : ∀ u, Calms s u → Life u ∧ Alive (u.procs p) ∧ (u.running = true → u.current ≠ p) := by
    intro u hCalms
    induction hCalms with
    | refl => exact ⟨h, hAlive, hAway⟩
    | @tail u v _ hLast ih =>
      obtain ⟨hLife, hLives, hElse⟩ := ih
      obtain ⟨hCurrent, -, hIdle⟩ := hLast.turn
      refine ⟨hLife.calm hLast, (Move.calm hLast).alive hLife hLives hElse, fun hRun => ?_⟩
      rw [hCurrent]
      exact hElse (by grind)
  cases hStep.effect with
  | calm _ hAll => exact (hCalms t hAll).2.1
  | dispatch q _ hIdle hState hEq =>
    rw [hEq]
    exact (Move.dispatch q hIdle hState).alive h hAlive hAway
  | reap userExitCode i _ _ hReaps =>
    -- what a wait reaps is a zombie
    obtain ⟨u, hAll, hRun, hZombie, hParent, rfl⟩ := hReaps.split
    obtain ⟨hLife, hLives, hElse⟩ := hCalms u hAll
    exact (Move.reap i hRun hZombie hParent).alive hLife hLives hElse
  | abandon child childPid segment _ hRun hPoint hEq =>
    rw [hEq]
    exact (Move.abandon child childPid segment hRun hPoint).alive h hAlive hAway

end Table

end Xv6502.Kernel
