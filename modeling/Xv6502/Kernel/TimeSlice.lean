import Xv6502.Kernel.Scheduler

/-!
# The Time Slice

`scheduler()` gives a process `QUANTUM` ticks at every dispatch, and `kernel_irq` takes one
at each timer interrupt from user mode and calls `yield()` with the last. But behind that
`yield()` it writes back the local `ticks` it had counted down to 0, over the fresh
quantum. So a slice that begins there lasts 256 interrupts, and `sliceBounded_iff` says
that these slices are the only ones that are longer than the quantum.
-/

namespace Xv6502.Kernel

open Xv6502.Emulator Xv6502.Lib

namespace Sched

/-! ## §1 Slices -/

/-- The event leaves the process in user mode, or brings it there at the beginning of its
    slice: it makes no system call and only timer interrupts are taken. -/
def Event.stays : Event → Bool
  | .resume | .sysReturn | .irqMounted _ _ | .irq true _ | .wakeup _ => true
  | _ => false

/-- `kernel_irq` calls `yield()`. -/
def Event.irqYields : Event → Bool
  | .irq _ yielded | .irqMounted _ yielded => yielded
  | _ => false

/-- A timer interrupt taken from user mode. -/
def Event.isTimerIrq : Event → Bool
  | .irq true _ => true
  | _ => false

/-- After the dispatch, `kernel_irq` calls `yield()` no later than at the `QUANTUM`-th timer
    interrupt from user mode: without it fewer than `QUANTUM` interrupts pass. -/
def SliceBounded (t : Sched) : Prop :=
  ∀ events u, Run Step t events u → (∀ e ∈ events, e.stays = true) →
    (∀ e ∈ events, e.irqYields = false) → events.countP Event.isTimerIrq < quantum.toNat

/-! ## §2 Small facts about the operations -/

@[simp] theorem self_setSelf (s : Sched) (f : Process → Process) : (s.setSelf f).self = f s.self := by
  simp [setSelf, setProc, self]

@[simp] theorem mode_setProc (s : Sched) (i : Slot) (f : Process → Process) :
    (s.setProc i f).mode = s.mode := rfl

@[simp] theorem mounted_setProc (s : Sched) (i : Slot) (f : Process → Process) :
    (s.setProc i f).mounted = s.mounted := rfl

theorem procs_setProc (s : Sched) (i j : Slot) (f : Process → Process) :
    (s.setProc i f).procs j = if j = i then f (s.procs i) else s.procs j := by
  simp [setProc, Function.update_apply]

/-- The epilogue ends in user mode or gives up the CPU. -/
theorem epilogue_cases (s : Sched) :
    (s.self.doomed = true ∧ s.epilogue = s.exit) ∨
      (s.self.doomed = false ∧ s.epilogue = { s with mode := .user }) := by
  unfold epilogue
  cases s.self.doomed with
  | true => exact .inl ⟨rfl, rfl⟩
  | false => exact .inr ⟨rfl, rfl⟩

/-! ## §3 Where processes are suspended -/

/-- The local `ticks` of a process suspended in the `yield()` of `kernel_irq` is 0, and until
    the file system is mounted no process has been in the kernel. -/
structure Suspended (s : Sched) : Prop where
  ticks : ∀ q ticks, (s.procs q).resume = .irqYield ticks → ticks = 0
  resuming : ∀ ticks, s.mode = .resuming (.irqYield ticks) → ticks = 0
  early : s.mounted = false → (∀ q, (s.procs q).resume = .fresh ∧ (s.procs q).killed = 0) ∧
    (s.mode = .scheduling ∨ s.mode = .resuming .fresh ∨ s.mode = .user)

theorem suspended_boot : Suspended boot where
  ticks _ _ h := by cases h
  resuming _ h := by cases h
  early _ := ⟨fun _ => ⟨rfl, rfl⟩, .inl rfl⟩

/-- Changing a process in what does not concern its suspension. -/
theorem suspended_setProc {s : Sched} (hs : Suspended s) (i : Slot) {f : Process → Process}
    (hResume : (f (s.procs i)).resume = (s.procs i).resume)
    (hKilled : s.mounted = false → (f (s.procs i)).killed = (s.procs i).killed) :
    Suspended (s.setProc i f) where
  ticks q ticks h := by
    rw [procs_setProc] at h
    split at h
    case isTrue hEq => exact hs.ticks i ticks (hResume ▸ h)
    case isFalse => exact hs.ticks q ticks h
  resuming := hs.resuming
  early hEarly := by
    obtain ⟨hProcs, hMode⟩ := hs.early hEarly
    refine ⟨fun q => ?_, hMode⟩
    rw [procs_setProc]
    split
    · rw [hResume, hKilled hEarly]
      exact hProcs i
    · exact hProcs q

/-- A state in which the file system is mounted. -/
theorem suspended_of_mounted {s : Sched} (hMounted : s.mounted = true)
    (hTicks : ∀ q ticks, (s.procs q).resume = .irqYield ticks → ticks = 0)
    (hMode : ∀ ticks, s.mode = .resuming (.irqYield ticks) → ticks = 0) : Suspended s :=
  ⟨hTicks, hMode, fun hEarly => by rw [hMounted] at hEarly; cases hEarly⟩

/-- Giving up the CPU. -/
theorem suspended_suspend {s : Sched} (hs : Suspended s) (hMounted : s.mounted = true)
    (state : ProcState) {point : Resume} (hPoint : ∀ ticks, point = .irqYield ticks → ticks = 0) :
    Suspended (s.suspend state point) := by
  refine suspended_of_mounted hMounted (fun q ticks h => ?_) (fun ticks h => by cases h)
  have hProcs : ((s.suspend state point).procs q) =
      ((s.setSelf fun p => { p with state := state, resume := point }).procs q) := rfl
  rw [hProcs, setSelf, procs_setProc] at h
  split at h
  · exact hPoint ticks h
  · exact hs.ticks q ticks h

theorem suspended_mode {s : Sched} (hs : Suspended s) {mode : Mode}
    (hMode : ∀ ticks, mode ≠ .resuming (.irqYield ticks))
    (hEarly : s.mounted = false → mode = .scheduling ∨ mode = .resuming .fresh ∨ mode = .user) :
    Suspended { s with mode := mode } where
  ticks := hs.ticks
  resuming ticks h := absurd h (hMode ticks)
  early h := ⟨(hs.early h).1, hEarly h⟩

/-- Before the mount no process is killed. -/
theorem Suspended.mounted_of_doomed {s : Sched} (hs : Suspended s) {q : Slot}
    (h : (s.procs q).doomed = true) : s.mounted = true := by
  by_contra hNot
  have hKilled := ((hs.early (Bool.eq_false_of_not_eq_true hNot)).1 q).2
  rw [Process.doomed, hKilled] at h
  cases h

theorem suspended_epilogue {s : Sched} (hs : Suspended s) : Suspended s.epilogue := by
  obtain ⟨hDoomed, hEq⟩ | ⟨-, hEq⟩ := s.epilogue_cases
  · rw [hEq]
    exact suspended_suspend hs (hs.mounted_of_doomed hDoomed) _ (fun _ h => by cases h)
  · rw [hEq]
    exact suspended_mode hs (fun _ h => by cases h) (fun _ => .inr (.inr rfl))

theorem suspended_irqTail {s : Sched} (hs : Suspended s) (hMounted : s.mounted = true)
    (timer : Bool) : Suspended (s.irqTail timer) := by
  unfold irqTail
  cases timer with
  | false => exact suspended_epilogue hs
  | true =>
    by_cases hZero : s.self.ticks - 1 = 0
    · simp only [hZero, if_true]
      refine suspended_suspend hs hMounted _ fun ticks h => ?_
      cases h
      rfl
    · simp only [hZero, if_true, if_false]
      exact suspended_epilogue (suspended_setProc hs _ rfl fun _ => rfl)

/-- A trap through the prologue. -/
theorem suspended_prologue {s : Sched} (hs : Suspended s) {mounting : Resume}
    (hPoint : ∀ ticks, mounting ≠ .irqYield ticks) {body : Sched → Sched}
    (hBody : s.mounted = true → Suspended (body s)) : Suspended (s.prologue mounting body) := by
  unfold prologue
  split
  case isTrue hDoomed =>
    exact suspended_suspend hs (hs.mounted_of_doomed hDoomed) _ (fun _ h => by cases h)
  case isFalse =>
    split
    · have hMounted : Suspended { s with mounted := true } :=
        suspended_of_mounted rfl hs.ticks hs.resuming
      exact suspended_suspend hMounted rfl .sleeping fun ticks h => absurd h (hPoint ticks)
    case isFalse hMounted => exact hBody (by simpa using hMounted)

/-- Outside the first slice the file system is mounted. -/
theorem Suspended.mounted_of_mode {s : Sched} (hs : Suspended s)
    (h : s.mode = .syscall ∨ s.mode = .irqMount) : s.mounted = true := by
  by_contra hNot
  obtain hMode | hMode | hMode := (hs.early (Bool.eq_false_of_not_eq_true hNot)).2 <;>
    rw [hMode] at h <;> obtain h | h := h <;> cases h

/-- **Step lemma**: every event keeps `Suspended`. -/
theorem suspended_step {s t : Sched} {e : Event} (hs : Suspended s) (h : Step s e t) :
    Suspended t := by
  unfold Step perform at h
  cases e with
  | dispatch p point =>
    dsimp only at h
    split at h
    case isFalse => cases h
    case isTrue hGuard =>
      cases h
      have hProc := suspended_setProc hs p (f := fun q => { q with state := .running, ticks := quantum })
        rfl fun _ => rfl
      refine ⟨hProc.ticks, fun ticks hMode => ?_, fun hEarly => ⟨(hProc.early hEarly).1, ?_⟩⟩
      · have hPoint : resumePoint (s.procs p) = .irqYield ticks := Mode.resuming.inj hMode
        unfold resumePoint at hPoint
        split at hPoint
        · cases hPoint
        · exact hs.ticks p ticks hPoint
      · have hFresh : resumePoint (s.procs p) = .fresh := by
          unfold resumePoint
          split
          · rfl
          · exact ((hs.early hEarly).1 p).1
        exact .inr (.inl (congrArg Mode.resuming hFresh))
  | resume =>
    dsimp only at h
    split at h
    case h_1 => cases h; exact suspended_epilogue hs
    case h_2 ticks hMode =>
      cases h
      exact suspended_epilogue (suspended_setProc hs _ rfl fun _ => rfl)
    case h_3 hMode =>
      cases h
      refine suspended_mode hs (fun _ h => by cases h) fun hEarly => ?_
      obtain h | h | h := (hs.early hEarly).2 <;> rw [hMode] at h <;> cases h
    case h_4 hMode =>
      cases h
      refine suspended_mode hs (fun _ h => by cases h) fun hEarly => ?_
      obtain h | h | h := (hs.early hEarly).2 <;> rw [hMode] at h <;> cases h
    case h_5 => cases h
  | irq timer yielded =>
    obtain ⟨-, ⟨⟩⟩ := Option.ite_none_right_eq_some.mp h
    exact suspended_prologue hs (fun _ h => by cases h) fun hMounted =>
      suspended_irqTail hs hMounted timer
  | irqMounted timer yielded =>
    obtain ⟨⟨hMode, -⟩, ⟨⟩⟩ := Option.ite_none_right_eq_some.mp h
    exact suspended_irqTail hs (hs.mounted_of_mode (.inr hMode)) timer
  | syscall =>
    obtain ⟨-, ⟨⟩⟩ := Option.ite_none_right_eq_some.mp h
    refine suspended_prologue hs (fun _ h => by cases h) fun hMounted => ?_
    exact suspended_mode hs (fun _ h => by cases h) fun hEarly => by
      rw [hMounted] at hEarly
      cases hEarly
  | nmi =>
    obtain ⟨-, ⟨⟩⟩ := Option.ite_none_right_eq_some.mp h
    exact suspended_prologue hs (fun _ h => by cases h) fun hMounted =>
      suspended_suspend hs hMounted _ (fun _ h => by cases h)
  | sysReturn =>
    obtain ⟨-, ⟨⟩⟩ := Option.ite_none_right_eq_some.mp h
    exact suspended_epilogue hs
  | sleep =>
    dsimp only at h
    split at h
    case h_1 hMode =>
      cases h
      exact suspended_suspend hs (hs.mounted_of_mode (.inl hMode)) _ (fun _ h => by cases h)
    case h_2 hMode =>
      cases h
      exact suspended_suspend hs (hs.mounted_of_mode (.inr hMode)) _ (fun _ h => by cases h)
    case h_3 => cases h
  | yield =>
    obtain ⟨hMode, ⟨⟩⟩ := Option.ite_none_right_eq_some.mp h
    exact suspended_suspend hs (hs.mounted_of_mode (.inl hMode)) _ (fun _ h => by cases h)
  | exit =>
    obtain ⟨hMode, ⟨⟩⟩ := Option.ite_none_right_eq_some.mp h
    exact suspended_suspend hs (hs.mounted_of_mode (.inl hMode)) _ (fun _ h => by cases h)
  | create child pid =>
    obtain ⟨⟨hMode, -⟩, ⟨⟩⟩ := Option.ite_none_right_eq_some.mp h
    refine suspended_of_mounted (hs.mounted_of_mode (.inl hMode)) (fun q ticks hResume => ?_) hs.resuming
    rw [procs_setProc] at hResume
    -- the child's PCB is a copy of its parent's
    split at hResume
    · exact hs.ticks s.current ticks hResume
    · exact hs.ticks q ticks hResume
  | publish child =>
    obtain ⟨-, ⟨⟩⟩ := Option.ite_none_right_eq_some.mp h
    exact suspended_setProc hs _ rfl fun _ => rfl
  | free p =>
    obtain ⟨-, ⟨⟩⟩ := Option.ite_none_right_eq_some.mp h
    exact suspended_setProc hs _ rfl fun _ => rfl
  | kill p =>
    obtain ⟨⟨hMode, -⟩, ⟨⟩⟩ := Option.ite_none_right_eq_some.mp h
    refine suspended_setProc hs _ rfl fun hEarly => ?_
    rw [hs.mounted_of_mode (.inl hMode)] at hEarly
    cases hEarly
  | wakeup p =>
    obtain ⟨-, ⟨⟩⟩ := Option.ite_none_right_eq_some.mp h
    exact suspended_setProc hs _ rfl fun _ => rfl

/-! ## §4 Inside a slice -/

/-- A state of a slice that does not begin behind the `yield()` of `kernel_irq`, after `n`
    timer interrupts and before `kernel_irq` has called `yield()`. -/
def InSlice (n : Nat) (u : Sched) : Prop :=
  match u.mode with
  | .scheduling => n < quantum.toNat
  | .resuming point =>
    n = 0 ∧ u.self.ticks = quantum ∧ ∀ ticks, point = .irqYield ticks → u.self.doomed = true
  | .user =>
    u.self.doomed = false ∧ 1 ≤ u.self.ticks.toNat ∧ u.self.ticks.toNat + n ≤ quantum.toNat ∧
      (u.mounted = false → n = 0)
  | .irqMount | .syscall => n = 0 ∧ u.self.ticks = quantum

theorem InSlice.lt {n : Nat} {u : Sched} (h : InSlice n u) : n < quantum.toNat := by
  unfold InSlice at h
  split at h
  · exact h
  · rw [h.1]; decide
  · have := h.2
    omega
  · rw [h.1]; decide
  · rw [h.1]; decide

/-- The epilogue at the beginning of a slice. -/
theorem inSlice_epilogue {u : Sched} (hTicks : u.self.doomed = true ∨ 1 ≤ u.self.ticks.toNat ∧
    u.self.ticks.toNat ≤ quantum.toNat) : InSlice 0 u.epilogue := by
  obtain ⟨-, hEq⟩ | ⟨hAlive, hEq⟩ := u.epilogue_cases
  · rw [hEq]
    show 0 < quantum.toNat
    decide
  · rw [hEq]
    obtain hDoomed | ⟨hPos, hLe⟩ := hTicks
    · rw [hAlive] at hDoomed
      cases hDoomed
    · exact ⟨hAlive, hPos, hLe, fun _ => rfl⟩

/-- `InSlice` looks at the running process and the mode only. -/
theorem inSlice_congr {n : Nat} {u v : Sched} (hMode : v.mode = u.mode)
    (hMounted : v.mounted = u.mounted) (hTicks : v.self.ticks = u.self.ticks)
    (hDoomed : v.self.doomed = u.self.doomed) (h : InSlice n u) : InSlice n v := by
  unfold InSlice at *
  rw [hMode, hMounted, hTicks, hDoomed]
  exact h

/-- A timer interrupt that is not the last of the slice. -/
theorem irqTail_of_more {u : Sched} (hAlive : u.self.doomed = false)
    (hMore : ¬ u.self.ticks - 1 = 0) :
    u.irqTail true =
      { u.setSelf fun p => { p with ticks := u.self.ticks - 1 } with mode := .user } := by
  unfold irqTail
  simp only [hMore, if_true, if_false]
  refine if_neg ?_
  rw [self_setSelf]
  exact Bool.eq_false_iff.mp hAlive

theorem self_tick (u : Sched) :
    ({ u.setSelf fun p => { p with ticks := u.self.ticks - 1 } with mode := .user } : Sched).self =
      { u.self with ticks := u.self.ticks - 1 } :=
  self_setSelf u fun p => { p with ticks := u.self.ticks - 1 }

/-- **Step lemma of a slice**: an event without a `yield()` of `kernel_irq` stays in the slice,
    and a timer interrupt is counted. -/
theorem inSlice_step {n : Nat} {u v : Sched} {e : Event} (hu : InSlice n u) (h : Step u e v)
    (hStays : e.stays = true) (hNoYield : e.irqYields = false) :
    InSlice (n + [e].countP Event.isTimerIrq) v := by
  unfold Step perform at h
  -- one case per event that stays in the slice
  cases e with
  | resume =>
    dsimp only at h
    unfold InSlice at hu
    split at h
    -- the process comes up new, with the whole quantum before it
    case h_1 hMode =>
      cases h
      simp only [hMode] at hu
      obtain ⟨rfl, hTicks, -⟩ := hu
      exact inSlice_epilogue (.inr (by rw [hTicks]; decide))
    case h_2 ticks hMode =>
      cases h
      simp only [hMode] at hu
      obtain ⟨rfl, -, hDoomed⟩ := hu
      refine inSlice_epilogue (.inl ?_)
      rw [self_setSelf]
      exact hDoomed ticks rfl
    case h_3 hMode =>
      cases h
      simp only [hMode] at hu
      exact ⟨hu.1, hu.2.1⟩
    case h_4 hMode =>
      cases h
      simp only [hMode] at hu
      exact ⟨hu.1, hu.2.1⟩
    case h_5 => cases h
  | irq timer yielded =>
    obtain ⟨⟨hMode, hYielded⟩, ⟨⟩⟩ := Option.ite_none_right_eq_some.mp h
    simp only [Event.irqYields] at hNoYield
    subst hNoYield
    cases timer with
    | false => cases hStays
    | true =>
      simp only [InSlice, hMode] at hu
      obtain ⟨hAlive, hPos, hSum, hFirst⟩ := hu
      show InSlice (n + 1) _
      rw [prologue, if_neg (by simp [hAlive])]
      by_cases hMounted : u.mounted = true
      · rw [if_neg (by simp [hMounted])]
        -- no yield, so the counter has not reached 0: it has gone down by one as the count has
        -- gone up
        have hMore : ¬ u.self.ticks - 1 = 0 := by
          simpa [reachesTail, hAlive, hMounted, Sched.irqYields] using hYielded
        rw [irqTail_of_more hAlive hMore]
        refine ⟨by rw [self_tick]; exact hAlive, ?_, ?_, fun hEarly => ?_⟩
        · rw [self_tick]
          bv_omega
        · rw [self_tick]
          show (u.self.ticks - 1).toNat + (n + 1) ≤ quantum.toNat
          have hPred : (u.self.ticks - 1).toNat + 1 = u.self.ticks.toNat := by bv_omega
          omega
        · exact absurd hMounted (by rw [show u.mounted = false from hEarly]; decide)
      · -- the first trap of all: the process sleeps
        rw [if_pos (by simp [hMounted])]
        have hZero := hFirst (Bool.eq_false_of_not_eq_true hMounted)
        subst hZero
        show 0 + 1 < quantum.toNat
        decide
  -- behind `fs_init` the quantum is fresh
  | irqMounted timer yielded =>
    obtain ⟨⟨hMode, hYielded⟩, ⟨⟩⟩ := Option.ite_none_right_eq_some.mp h
    simp only [InSlice, hMode] at hu
    obtain ⟨rfl, hTicks⟩ := hu
    unfold irqTail
    cases timer with
    | false => exact inSlice_epilogue (.inr (by rw [hTicks]; decide))
    | true =>
      have hMore : ¬ u.self.ticks - 1 = 0 := by rw [hTicks]; decide
      simp only [hMore, if_true, if_false]
      refine inSlice_epilogue (.inr ?_)
      rw [self_setSelf, hTicks]
      show 1 ≤ (quantum - 1).toNat ∧ (quantum - 1).toNat ≤ quantum.toNat
      decide
  | sysReturn =>
    obtain ⟨hMode, ⟨⟩⟩ := Option.ite_none_right_eq_some.mp h
    simp only [InSlice, hMode] at hu
    obtain ⟨rfl, hTicks⟩ := hu
    exact inSlice_epilogue (.inr (by rw [hTicks]; decide))
  | wakeup p =>
    obtain ⟨-, ⟨⟩⟩ := Option.ite_none_right_eq_some.mp h
    have hSelf : (u.setProc p fun q => { q with state := .ready }).self.ticks = u.self.ticks ∧
        (u.setProc p fun q => { q with state := .ready }).self.doomed = u.self.doomed := by
      show (Process.ticks ((u.setProc p _).procs u.current)) = _ ∧
        (Process.doomed ((u.setProc p _).procs u.current)) = _
      rw [procs_setProc]
      split
      case isTrue hEq =>
        rw [← hEq]
        exact ⟨rfl, rfl⟩
      case isFalse => exact ⟨rfl, rfl⟩
    exact inSlice_congr (u := u) rfl rfl hSelf.1 hSelf.2 hu
  | _ => cases hStays

/-- **Every slice that does not begin behind the `yield()` of `kernel_irq` is bounded.** -/
theorem sliceBounded_of_inSlice {t : Sched} (ht : InSlice 0 t) : SliceBounded t := by
  intro events u hRun hStays hNoYield
  -- the count of the interrupts so far is carried through the run
  have hGeneral : ∀ (n : Nat) (t : Sched), InSlice n t → Run Step t events u →
      InSlice (n + events.countP Event.isTimerIrq) u := by
    clear ht hRun t
    induction events with
    | nil =>
      intro n t ht hRun
      cases hRun
      exact ht
    | cons e events ih =>
      intro n t ht hRun
      obtain _ | ⟨hHead, hTail⟩ := hRun
      rw [List.forall_mem_cons] at hStays hNoYield
      have hNext := ih hStays.2 hNoYield.2 _ _ (inSlice_step ht hHead hStays.1 hNoYield.1) hTail
      rw [List.countP_cons, Nat.add_comm (events.countP _), ← Nat.add_assoc]
      simpa [List.countP_cons] using hNext
  have hLast := (hGeneral 0 t ht hRun).lt
  omega

/-! ## §5 Behind the `yield()` of `kernel_irq` -/

/-- In user mode, with the file system mounted, timer interrupts pass without a `yield()` as
    long as the counter does not reach 0. -/
theorem exists_run_of_ticks (k : Nat) {u : Sched} (hMode : u.mode = .user)
    (hAlive : u.self.doomed = false) (hMounted : u.mounted = true)
    (hTicks : ∀ j < k, u.self.ticks - BitVec.ofNat 8 (j + 1) ≠ 0) :
    ∃ v, Run Step u (List.replicate k (.irq true false)) v := by
  -- on the interrupts; one more takes the counter down by one
  induction k generalizing u with
  | zero => exact ⟨u, .nil u⟩
  | succ k ih =>
    have hMore : ¬ u.self.ticks - 1 = 0 := hTicks 0 (Nat.succ_pos k)
    let v : Sched := { u.setSelf fun p => { p with ticks := u.self.ticks - 1 } with mode := .user }
    have hStep : Step u (.irq true false) v := by
      have hYield : false = (u.reachesTail && u.irqYields true) := by
        rw [reachesTail, Sched.irqYields, hAlive, hMounted, beq_eq_false_iff_ne.mpr hMore]
        rfl
      show (if u.mode = .user ∧ false = (u.reachesTail && u.irqYields true) then
        some (u.prologue .irqMount (irqTail · true)) else none) = some v
      rw [if_pos ⟨hMode, hYield⟩, prologue, if_neg (by simp [hAlive]),
        if_neg (by simp [hMounted]), irqTail_of_more hAlive hMore]
    have hSelf : v.self = { u.self with ticks := u.self.ticks - 1 } := self_tick u
    obtain ⟨w, hRun⟩ := ih (u := v) rfl (by rw [hSelf]; exact hAlive) hMounted fun j hj => by
      have hNext := hTicks (j + 1) (Nat.succ_lt_succ hj)
      rw [hSelf]
      show u.self.ticks - 1 - BitVec.ofNat 8 (j + 1) ≠ 0
      have hSum : u.self.ticks - 1 - BitVec.ofNat 8 (j + 1) =
          u.self.ticks - BitVec.ofNat 8 (j + 1 + 1) := by
        have hSucc : BitVec.ofNat 8 (j + 1 + 1) = BitVec.ofNat 8 (j + 1) + 1 :=
          BitVec.ofNat_add (j + 1) 1
        rw [hSucc]
        bv_omega
      rw [hSum]
      exact hNext
    exact ⟨w, .cons hStep hRun⟩

/-- The ticks written back behind the `yield()` of `kernel_irq` are 0, and last for 256
    interrupts. -/
theorem not_sliceBounded_of_irqYield {t : Sched} (hMode : t.mode = .resuming (.irqYield 0))
    (hAlive : t.self.doomed = false) (hMounted : t.mounted = true) : ¬ SliceBounded t := by
  let u : Sched := { t.setSelf fun p => { p with ticks := 0 } with mode := .user }
  have hSelf : u.self = { t.self with ticks := 0 } := self_setSelf t fun p => { p with ticks := 0 }
  have hAlive' : (t.setSelf fun p => { p with ticks := 0 }).self.doomed = false := by
    rw [self_setSelf]
    exact hAlive
  have hStep : Step t .resume u := by
    unfold Step perform
    simp only [hMode]
    exact congrArg some (if_neg (by rw [hAlive']; decide))
  have hTicks : ∀ j < quantum.toNat, u.self.ticks - BitVec.ofNat 8 (j + 1) ≠ 0 := by
    rw [hSelf]
    show ∀ j < quantum.toNat, (0 : Byte) - BitVec.ofNat 8 (j + 1) ≠ 0
    decide
  obtain ⟨v, hRun⟩ := exists_run_of_ticks quantum.toNat (u := u) rfl (by rw [hSelf]; exact hAlive)
    hMounted hTicks
  intro hBounded
  have hCount := hBounded (.resume :: List.replicate quantum.toNat (.irq true false)) v
    (.cons hStep hRun) (by decide) (by decide)
  exact absurd hCount (by decide)

/-! ## §6 When the slice is bounded -/

/-- **The slice after a dispatch is bounded by the quantum exactly when it does not begin
    behind the `yield()` of `kernel_irq`**, or the process has been killed meanwhile and
    exits there: in every run and for every dispatch by `scheduler()`. -/
theorem sliceBounded_iff (events : List Event) (s t : Sched) (p : Slot) (point : Resume)
    (hRun : Run Step boot events s) (hDispatch : Step s (.dispatch p point) t) :
    SliceBounded t ↔ (∀ ticks, point ≠ .irqYield ticks) ∨ (s.procs p).doomed = true := by
  have hs : Suspended s := hRun.invariant (fun _ _ _ => suspended_step) suspended_boot
  have ht : Suspended t := suspended_step hs hDispatch
  obtain ⟨⟨-, -, rfl⟩, ⟨⟩⟩ := Option.ite_none_right_eq_some.mp hDispatch
  have hSelf : (s.dispatch p).self = { s.procs p with state := .running, ticks := quantum } := by
    exact (procs_setProc s p p fun q => { q with state := .running, ticks := quantum }).trans
      (if_pos rfl)
  have hDoomed : (s.dispatch p).self.doomed = (s.procs p).doomed := by rw [hSelf]; rfl
  constructor
  -- a process that resumes inside its own yield writes 0 over its fresh quantum
  · intro hBounded
    by_contra hNot
    rw [not_or, Bool.not_eq_true, not_forall_not] at hNot
    obtain ⟨⟨ticks, hPoint⟩, hAlive⟩ := hNot
    have hMode : (s.dispatch p).mode = .resuming (.irqYield ticks) := congrArg Mode.resuming hPoint
    obtain rfl := ht.resuming ticks hMode
    have hMounted : (s.dispatch p).mounted = true := by
      by_contra hEarly
      obtain h | h | h := (ht.early (Bool.eq_false_of_not_eq_true hEarly)).2 <;>
        rw [hMode] at h <;> cases h
    exact not_sliceBounded_of_irqYield hMode (hDoomed.trans hAlive) hMounted hBounded
  · intro hGood
    refine sliceBounded_of_inSlice ⟨rfl, by rw [hSelf], fun ticks hPoint => ?_⟩
    obtain hOther | hKilled := hGood
    · exact absurd hPoint (hOther ticks)
    · exact hDoomed.trans hKilled

/-- The first slice of "init": its first trap mounts the file system, and after ten ticks it
    yields. -/
def firstYield : List Event :=
  [.dispatch 0 .fresh, .resume, .irq true false, .wakeup 0, .dispatch 0 .irqMount, .resume,
    .irqMounted true false] ++ List.replicate 8 (.irq true false) ++ [.irq true true]

/-- The first slice of "init" is bounded. -/
theorem boot_sliceBounded :
    ∃ t, Run Step boot [] boot ∧ Step boot (.dispatch 0 .fresh) t ∧ SliceBounded t := by
  let t := (boot.perform (.dispatch 0 .fresh)).get (by decide +kernel)
  have hDispatch : Step boot (.dispatch 0 .fresh) t := (Option.some_get _).symm
  exact ⟨t, .nil boot, hDispatch,
    (sliceBounded_iff [] boot t 0 .fresh (.nil boot) hDispatch).mpr (.inl fun _ h => by cases h)⟩

/-- The slice of "init" that begins behind its first `yield()` in `kernel_irq` is not. -/
theorem afterFirstYield_not_sliceBounded :
    ∃ s t, Run Step boot firstYield s ∧ Step s (.dispatch 0 (.irqYield 0)) t ∧
      ¬ SliceBounded t := by
  let s := (performAll perform boot firstYield).get (by decide +kernel)
  let t := (s.perform (.dispatch 0 (.irqYield 0))).get (by decide +kernel)
  exact ⟨s, t, run_of_performAll (Option.some_get _).symm, (Option.some_get _).symm,
    not_sliceBounded_of_irqYield (by decide +kernel) (by decide +kernel) (by decide +kernel)⟩

end Sched

end Xv6502.Kernel
