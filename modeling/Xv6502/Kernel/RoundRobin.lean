import Xv6502.Kernel.ProcessExit

/-!
# The Round Robin

`scheduler()` of `kernel/proc.c`, one look at a process at a time. Its index is a static variable:
it goes on around the table from call to call and from scan to scan, whichever process makes the
call. The states of the processes are not the scheduler's affair, so they may change in any way
between any two looks, in the idle loop and while a process runs.
-/

namespace Xv6502.Kernel

open Xv6502.Lib

/-! ## §1 The looks of the scheduler -/

/-- Where `scheduler()` is. -/
inductive Phase where
  /-- Not called. -/
  | outside
  /-- At the head of the `for` loop, with its local `i`. -/
  | scanning (i : Nat)
  /-- In the idle loop. -/
  | idle
  deriving DecidableEq, Repr

/-- The states of the processes and the variables of the scheduler. -/
structure Rotation where
  states : Slot → ProcState
  roundRobinIndex : Slot
  phase : Phase

/-- What can happen next. -/
inductive Turn where
  | call
  /-- The process at the index is neither READY nor NEW. -/
  | pass
  /-- The process at the index gets the CPU, and `scheduler()` returns on its stack. -/
  | dispatch (p : Slot)
  /-- A scan has found nothing. -/
  | rest
  /-- The idle loop ends, and the next scan begins. -/
  | rescan
  /-- Anybody else changes the states of the processes. -/
  | change (states : Slot → ProcState)

/-- The process that is dispatched. -/
def Turn.dispatched : Turn → Option Slot
  | .dispatch p => some p
  | _ => none

/-- The processes that are dispatched, one after the other. -/
def dispatches (es : List Turn) : List Slot := es.filterMap Turn.dispatched

@[simp] theorem dispatches_dispatch (p : Slot) (es : List Turn) :
    dispatches (.dispatch p :: es) = p :: dispatches es := rfl

theorem mem_dispatches {p : Slot} {es : List Turn} : p ∈ dispatches es ↔ .dispatch p ∈ es := by
  rw [dispatches, List.mem_filterMap]
  constructor
  · rintro ⟨e, hMem, hIs⟩
    cases e with
    | dispatch p' => exact Option.some.inj hIs ▸ hMem
    | _ => cases hIs
  · intro hMem
    exact ⟨_, hMem, rfl⟩

namespace Rotation

/-- The process is READY or NEW. -/
def ready (r : Rotation) (q : Slot) : Bool := (r.states q).runnable

/-- The body of the `for` loop can be entered. -/
def looking (r : Rotation) : Option Nat :=
  match r.phase with
  | .scanning i => if i < maxProcCount then some i else none
  | _ => none

/-- One turn; `none` if it cannot happen. -/
def perform (r : Rotation) : Turn → Option Rotation
  | .call => if r.phase = .outside then some { r with phase := .scanning 0 } else none
  -- not runnable: the index moves on to the next entry
  | .pass =>
    match r.looking with
    | some i =>
      if r.ready r.roundRobinIndex then none
      else some { r with roundRobinIndex := r.roundRobinIndex + 1, phase := .scanning (i + 1) }
    | none => none
  | .dispatch p =>
    match r.looking with
    | some _ =>
      if p = r.roundRobinIndex ∧ r.ready p then
        some
          { states := Function.update r.states p .running
            roundRobinIndex := p + 1
            phase := .outside }
      else none
    | none => none
  -- a whole turn without a process: interrupts on, and again
  | .rest => if r.phase = .scanning maxProcCount then some { r with phase := .idle } else none
  | .rescan => if r.phase = .idle then some { r with phase := .scanning 0 } else none
  | .change states => some { r with states := states }

/-- The step relation of the turns. -/
def Step (r : Rotation) (e : Turn) (r' : Rotation) : Prop := r.perform e = some r'

variable {r r' s t : Rotation} {es : List Turn} {p q : Slot}

theorem pass_iff : Step r .pass r' ↔
    ∃ i, r.looking = some i ∧ r.ready r.roundRobinIndex = false ∧
      r' = { r with roundRobinIndex := r.roundRobinIndex + 1, phase := .scanning (i + 1) } := by
  rw [Step, perform]
  cases r.looking with
  | none => simp
  | some i =>
    cases r.ready r.roundRobinIndex with
    | true => simp
    | false => simp [eq_comm]

theorem dispatch_iff : Step r (.dispatch p) r' ↔
    ∃ i, r.looking = some i ∧ p = r.roundRobinIndex ∧ r.ready p = true ∧
      r' = ⟨Function.update r.states p .running, p + 1, .outside⟩ := by
  rw [Step, perform]
  cases r.looking with
  | none => simp
  | some i =>
    by_cases h : p = r.roundRobinIndex ∧ r.ready p = true
    · simp [h.1.symm, h.2, eq_comm]
    · simp only [if_neg h]
      grind

/-- The index moves on by one with each look, and only so. -/
theorem Step.index {e : Turn} (h : Step r e r') :
    r'.roundRobinIndex = r.roundRobinIndex ∨
      (e = .pass ∧ r.ready r.roundRobinIndex = false ∨ e = .dispatch r.roundRobinIndex) ∧
        r'.roundRobinIndex = r.roundRobinIndex + 1 := by
  cases e with
  | pass =>
    obtain ⟨i, -, hNot, rfl⟩ := pass_iff.mp h
    exact .inr ⟨.inl ⟨rfl, hNot⟩, rfl⟩
  | dispatch p =>
    obtain ⟨i, -, rfl, -, rfl⟩ := dispatch_iff.mp h
    exact .inr ⟨.inr rfl, rfl⟩
  | call =>
    obtain ⟨-, h⟩ := Option.ite_none_right_eq_some.mp h
    exact .inl (Option.some.inj h ▸ rfl)
  | rest =>
    obtain ⟨-, h⟩ := Option.ite_none_right_eq_some.mp h
    exact .inl (Option.some.inj h ▸ rfl)
  | rescan =>
    obtain ⟨-, h⟩ := Option.ite_none_right_eq_some.mp h
    exact .inl (Option.some.inj h ▸ rfl)
  | change states => exact .inl (Option.some.inj h ▸ rfl)

/-! ## §2 Fairness -/

/-- The process is READY or NEW from the first state on until it is dispatched. -/
def StaysReady (q : Slot) (s : Rotation) (es : List Turn) : Prop :=
  ∀ es₁ es₂ u, es = es₁ ++ es₂ → Run Step s es₁ u → .dispatch q ∉ es₁ → u.ready q = true

theorem StaysReady.first (h : StaysReady q s es) : s.ready q = true :=
  h [] es s rfl (.nil s) (by simp)

theorem StaysReady.tail {e : Turn} (h : StaysReady q s (e :: es)) (hStep : Step s e t)
    (hNot : e ≠ .dispatch q) : StaysReady q t es := by
  intro es₁ es₂ u hEq hRun hMem
  refine h (e :: es₁) es₂ u (by rw [hEq, List.cons_append]) (.cons hStep hRun) ?_
  rw [List.mem_cons, not_or]
  exact ⟨fun hEq => hNot hEq.symm, hMem⟩

theorem StaysReady.take {es₁ es₂ : List Turn} (h : StaysReady q s (es₁ ++ es₂)) :
    StaysReady q s es₁ := by
  intro es' es'' u hEq hRun hMem
  exact h es' (es'' ++ es₂) u (by rw [hEq, List.append_assoc]) hRun hMem

/-- A look does not pass a process that waits: the way to it gets no longer. -/
theorem ahead_le (hRun : Run Step s es t) (hStays : StaysReady q s es)
    (hNot : .dispatch q ∉ es) : ahead t.roundRobinIndex q ≤ ahead s.roundRobinIndex q := by
  induction hRun with
  | nil s => exact Nat.le_refl _
  | @cons s u t e es head _ ih =>
    rw [List.mem_cons, not_or] at hNot
    have hOther : e ≠ .dispatch q := fun h => hNot.1 h.symm
    refine Nat.le_trans (ih (hStays.tail head hOther) hNot.2) ?_
    rcases head.index with hSame | ⟨hLook, hNext⟩
    · rw [hSame]
    · -- the process at the index is not `q`, which is ready and not dispatched
      have hNe : s.roundRobinIndex ≠ q := by
        rintro rfl
        rcases hLook with ⟨-, hIdle⟩ | rfl
        · rw [hStays.first] at hIdle
          cases hIdle
        · exact hOther rfl
      have hNearer := ahead_succ hNe
      rw [hNext]
      omega

theorem dispatched_between {s₀ u : Rotation} (hFirst : Step s₀ (.dispatch p) s)
    (hRun : Run Step s es t) (hNext : Step t (.dispatch p) u) (hStays : StaysReady q s es) :
    .dispatch q ∈ es := by
  by_contra hNot
  have hLe := ahead_le hRun hStays hNot
  obtain ⟨-, -, -, -, rfl⟩ := dispatch_iff.mp hFirst
  obtain ⟨-, -, hIndex, -, -⟩ := dispatch_iff.mp hNext
  have hNe : p ≠ q := by
    rintro rfl
    have hReady := hStays.first
    simp [ready, ProcState.runnable] at hReady
  have hNearer := ahead_succ hNe
  rw [← hIndex] at hLe
  dsimp only at hLe
  omega

/-- **Round-robin fairness**: between two dispatches of a process every process that stays ready
    is dispatched, so that nobody overtakes it twice. The index goes round the table entry by
    entry and passes over nobody who is ready. -/
theorem round_robin_fair (p q : Slot) :
    (∀ s₀ s es t u, Step s₀ (.dispatch p) s → Run Step s es t → Step t (.dispatch p) u →
      StaysReady q s es → .dispatch q ∈ es) ∧
    ∀ s es t, Run Step s es t → StaysReady q s es → .dispatch q ∉ es →
      (dispatches es).count p ≤ 1 := by
  refine ⟨fun s₀ s es t u => dispatched_between, ?_⟩
  intro s es t hRun hStays hNot
  -- on the run; `q` is runnable all along and is not dispatched in it
  induction hRun with
  | nil s => exact Nat.zero_le 1
  | @cons s u t e es head tail ih =>
    rw [List.mem_cons, not_or] at hNot
    have hTail := hStays.tail head fun h => hNot.1 h.symm
    have hRest := ih hTail hNot.2
    by_cases hIs : e = .dispatch p
    · -- a second dispatch would have `q` dispatched before it
      subst hIs
      rw [dispatches_dispatch, List.count_cons_self]
      suffices hNone : (dispatches es).count p = 0 by rw [hNone]
      rw [List.count_eq_zero, mem_dispatches]
      intro hMem
      obtain ⟨es₁, es₂, rfl⟩ := List.append_of_mem hMem
      obtain ⟨w, hBefore, hAfter⟩ := tail.of_append
      cases hAfter with
      | cons hSecond _ =>
        have hThere := dispatched_between head hBefore hSecond hTail.take
        exact hNot.2 (List.mem_append_left _ hThere)
    · have hCount : (dispatches (e :: es)).count p = (dispatches es).count p := by
        cases e with
        | dispatch p' =>
          have hOther : p' ≠ p := fun h => hIs (h ▸ rfl)
          rw [dispatches_dispatch, List.count_cons_of_ne hOther]
        | _ => rfl
      rw [hCount]
      exact hRest

/-- The first two processes are ready. -/
def twoReady (phase : Phase) : Rotation where
  states := fun p => if p = 0 ∨ p = 1 then .ready else .unused
  roundRobinIndex := 0
  phase := phase

/-- The first process overtakes the second one. -/
theorem twoReady_overtaken :
    ∃ t, Run Step (twoReady .outside) [.call, .dispatch 0] t ∧
      (dispatches [.call, .dispatch 0]).count 0 ≤ 1 := by
  have hCall : Step (twoReady .outside) .call (twoReady (.scanning 0)) := rfl
  have hDispatch : Step (twoReady (.scanning 0)) (.dispatch 0) _ :=
    dispatch_iff.mpr ⟨0, rfl, rfl, rfl, rfl⟩
  have hRun := Run.cons hCall (.cons hDispatch (.nil _))
  have hStays : StaysReady 1 (twoReady .outside) [.call, .dispatch 0] := by
    intro es₁ es₂ u hEq hFirst _
    -- the second process is ready in each of the three states
    match es₁, hFirst with
    | [], .nil _ => rfl
    | [e], .cons h (.nil _) =>
      obtain ⟨rfl, -⟩ := List.cons.inj hEq
      obtain rfl := Option.some.inj (hCall.symm.trans h)
      rfl
    | [e, e'], .cons h (.cons h' (.nil _)) =>
      obtain ⟨rfl, hRest⟩ := List.cons.inj hEq
      obtain ⟨rfl, -⟩ := List.cons.inj hRest
      obtain rfl := Option.some.inj (hCall.symm.trans h)
      obtain rfl := Option.some.inj (hDispatch.symm.trans h')
      rfl
    | _ :: _ :: _ :: _, _ => cases hEq
  exact ⟨_, hRun, (round_robin_fair 0 1).2 _ _ _ hRun hStays (by simp)⟩

end Rotation

/-! ## §3 The rotation of the process table -/

namespace Table

variable {s t : Table} {es : List Event}

/-- What the scheduler sees of the process table. -/
def rotation (s : Table) : Rotation where
  states := fun p => (s.procs p).state
  roundRobinIndex := s.roundRobinIndex
  phase := if s.running then .outside else .scanning 0

/-- The process that is dispatched. -/
def Event.dispatched : Event → Option Slot
  | .dispatch p => some p
  | _ => none

/-- Whatever a process does is a change of the states, and perhaps a call of `scheduler()`. -/
theorem rotates_change (hIndex : t.roundRobinIndex = s.roundRobinIndex)
    (hRunning : s.running = false → t.running = false) :
    ∃ ts, Run Rotation.Step s.rotation ts t.rotation ∧ dispatches ts = [] := by
  have hChange : Rotation.Step s.rotation (.change t.rotation.states)
      { t.rotation with phase := s.rotation.phase } := by
    simp only [Rotation.Step, Rotation.perform, rotation, hIndex]
  by_cases hSame : t.running = s.running
  · refine ⟨[.change t.rotation.states], .cons hChange ?_, rfl⟩
    rw [show s.rotation.phase = t.rotation.phase by simp only [rotation, hSame]]
    exact .nil _
  · obtain ⟨hBefore, hAfter⟩ : s.running = true ∧ t.running = false := by
      cases hs : s.running with
      | true => exact ⟨rfl, by grind⟩
      | false => exact absurd ((hRunning hs).trans hs.symm) hSame
    have hCall : Rotation.Step { t.rotation with phase := s.rotation.phase } .call t.rotation := by
      simp [Rotation.Step, Rotation.perform, rotation, hBefore, hAfter]
    exact ⟨[.change t.rotation.states, .call], .cons hChange (.cons hCall (.nil _)), rfl⟩

/-- A scan that finds a process is a sequence of looks. -/
theorem looks_of_search {r : Rotation} {p : Slot} {i k : Nat} (hPhase : r.phase = .scanning i)
    (hTurns : i + k ≤ maxProcCount) (hSearch : search r.ready k r.roundRobinIndex = some p) :
    ∃ ts, Run Rotation.Step r ts ⟨Function.update r.states p .running, p + 1, .outside⟩ ∧
      dispatches ts = [p] := by
  induction k generalizing r i with
  | zero => cases hSearch
  | succ k ih =>
    have hLook : r.looking = some i := by
      rw [Rotation.looking, hPhase]
      exact if_pos (by omega)
    rw [search] at hSearch
    split at hSearch
    · next hReady =>
      obtain rfl := Option.some.inj hSearch
      have hDispatch := Rotation.dispatch_iff.mpr ⟨i, hLook, rfl, hReady, rfl⟩
      exact ⟨[.dispatch r.roundRobinIndex], .cons hDispatch (.nil _), rfl⟩
    · next hNot =>
      have hPass := Rotation.pass_iff.mpr ⟨i, hLook, Bool.eq_false_iff.mpr hNot, rfl⟩
      obtain ⟨ts, hRun, hTurn⟩ := ih (r := { r with
        roundRobinIndex := r.roundRobinIndex + 1
        phase := .scanning (i + 1) }) rfl (by omega) hSearch
      exact ⟨.pass :: ts, .cons hPass hRun, hTurn⟩

theorem Step.rotates {e : Event} (h : Step s e t) :
    ∃ ts, Run Rotation.Step s.rotation ts t.rotation ∧ dispatches ts = e.dispatched.toList := by
  -- a dispatch is the turn of the scan that has found the process
  have hFound : ∀ p, e = .dispatch p → s.running = false ∧
      search s.runnable maxProcCount s.roundRobinIndex = some p ∧ t = s.dispatch p := by
    rintro p rfl
    obtain ⟨⟨hIdle, hSearch⟩, hEq⟩ := Option.ite_none_right_eq_some.mp h
    exact ⟨hIdle, hSearch, (Option.some.inj hEq).symm⟩
  cases h.effect with
  | calm hEvent hCalms =>
    obtain ⟨-, hIndex, hRunning⟩ := Calms.turn hCalms
    have hNone : e.dispatched = none := by
      cases e with
      | dispatch p => exact absurd rfl (hEvent p)
      | _ => rfl
    rw [hNone]
    exact rotates_change hIndex hRunning
  | dispatch p hEvent _ _ _ =>
    obtain ⟨hIdle, hSearch, rfl⟩ := hFound p hEvent
    have hPhase : s.rotation.phase = .scanning 0 := by simp [rotation, hIdle]
    -- the entries passed over by the search are looks of the scan that find nothing
    obtain ⟨ts, hRun, hTurn⟩ := looks_of_search hPhase (Nat.le_of_eq (Nat.zero_add _)) hSearch
    have hEnd : (s.dispatch p).rotation =
        ⟨Function.update s.rotation.states p .running, p + 1, .outside⟩ := by
      simp only [rotation, Rotation.mk.injEq]
      refine ⟨?_, rfl, rfl⟩
      funext q
      rw [procs_dispatch, Function.update_apply]
      split <;> rfl
    rw [hEvent, hEnd]
    exact ⟨ts, hRun, hTurn⟩
  | reap userExitCode i hEvent _ hReaps =>
    obtain ⟨u, hCalms, -, -, -, rfl⟩ := hReaps.split
    obtain ⟨-, hIndex, hRunning⟩ := Calms.turn hCalms
    rw [hEvent]
    exact rotates_change hIndex hRunning
  | abandon child childPid segment hEvent _ _ hEq =>
    subst hEq
    rw [hEvent]
    exact rotates_change rfl id

/-- **The process table rotates**: its runs are runs of the scheduler, with the same dispatches. -/
theorem run_rotates (h : Run Step s es t) :
    ∃ ts, Run Rotation.Step s.rotation ts t.rotation ∧
      dispatches ts = es.filterMap Event.dispatched := by
  induction h with
  | nil s => exact ⟨[], .nil _, rfl⟩
  | @cons s u t e es head _ ih =>
    obtain ⟨ts, hRun, hTurns⟩ := head.rotates
    obtain ⟨ts', hRun', hTurns'⟩ := ih
    refine ⟨ts ++ ts', hRun.append hRun', ?_⟩
    rw [dispatches, List.filterMap_append, ← dispatches, ← dispatches, hTurns, hTurns']
    cases h : e.dispatched with
    | none => simp [h]
    | some p => simp [h]

end Table

end Xv6502.Kernel
