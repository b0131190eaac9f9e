import Xv6502.Kernel.ProcessLife
import Xv6502.Kernel.ProcessRuns

/-!
# Timed Sleep

All processes in `sys_sleep` share one alarm, `next_wakeup_call`. It is never later than the time
of a process that still sleeps: whoever falls asleep lowers it first, and `timer_interrupt`, which
resets it, wakes every sleeper up. Those whose time has not come lower it again when they run.
-/

namespace Xv6502.Kernel

open Xv6502.Emulator Xv6502.Lib

/-! ## §1 The time of a sleeper -/

/-- The sum of `sys_sleep` is capped to the maximum possible wait time. -/
theorem Table.sleepTotal_toNat (start ticks : Ticks) :
    (Table.sleepTotal start ticks).toNat = min (start.toNat + ticks.toNat) 0xffffffff := by
  have hTicks := ticks.isLt
  have hStart := start.isLt
  have hSum : (ticks + start).toNat = (ticks.toNat + start.toNat) % 2 ^ 32 := BitVec.toNat_add ..
  simp only [Table.sleepTotal, BitVec.lt_def]
  split
  · have hMax : (0xffffffff : Ticks).toNat = 0xffffffff := rfl
    omega
  · omega

namespace Table

variable {s t : Table}

/-- What a move other than a tick does to a process, as far as `sys_sleep` is concerned: who sleeps
    behind it has slept before or falls asleep by the rules, and the target of a call does not
    change. -/
structure Rests (s : Table) (p r : Proc) : Prop where
  asleep : r.state = .sleeping →
    p.state = .sleeping ∧ r.channel = p.channel ∧ r.point = p.point ∨ Sleeps s r
  target : ∀ start ticks total, r.point = .timing start ticks total →
    p.point = .timing start ticks total ∨ total = sleepTotal start ticks

theorem Rests.refl (s : Table) (p : Proc) : Rests s p p :=
  ⟨fun h => .inl ⟨h, rfl, rfl⟩, fun _ _ _ h => .inl h⟩

theorem Rests.woken {p r : Proc} (hChannel : r.channel = p.channel) (hPoint : r.point = p.point)
    (hState : r.state = p.state ∨ p.state = .sleeping ∧ r.state = .ready) : Rests s p r := by
  refine ⟨fun h => .inl ⟨by grind, hChannel, hPoint⟩, fun start ticks total h => .inl ?_⟩
  rw [← hPoint, h]

/-- A process that is awake behind the move, at a place outside `sys_sleep` or where it was. -/
theorem Rests.awake {p r : Proc} (hState : r.state ≠ .sleeping)
    (hPoint : r.point = p.point ∨ ∀ start ticks total, r.point ≠ .timing start ticks total) :
    Rests s p r := by
  refine ⟨fun h => absurd h hState, fun start ticks total h => ?_⟩
  rcases hPoint with hSame | hOther
  · exact .inl (hSame ▸ h)
  · exact absurd h (hOther start ticks total)

/-- A move of the processes without a tick of the timer. -/
structure Resting (s t : Table) : Prop where
  systicks : t.systicks = s.systicks
  nextWakeupCall : t.nextWakeupCall ≤ s.nextWakeupCall
  rests : ∀ p, Rests s (s.procs p) (t.procs p)

theorem Resting.quiet (hQuiet : Quiet s t) (hTicks : t.systicks = s.systicks)
    (hCall : t.nextWakeupCall = s.nextWakeupCall) : Resting s t := by
  refine ⟨hTicks, hCall ▸ BitVec.le_refl _, fun p => ?_⟩
  have hWoken := hQuiet.woken p
  exact .woken hWoken.channel hWoken.point hWoken.state

/-- The running process goes to a place outside `sys_sleep`. -/
theorem rests_goto (h : Life s) (hRun : s.running = true) {point : Place}
    (hPoint : ∀ start ticks total, point ≠ .timing start ticks total) (p : Slot) :
    Rests s (s.procs p) ((s.goto point).procs p) := by
  have hState := (goto_keeps h hRun point p).2.1
  rw [goto_eq_become, procs_become] at hState ⊢
  split
  · next hEq =>
    rw [if_pos hEq] at hState
    refine .awake ?_ (.inr hPoint)
    rw [hState, hEq, ← self, h.turn hRun]
    simp
  · exact .refl s _

/-- The running process returns, and another one is given up or begins. -/
theorem rests_setProc_goto (h : Life s) (hRun : s.running = true) {i : Slot} {f : Proc → Proc}
    (hOther : i ≠ s.current) (hState : (f (s.procs i)).state ≠ .sleeping)
    (hPoint : (f (s.procs i)).point = (s.procs i).point) (value : Word) (p : Slot) :
    Rests s (s.procs p) (((s.setProc i f).goto (.returning value)).procs p) := by
  have hSame : (s.goto (.returning value)).procs i = s.procs i := by
    rw [goto_eq_become, procs_become, if_neg hOther]
  rw [setProc_goto_comm s f _ hOther, procs_setProc, hSame]
  split
  · next hEq =>
    subst hEq
    exact .awake hState (.inl hPoint)
  · exact rests_goto h hRun (fun _ _ _ => Place.noConfusion) p

theorem Resting.become (h : Life s) {r : Proc} {running : Bool} (hRun : s.running = true)
    (hActs : Acts s r running) : Resting s (s.become r running) := by
  refine ⟨rfl, BitVec.le_refl _, fun p => ?_⟩
  rw [procs_become]
  split
  · next hEq =>
    subst hEq
    refine ⟨fun hSleeping => .inr ?_, fun start ticks total hPoint => ?_⟩
    · rcases hActs.state with ⟨-, hSame, -⟩ | ⟨-, hReady, -⟩ | ⟨-, -, hSleeps⟩
      · rw [hSleeping, h.turn hRun] at hSame
        cases hSame
      · rw [hSleeping] at hReady
        cases hReady
      · exact hSleeps
    · have hEnters := hActs.enters
      rw [hPoint] at hEnters
      exact hEnters
  · exact .refl s _

/-- **What a move means for the sleepers**: it is a tick of the timer, or it leaves them alone. -/
theorem Move.resting (h : Life s) (hMove : Move s t) :
    s.timerInterrupt = some t ∨ Resting s t := by
  cases hMove with
  | calm hCalm =>
    -- a sleeper is not the process that runs, so what that one does to itself leaves it asleep
    cases hCalm with
    | wakeup channel => exact .inr (.quiet (Quiet.wakeup s channel) rfl rfl)
    | tick hTick => exact .inl hTick
    | act r running hRun hActs => exact .inr (.become h hRun hActs)
    | arm total hLow => exact .inr ⟨rfl, hLow, fun p => .refl s _⟩
    | slept start ticks total _ _ => exact .inr ⟨rfl, BitVec.le_refl _, fun p => .refl s _⟩
    | mount trap hRun _ _ => exact .inr ⟨rfl, BitVec.le_refl _, rests_goto h hRun nofun⟩
    | exit cause hRun _ hExit =>
      have hExits := exit_exits hExit
      refine .inr ⟨by rw [hExits.rest], by rw [hExits.rest]; exact BitVec.le_refl _, fun p => ?_⟩
      by_cases hp : p = s.current
      · subst hp
        refine .awake ?_ (.inr fun start ticks total => ?_)
        · simp [hExits.ended.state]
        · simp [hExits.ended.point]
      -- the exit wakes up a parent that waits, which is no timed sleep
      · have hReleased := hExits.released p hp
        exact .woken hReleased.channel hReleased.point hReleased.state
    | create child trap hRun _ _ _ =>
      refine .inr ⟨rfl, BitVec.le_refl _, fun p => ?_⟩
      rw [procs_create]
      split
      · exact .awake nofun (.inr nofun)
      · exact .refl s _
    | page child pid segment k page _ _ =>
      exact .inr (.quiet (Quiet.setProc ⟨rfl, rfl, rfl, rfl, rfl, .inl rfl⟩) rfl rfl)
    | publish child pid segment hRun hPoint =>
      have hBuilds := h.builds s.current child pid segment hPoint
      have hOther := h.building_ne hRun hBuilds.building
      exact .inr ⟨rfl, BitVec.le_refl _, rests_setProc_goto h hRun hOther (by simp) rfl pid⟩
    | mark i _ _ _ _ _ => exact .inr (.quiet (Quiet.mark s i) rfl rfl)
  | dispatch p _ _ =>
    refine .inr ⟨rfl, BitVec.le_refl _, fun q => ?_⟩
    rw [procs_dispatch]
    split
    · next hEq =>
      subst hEq
      exact .awake nofun (.inl rfl)
    · exact .refl s _
  | abandon child pid segment hRun hPoint =>
    have hBuilds := h.builds s.current child pid segment hPoint
    have hOther := h.building_ne hRun hBuilds.building
    exact .inr ⟨rfl, BitVec.le_refl _, rests_setProc_goto h hRun hOther (by simp) rfl (-1)⟩
  | reap i hRun hState _ =>
    -- what is reaped is a zombie and no sleeper
    have hOther : i ≠ s.current := by
      rintro rfl
      have hTurn := h.turn hRun
      rw [self, hState] at hTurn
      cases hTurn
    exact .inr ⟨rfl, BitVec.le_refl _, rests_setProc_goto h hRun hOther (by simp) rfl _⟩

/-! ## §2 The alarm -/

/-- A process that sleeps on `&systicks` has time left, and the alarm is not later than its
    time. -/
structure Alarm (s : Table) : Prop where
  asleep : ∀ p, (s.procs p).state = .sleeping → (s.procs p).channel = .systicks →
    ∃ start ticks total, (s.procs p).point = .timing start ticks total ∧ s.systicks < total ∧
      s.nextWakeupCall ≤ total
  target : ∀ p start ticks total, (s.procs p).point = .timing start ticks total →
    total = sleepTotal start ticks

/-- A firing of the timer wakes every sleeper up; without one nobody's time has come. -/
theorem Alarm.tick (h : Alarm s) (hTick : s.timerInterrupt = some t) : Alarm t := by
  obtain ⟨-, ⟨-, rfl⟩ | ⟨hEarly, rfl⟩⟩ := timerInterrupt_cases hTick
  · refine ⟨?_, ?_⟩
    · intro p hSleeping hChannel
      simp only [wakeup] at hSleeping hChannel
      split at hSleeping
      · cases hSleeping
      · next hNot =>
        rw [if_neg hNot] at hChannel
        exact absurd ⟨hSleeping, hChannel⟩ hNot
    · intro p start ticks total hPoint
      have hWoken := wakeup_woken { s with systicks := s.systicks + 1 } .systicks p
      exact h.target p start ticks total (hWoken.point ▸ hPoint)
  · refine ⟨?_, h.target⟩
    intro p hSleeping hChannel
    obtain ⟨start, ticks, total, hPoint, -, hCall⟩ := h.asleep p hSleeping hChannel
    refine ⟨start, ticks, total, hPoint, ?_, hCall⟩
    exact Nat.lt_of_lt_of_le hEarly hCall

theorem Alarm.resting (h : Alarm s) (hRest : Resting s t) : Alarm t := by
  have hCall := hRest.nextWakeupCall
  refine ⟨?_, ?_⟩
  · intro p hSleeping hChannel
    rw [hRest.systicks]
    rcases (hRest.rests p).asleep hSleeping with ⟨hBefore, hSame, hPoint⟩ | hSleeps
    · obtain ⟨start, ticks, total, hTiming, hEarly, hTarget⟩ :=
        h.asleep p hBefore (hSame ▸ hChannel)
      exact ⟨start, ticks, total, hPoint.trans hTiming, hEarly, BitVec.le_trans hCall hTarget⟩
    · cases hSleeps with
      | device n hDevice =>
        rw [hChannel] at hDevice
        cases hDevice
      | wait hOwn _ =>
        rw [hChannel] at hOwn
        cases hOwn
      | timed start ticks total _ hTiming hEarly hTarget =>
        exact ⟨start, ticks, total, hTiming, hEarly, BitVec.le_trans hCall hTarget⟩
  · intro p start ticks total hPoint
    rcases (hRest.rests p).target start ticks total hPoint with hBefore | hTotal
    · exact h.target p start ticks total hBefore
    · exact hTotal

theorem Alarm.move (hLife : Life s) (h : Alarm s) (hMove : Move s t) : Alarm t := by
  rcases hMove.resting hLife with hTick | hRest
  · exact h.tick hTick
  · exact h.resting hRest

theorem Alarm.boot (code : Page) (top : Word) : Alarm (boot code top) := by
  refine ⟨?_, ?_⟩
  · intro p hSleeping
    simp only [Table.boot] at hSleeping
    split at hSleeping
    · cases hSleeping
    · cases hSleeping
  · intro p start ticks total hPoint
    simp only [Table.boot] at hPoint
    split at hPoint
    · cases hPoint
    · cases hPoint

/-! ## §3 The return of `sys_sleep` -/

/-- `sys_sleep`, called at `start` for some ticks, returns 0: at once, or when it runs again. -/
structure SleepReturns (s : Table) (start ticks : Ticks) (t : Table) : Prop where
  running : s.running = true
  turn : s.atSyscall .sleep ∧ start = s.systicks ∧ Step s (.sleep (some ticks)) t ∨
    (∃ total, s.self.point = .timing start ticks total) ∧ Step s .proceed t
  value : (t.procs s.current).point = .returning 0

theorem sleepTurn_returns {start ticks total : Ticks}
    (hValue : ((s.sleepTurn start ticks total).procs s.current).point = .returning 0) :
    total ≤ s.systicks ∧ (s.sleepTurn start ticks total).systicks = s.systicks := by
  rw [sleepTurn] at hValue ⊢
  split
  · next hTime => exact ⟨hTime, rfl⟩
  · next hEarly =>
    rw [if_neg hEarly, sleep_eq_become, procs_become, if_pos rfl] at hValue
    cases hValue

theorem SleepReturns.time {start ticks : Ticks} (h : SleepReturns s start ticks t)
    (hAlarm : Alarm s) : sleepTotal start ticks ≤ t.systicks := by
  obtain ⟨hRun, ⟨hCall, rfl, hStep⟩ | ⟨⟨total, hPoint⟩, hStep⟩, hValue⟩ := h
  · have hAct : s.act (.sleep (some ticks)) = some t :=
      (Option.ite_none_right_eq_some.mp hStep).2
    rw [act, if_pos hCall] at hAct
    obtain rfl := Option.some.inj hAct
    obtain ⟨hTime, hSame⟩ := sleepTurn_returns hValue
    rw [sysSleep, hSame]
    exact hTime
  · have hProceed : s.proceed = some t := (Option.ite_none_right_eq_some.mp hStep).2
    rw [proceed, hPoint] at hProceed
    obtain rfl := Option.some.inj hProceed
    obtain ⟨hTime, hSame⟩ := sleepTurn_returns hValue
    rw [hSame, ← hAlarm.target s.current start ticks total hPoint]
    exact hTime

/-- **Timed sleep is never early and never misses its wakeup.** Only a tick moves the clock: it
    wakes up all the sleepers as soon as the next call is due, and the next call is never behind
    the total of one that sleeps. -/
theorem timed_sleep {code : Page} {top : Word} {es : List Event}
    (hRun : Run Step (boot code top) es s) :
    (∀ p, (s.procs p).state = .sleeping → (s.procs p).channel = .systicks →
      ∃ start ticks total, (s.procs p).point = .timing start ticks total ∧
        total.toNat = min (start.toNat + ticks.toNat) 0xffffffff ∧ s.systicks < total ∧
          s.nextWakeupCall ≤ total) ∧
      ∀ start ticks t, SleepReturns s start ticks t →
        min (start.toNat + ticks.toNat) 0xffffffff ≤ t.systicks.toNat := by
  have hMove : ∀ s t, Life s → Alarm s → Move s t → Alarm t := fun _ _ hLife h => h.move hLife
  obtain ⟨-, hAlarm⟩ := invariant_of_moves hMove hRun (Life.boot code top) (Alarm.boot code top)
  refine ⟨?_, ?_⟩
  · intro p hSleeping hChannel
    obtain ⟨start, ticks, total, hPoint, hEarly, hCall⟩ := hAlarm.asleep p hSleeping hChannel
    refine ⟨start, ticks, total, hPoint, ?_, hEarly, hCall⟩
    rw [hAlarm.target p start ticks total hPoint, sleepTotal_toNat]
  · intro start ticks t hReturns
    rw [← sleepTotal_toNat]
    exact hReturns.time hAlarm

/-- "init" sleeps for one tick. -/
theorem init_sleeps :
    ∃ es s, Run Step (boot (fun _ => 0) 0x800) es s ∧ (s.procs 0).state = .sleeping ∧
      (s.procs 0).channel = .systicks ∧ ∃ start ticks total,
        (s.procs 0).point = .timing start ticks total ∧
          total.toNat = min (start.toNat + ticks.toNat) 0xffffffff ∧ s.systicks < total ∧
            s.nextWakeupCall ≤ total := by
  have hCall : Run Step (boot (fun _ => 0) 0x800) (firstTrap ++ [.trap (.brk 0x53) 0])
      (pair (parentAt (fun _ => 0) 0x800 .running 0 .null (.trapped (.brk 0x53))) emptySlot 0 true 1
        2 true []) :=
    (boot_resting _ _).append (.cons (pair_trap (.brk 0x53) 0) (.nil _))
  have hSleep : Step (pair (parentAt (fun _ => 0) 0x800 .running 0 .null (.trapped (.brk 0x53)))
      emptySlot 0 true 1 2 true []) (.sleep (some 1)) _ := step_of_act rfl rfl
  have hRun := hCall.append (.cons hSleep (.nil _))
  exact ⟨_, _, hRun, rfl, rfl, (timed_sleep hRun).1 0 rfl rfl⟩

end Table

end Xv6502.Kernel
