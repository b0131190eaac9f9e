import Xv6502.Kernel.ScheduledCalls

/-!
# The Scheduler of the Process Table

The process table of the system calls and the scheduler of the time slices describe the same
code. Every step of the clocked table is a run of the scheduler, and so every run from the
boot on is one of its runs: it dispatches the same processes in the same order, takes the same
timer interrupts and yields at the same of them.
-/

namespace Xv6502.Kernel

open Xv6502.Emulator Xv6502.Lib

namespace Clocked

variable {c d : Clocked} {u v : Sched} {t : Table}

/-! ## §1 Traps -/

/-- The running process stands outside `fs_init`. -/
theorem Describes.stands (h : Describes c u) (hRun : c.table.running = true)
    (hPlace : ∀ trap, c.table.self.point ≠ .mounting trap) :
    Agrees c u ∧ c.table.mounted = c.slept ∧ Stands c.table.self c.slept u.mode := by
  cases h with
  | idle _ _ hIdle _ =>
    rw [hRun] at hIdle
    cases hIdle
  | turn h hMounted _ hMode => exact ⟨h, hMounted, hMode⟩
  | entering trap _ _ _ _ hPoint _ _ => exact absurd hPoint (hPlace trap)

/-- The place is inside a system call. -/
def inCall : Place → Bool
  | .trapped (.brk _) | .forking _ _ _ | .waiting _ | .timing _ _ _ | .serving | .returning _ => true
  | _ => false

theorem mode_of_inCall {p : Proc} {slept : Bool} {mode : Mode} (hCall : inCall p.point = true)
    (hStands : Stands p slept mode) : mode = .syscall := by
  rw [Stands] at hStands
  generalize p.point = place at hCall hStands
  cases place with
  | trapped trap =>
    cases trap with
    | brk number => exact hStands
    | irq => exact absurd hCall Bool.false_ne_true
    | nmi cause watchdog => exact absurd hCall Bool.false_ne_true
  | _ => first | exact hStands | exact absurd hCall Bool.false_ne_true

/-- The running process stands in a system call. -/
theorem Describes.serves (h : Describes c u) (hLife : Table.Life c.table)
    (hRun : c.table.running = true) (hCall : inCall c.table.self.point = true) : Serves c u := by
  have hPlace : ∀ trap, c.table.self.point ≠ .mounting trap := by
    intro trap hPoint
    rw [hPoint] at hCall
    exact Bool.false_ne_true hCall
  obtain ⟨hAgrees, hMounted, hStands⟩ := h.stands hRun hPlace
  exact ⟨hAgrees, hMounted, hRun, hLife.turn hRun, mode_of_inCall hCall hStands⟩

/-- User code stores a byte. -/
theorem Describes.store (h : Describes c u) (hLife : Table.Life c.table)
    (hRun : c.table.running = true) {addr : Word} {value : Byte}
    (hStore : c.table.act (.store addr value) = some t) : Describes { c with table := t } u := by
  have hTurn := hLife.turn hRun
  obtain ⟨hPoint, hStore⟩ := Option.ite_none_right_eq_some.mp hStore
  obtain ⟨hAgrees, hMounted, hStands⟩ := h.stands hRun (by simp [hPoint])
  split at hStore
  · cases hStore
  · obtain rfl := Option.some.inj hStore
    refine .turn (hAgrees.unseen hTurn hTurn rfl rfl) hMounted hRun ?_
    dsimp only
    rw [Table.self_setSelf, Stands, hPoint]
    rw [Stands, hPoint] at hStands
    exact hStands

/-- The event of the scheduler for a trap that does not get through the prologue at once. -/
def enterEvent : Trap → Sched.Event
  | .brk _ => .syscall
  | .irq => .irq false false
  | .nmi _ _ => .nmi

theorem enterEvent_silent (trap : Trap) : schedMarks (enterEvent trap) = [] := by
  cases trap <;> rfl

/-- A killed process exits in the prologue. -/
theorem perform_enter_doomed (trap : Trap) (hMode : u.mode = .user) (hDoomed : u.self.doomed = true) :
    u.perform (enterEvent trap) = some u.exit := by
  cases trap <;> simp [enterEvent, Sched.perform, Sched.prologue, Sched.reachesTail, hMode, hDoomed]

/-- The first trap of all sleeps in `fs_init`. -/
theorem perform_enter_first (trap : Trap) (hMode : u.mode = .user) (hAlive : u.self.doomed = false)
    (hFirst : u.mounted = false) :
    u.perform (enterEvent trap) =
      some { u.suspend .sleeping (resumeAt (.mounting trap)) with mounted := true } := by
  cases trap <;>
    simp [enterEvent, Sched.perform, Sched.prologue, Sched.reachesTail, resumeAt, hMode, hAlive, hFirst]

/-- Behind the prologue the body of a trap runs. -/
theorem prologue_of_mounted {mounting : Resume} {body : Sched → Sched}
    (hAlive : u.self.doomed = false) (hMounted : u.mounted = true) :
    u.prologue mounting body = body u := by
  simp [Sched.prologue, hAlive, hMounted]

/-- A trap from user mode up to the end of its prologue. -/
theorem Describes.trap (h : Describes c u) (hLife : Table.Life c.table)
    (hRun : c.table.running = true) {trap : Trap} {ax : Word} (hPoint : c.table.self.point = .user)
    (hTrap : c.table.prologue trap ax = some t) : Follows u [] { c with table := t } := by
  have hTurn := hLife.turn hRun
  obtain ⟨hAgrees, hMounted, hUser⟩ := h.stands hRun (by simp [hPoint])
  rw [Stands, hPoint] at hUser
  have hDoomed := hAgrees.doomed
  rw [Table.prologue] at hTrap
  split at hTrap
  · next hKilled =>
    have hStep := perform_enter_doomed trap hUser (hDoomed.trans hKilled)
    refine .silent (enterEvent_silent trap) hStep ?_
    exact (hAgrees.unseen hTurn hTurn rfl rfl).exit hMounted hTrap
  · next hSpared =>
    have hAlive : c.table.self.doomed = false := Bool.eq_false_iff.mpr hSpared
    -- the context is saved on the way to the handler
    have hSaved : Agrees { c with table := c.table.setSelf fun p => { p with ax := ax } } u :=
      hAgrees.unseen hTurn hTurn rfl rfl
    have hStill : (c.table.setSelf fun p => { p with ax := ax }).self.state = .running := by
      rw [Table.self_setSelf]
      exact hTurn
    have hAt : ∀ place, Agrees
        { c with table := (c.table.setSelf fun p => { p with ax := ax }).goto place } u :=
      fun place => hSaved.unseen hStill hStill rfl rfl
    have hSelf : ∀ place, ((c.table.setSelf fun p => { p with ax := ax }).goto place).self =
        { c.table.self with ax := ax, point := place } := by
      intro place
      rw [Table.goto, Table.self_setSelf, Table.self_setSelf]
    dsimp only at hTrap
    split at hTrap
    · next hDone =>
      obtain rfl := Option.some.inj hTrap
      have hSlept : c.slept = true := hMounted.symm.trans hDone
      cases trap with
      | brk number =>
        have hStep : u.perform .syscall = some { u with mode := .syscall } := by
          simp [Sched.perform, hUser, prologue_of_mounted (hDoomed.trans hAlive)
            (hAgrees.mounted.trans hSlept)]
        refine .silent rfl hStep (.stay (.turn ?_ hMounted hRun ?_))
        · have hPlaced := hAt (.trapped (.brk number))
          exact ⟨hPlaced.procs, hPlaced.current, hPlaced.roundRobinIndex, hPlaced.mounted⟩
        · dsimp only
          rw [hSelf]
          rfl
      | irq =>
        refine .stay (.turn (hAt _) hMounted hRun ?_)
        dsimp only
        rw [hSelf]
        exact .inr ⟨hUser, hAlive, hSlept⟩
      | nmi cause watchdog =>
        refine .stay (.turn (hAt _) hMounted hRun ?_)
        dsimp only
        rw [hSelf]
        exact .inr ⟨hUser, hAlive, hSlept⟩
    · next hFirst =>
      obtain rfl := Option.some.inj hTrap
      have hNot : c.slept = false := hMounted.symm.trans (Bool.eq_false_iff.mpr hFirst)
      have hPlaced := hAt (.mounting trap)
      refine .stay (.entering trap ?_ hNot rfl hRun ?_ hUser ?_)
      · exact ⟨hPlaced.procs, hPlaced.current, hPlaced.roundRobinIndex, hPlaced.mounted⟩
      · exact congrArg Proc.point (hSelf (.mounting trap))
      · exact (congrArg Proc.doomed (hSelf (.mounting trap))).trans hAlive

/-- `fs_init` sleeps for the disk. -/
theorem Describes.mount_sleep (h : Describes c u) (hSuspended : Sched.Suspended u)
    (hRun : c.table.running = true) {trap : Trap} (hPoint : c.table.self.point = .mounting trap)
    (device : Nat) :
    Follows u []
      { c with table := c.table.sleep (.device device) (.mounting trap), slept := true } := by
  have hSleeps : ∀ c' u', Agrees c' u' → c'.table = c.table → Agrees
      { c' with table := c.table.sleep (.device device) (.mounting trap) }
      (u'.suspend .sleeping (resumeAt (.mounting trap))) := by
    intro c' u' h hEq
    rw [Table.sleep_eq_become, ← hEq]
    exact h.suspend
      (r := { c'.table.self with
        state := .sleeping, channel := .device device, point := .mounting trap }) _ rfl rfl fun _ => rfl
  cases h with
  | idle _ _ hIdle _ =>
    rw [hRun] at hIdle
    cases hIdle
  | turn h hMounted _ hMode =>
    -- it has slept before
    have hPlace : u.mode = .syscall ∨ u.mode = .irqMount := by
      rw [Stands, hPoint] at hMode
      cases trap with
      | irq => exact .inr hMode
      | brk number => exact .inl hMode
      | nmi cause watchdog => exact .inl hMode
    have hSlept : c.slept = true := h.mounted.symm.trans (hSuspended.mounted_of_mode hPlace)
    have hStep : u.perform .sleep = some (u.suspend .sleeping (resumeAt (.mounting trap))) := by
      rw [Stands, hPoint] at hMode
      cases trap with
      | irq =>
        have hMode : u.mode = .irqMount := hMode
        simp [Sched.perform, hMode, resumeAt]
      | brk number =>
        have hMode : u.mode = .syscall := hMode
        simp [Sched.perform, hMode, resumeAt]
      | nmi cause watchdog =>
        have hMode : u.mode = .syscall := hMode
        simp [Sched.perform, hMode, resumeAt]
    have hAsleep := hSleeps c u h rfl
    refine .silent rfl hStep (.stay (.idle ?_ (hMounted.trans hSlept) rfl rfl))
    exact ⟨hAsleep.procs, hAsleep.current, hAsleep.roundRobinIndex, h.mounted.trans hSlept⟩
  | entering _ h hFirst hMounted _ _ hMode hAlive =>
    have hStep := perform_enter_first trap hMode (h.doomed.trans hAlive) (h.mounted.trans hFirst)
    refine .silent (enterEvent_silent trap) hStep (.stay (.idle ?_ hMounted rfl rfl))
    have hAsleep := hSleeps c u h rfl
    exact ⟨hAsleep.procs, hAsleep.current, hAsleep.roundRobinIndex, rfl⟩

/-- `fs_init` returns. -/
theorem Describes.mount_end (h : Describes c u) (hLife : Table.Life c.table)
    (hRun : c.table.running = true) {trap : Trap} (hPoint : c.table.self.point = .mounting trap)
    (hSlept : c.slept = true) :
    Describes { c with table := c.table.goto (.trapped trap) } u := by
  have hTurn := hLife.turn hRun
  cases h with
  | idle _ _ hIdle _ =>
    rw [hRun] at hIdle
    cases hIdle
  | turn h hMounted _ hMode =>
    refine .turn (h.unseen hTurn hTurn rfl rfl) hMounted hRun ?_
    rw [Stands, hPoint] at hMode
    dsimp only
    rw [Table.goto, Table.self_setSelf]
    cases trap with
    | irq => exact .inl hMode
    | brk number => exact hMode
    | nmi cause watchdog => exact .inl hMode
  | entering _ _ hFirst _ _ _ _ _ =>
    rw [hSlept] at hFirst
    cases hFirst

/-! ## §2 The timer -/

/-- An interrupt that has reached the test of the timer's bit. -/
theorem exists_irq (hMode : u.mode = .irqMount ∨
      u.mode = .user ∧ u.self.doomed = false ∧ u.mounted = true) (timer : Bool) :
    ∃ e, schedMarks e = irqMarks timer (u.irqYields timer) ∧
      u.perform e = some (u.irqTail timer) := by
  obtain hMount | ⟨hUser, hAlive, hMounted⟩ := hMode
  · exact ⟨.irqMounted timer (u.irqYields timer), rfl, if_pos ⟨hMount, rfl⟩⟩
  · refine ⟨.irq timer (u.irqYields timer), rfl, ?_⟩
    simp [Sched.perform, Sched.reachesTail, hUser, hAlive, hMounted, prologue_of_mounted]

/-- `kernel_irq` behind its prologue. -/
theorem Describes.irqTail (h : Describes c u) (hLife : Table.Life c.table)
    (hRun : c.table.running = true) (hPoint : c.table.self.point = .trapped .irq) {timer : Bool}
    (hTail : c.irqTail timer = some d) : Follows u (irqMarks timer (c.irqYields timer)) d := by
  have hTurn := hLife.turn hRun
  obtain ⟨hAgrees, hMounted, hStands⟩ := h.stands hRun (by simp [hPoint])
  rw [Stands, hPoint] at hStands
  have hTicks := hAgrees.self.ticks
  -- both count the same ticks down, so both yield at the same interrupt
  have hYields : u.irqYields timer = c.irqYields timer := by
    rw [Sched.irqYields, Clocked.irqYields, hTicks]
  obtain ⟨e, hMarks, hStep⟩ := exists_irq (u := u) (by
    rw [hAgrees.doomed, hAgrees.mounted]
    exact hStands) timer
  rw [hYields] at hMarks
  -- without a yield the interrupt ends as a return of the table
  have hProceed : ∀ ticks, c.lift .proceed ticks = some d →
      ∃ s, c.table.epilogue = some s ∧ d = { c with table := s, ticks := ticks } := by
    intro ticks hLift
    obtain ⟨s, hPerform, rfl⟩ := Option.map_eq_some_iff.mp hLift
    refine ⟨s, ?_, rfl⟩
    simpa [Table.perform, Table.act, Table.proceed, hRun, hPoint] using hPerform
  have hFollows : Follows (u.irqTail timer) [] d := by
    unfold Clocked.irqTail at hTail
    unfold Sched.irqTail
    split at hTail
    · next hTimer =>
      rw [if_pos hTimer]
      dsimp only at hTail ⊢
      rw [hTicks]
      split at hTail
      -- the quantum is over: the process gives up the CPU inside the interrupt
      · next hLast =>
        rw [if_pos hLast, hLast]
        obtain ⟨s, hPerform, rfl⟩ := Option.map_eq_some_iff.mp hTail
        have hYield : c.table.yield .irqYield = s := by
          simpa [Table.perform, Table.act, hRun, hPoint] using hPerform
        subst hYield
        refine .stay (.idle ?_ hMounted rfl rfl)
        rw [Table.yield_eq_become]
        exact hAgrees.suspend (r := { c.table.self with state := .ready, point := .irqYield }) _ rfl
          rfl fun _ => rfl
      · next hMore =>
        rw [if_neg hMore]
        obtain ⟨s, hEpilogue, rfl⟩ := hProceed _ hTail
        exact (hAgrees.count _).epilogue hMounted hRun hTurn hEpilogue
    · next hOther =>
      rw [if_neg hOther]
      obtain ⟨s, hEpilogue, rfl⟩ := hProceed _ hTail
      exact hAgrees.epilogue hMounted hRun hTurn hEpilogue
  have hHead := hFollows.head hStep
  rw [hMarks, List.append_nil] at hHead
  exact hHead

/-- The loop of `scheduler()` is the search of the table. -/
theorem Agrees.scan (h : Agrees c u) (k : Nat) (i : Slot) :
    u.scan k i = search c.table.runnable k i := by
  induction k generalizing i with
  | zero => rfl
  | succ k ih =>
    rw [Sched.scan, search, ih, Table.runnable, (h.procs i).state]

/-- A process that can be dispatched continues at the place it stands at. -/
theorem Agrees.resumePoint (h : Agrees c u) (hLife : Table.Life c.table) {p : Slot}
    (hState : (c.table.procs p).state = .ready ∨ (c.table.procs p).state = .new) :
    Sched.resumePoint (u.procs p) = resumeAt (c.table.procs p).point := by
  have hSeen := h.procs p
  rw [Sched.resumePoint, hSeen.state]
  split
  · next hNew =>
    rw [(hLife.fits p).fresh (.inr hNew)]
    rfl
  · next hOld => exact hSeen.resume (.inl (hState.resolve_right hOld))

/-- The dispatched process goes on inside the kernel. -/
theorem perform_resume {mode : Mode} (hMode : u.mode = .resuming .syscall ∧ mode = .syscall ∨
      u.mode = .resuming .irqMount ∧ mode = .irqMount) :
    u.perform .resume = some { u with mode := mode } := by
  obtain ⟨hMode, rfl⟩ | ⟨hMode, rfl⟩ := hMode <;> simp [Sched.perform, hMode]

/-- `scheduler()` dispatches a process, which continues where it has been suspended. -/
theorem Describes.dispatch (h : Describes c u) (hLife : Table.Life c.table) {p : Slot}
    (hIdle : c.table.running = false)
    (hSearch : search c.table.runnable maxProcCount c.table.roundRobinIndex = some p) :
    Follows u [.dispatch p]
      { c with table := c.table.dispatch p, ticks := Function.update c.ticks p quantum } := by
  obtain ⟨hAgrees, hMounted, hMode⟩ :
      Agrees c u ∧ c.table.mounted = c.slept ∧ u.mode = .scheduling := by
    cases h with
    | idle h hMounted _ hMode => exact ⟨h, hMounted, hMode⟩
    | turn _ _ hRun _ =>
      rw [hIdle] at hRun
      cases hRun
    | entering _ _ _ _ hRun _ _ _ =>
      rw [hIdle] at hRun
      cases hRun
  have hState : (c.table.procs p).state = .ready ∨ (c.table.procs p).state = .new := by
    simpa [Table.runnable, ProcState.runnable] using search_some hSearch
  have hSeen := hAgrees.procs p
  have hPoint := hAgrees.resumePoint hLife hState
  let v := u.dispatch p
  let d : Clocked :=
    { c with table := c.table.dispatch p, ticks := Function.update c.ticks p quantum }
  have hStep : u.perform (.dispatch p (resumeAt (c.table.procs p).point)) = some v := by
    refine if_pos ⟨hMode, ?_, hPoint.symm⟩
    rw [hAgrees.scan, hAgrees.roundRobinIndex, hSearch]
  have hNow : Agrees d v := by
    have hBoth := hAgrees.setProc p (f := fun q => { q with state := .running, channel := .null })
      (g := fun q => { q with state := .running, ticks := quantum })
      ⟨rfl, hSeen.pid, rfl, hSeen.killed, by simp⟩
    exact ⟨hBoth.procs, rfl, rfl, hAgrees.mounted⟩
  have hSelf : d.table.self.point = (c.table.procs p).point := by
    show ((c.table.dispatch p).procs p).point = _
    rw [Table.procs_dispatch, if_pos rfl]
  have hResuming : v.mode = .resuming (resumeAt (c.table.procs p).point) :=
    congrArg Mode.resuming hPoint
  -- it is in the kernel at once, or its epilogue is still to come
  have hGoes : ∀ mode, (v.mode = .resuming .syscall ∧ mode = .syscall ∨
      v.mode = .resuming .irqMount ∧ mode = .irqMount) → Stands d.table.self d.slept mode →
      Follows v [] d := fun mode hFrom hStands =>
    .silent rfl (perform_resume hFrom)
      (.stay (.turn ⟨hNow.procs, rfl, rfl, hNow.mounted⟩ hMounted rfl hStands))
  have hFits := hLife.fits p
  have hLater : Follows v [] d := by
    cases hPlace : (c.table.procs p).point with
    | user =>
      have hBad := hFits.user hPlace
      simp [hBad] at hState
    | trapped trap =>
      have hBad := hFits.trapped trap hPlace
      simp [hBad] at hState
    | exited =>
      have hBad := hFits.exited hPlace
      grind
    | fresh =>
      refine .stay (.turn hNow hMounted rfl ?_)
      rw [Stands, hSelf, hPlace, hResuming, hPlace]
      rfl
    | irqYield =>
      refine .stay (.turn hNow hMounted rfl ?_)
      rw [Stands, hSelf, hPlace, hResuming, hPlace]
      rfl
    | mounting trap =>
      rw [hPlace] at hResuming hSelf
      cases trap with
      | irq => exact hGoes .irqMount (.inr ⟨hResuming, rfl⟩) (by rw [Stands, hSelf])
      | brk number => exact hGoes .syscall (.inl ⟨hResuming, rfl⟩) (by rw [Stands, hSelf])
      | nmi cause watchdog => exact hGoes .syscall (.inl ⟨hResuming, rfl⟩) (by rw [Stands, hSelf])
    | _ =>
      rw [hPlace] at hResuming hSelf
      exact hGoes .syscall (.inl ⟨hResuming, rfl⟩) (by rw [Stands, hSelf])
  exact hLater.head hStep

/-! ## §3 Runs -/

/-- `kernel_nmi` behind its prologue. -/
theorem Describes.kernelNmi (h : Describes c u) (hLife : Table.Life c.table)
    (hRun : c.table.running = true) {cause watchdog : Byte}
    (hPoint : c.table.self.point = .trapped (.nmi cause watchdog))
    (hNmi : c.table.kernelNmi cause watchdog = some t) : Follows u [] { c with table := t } := by
  have hTurn := hLife.turn hRun
  obtain ⟨hAgrees, hMounted, hStands⟩ := h.stands hRun (by simp [hPoint])
  rw [Stands, hPoint] at hStands
  obtain ⟨-, hExit⟩ := Option.ite_none_right_eq_some.mp hNmi
  have hSaved := hAgrees.unseen (f := fun p => { p with ax := cause.setWidth 16 }) hTurn hTurn rfl rfl
  have hEnds : Follows u.exit [] { c with table := t } := hSaved.exit hMounted hExit
  obtain hCall | ⟨hUser, hAlive, hSlept⟩ := hStands
  · exact .silent (e := .exit) rfl (if_pos hCall) hEnds
  · refine .silent (e := .nmi) rfl ?_ hEnds
    have hBody : u.prologue .syscall Sched.exit = u.exit :=
      prologue_of_mounted (hAgrees.doomed.trans hAlive) (hAgrees.mounted.trans hSlept)
    rw [Sched.perform, if_pos hUser, hBody]

/-- The running process goes on in the kernel, outside `kernel_irq`. -/
theorem Describes.proceed (h : Describes c u) (hLife : Table.Life c.table)
    (hRun : c.table.running = true) (hPlace : c.table.self.point ≠ .trapped .irq)
    (hProceed : c.table.proceed = some t) :
    Follows u []
      { c with
        table := t
        ticks := if c.table.self.point = .irqYield then c.setTicks 0 else c.ticks } := by
  have hTurn := hLife.turn hRun
  rw [Table.proceed] at hProceed
  cases hPoint : c.table.self.point with
  | fresh =>
    rw [hPoint] at hProceed
    obtain ⟨hAgrees, hMounted, hStands⟩ := h.stands hRun (by simp [hPoint])
    rw [Stands, hPoint] at hStands
    have hStep : u.perform .resume = some u.epilogue := by simp [Sched.perform, hStands]
    exact .silent rfl hStep (hAgrees.epilogue hMounted hRun hTurn hProceed)
  | irqYield =>
    rw [hPoint] at hProceed
    obtain ⟨hAgrees, hMounted, hStands⟩ := h.stands hRun (by simp [hPoint])
    rw [Stands, hPoint] at hStands
    -- the counter is written back over the fresh quantum
    have hStep : u.perform .resume = some (u.setSelf fun p => { p with ticks := 0 }).epilogue := by
      simp [Sched.perform, hStands]
    rw [if_pos rfl]
    exact .silent rfl hStep ((hAgrees.count 0).epilogue hMounted hRun hTurn hProceed)
  | returning value =>
    rw [hPoint] at hProceed
    have hServes := h.serves hLife hRun (by rw [hPoint]; rfl)
    exact hServes.sysReturn value hProceed
  | trapped trap =>
    rw [hPoint] at hProceed hPlace
    cases trap with
    | irq => exact absurd rfl hPlace
    | brk number =>
      have hServes := h.serves hLife hRun (by rw [hPoint]; rfl)
      exact hServes.kernelBrk hProceed
    | nmi cause watchdog => exact h.kernelNmi hLife hRun hPoint hProceed
  | waiting userExitCode =>
    rw [hPoint] at hProceed
    obtain rfl := Option.some.inj hProceed
    have hServes := h.serves hLife hRun (by rw [hPoint]; rfl)
    exact hServes.wait userExitCode true
  | timing start ticks total =>
    rw [hPoint] at hProceed
    obtain rfl := Option.some.inj hProceed
    have hServes := h.serves hLife hRun (by rw [hPoint]; rfl)
    exact hServes.sleepTurn start ticks total
  | _ =>
    rw [hPoint] at hProceed
    cases hProceed

/-- `fs_init` sleeps inside the first trap of all, before the tail of the interrupt; every other wait
    for a device is one in the middle of a system call. -/
theorem Describes.block (h : Describes c u) (hLife : Table.Life c.table)
    (hSuspended : Sched.Suspended u) (hRun : c.table.running = true) {device : Nat}
    (hAct : c.table.act (.block device) = some t) :
    Follows u [] { c with table := t, slept := c.slept || c.inMount } := by
  rw [Table.act] at hAct
  split at hAct
  · next trap hPoint =>
    obtain rfl := Option.some.inj hAct
    have hIn : c.inMount = true := by rw [inMount, hPoint]
    rw [hIn, Bool.or_true]
    exact h.mount_sleep hSuspended hRun hPoint device
  · next hPoint =>
    obtain rfl := Option.some.inj hAct
    have hOut : c.inMount = false := by rw [inMount, hPoint]
    rw [hOut, Bool.or_false]
    exact (h.serves hLife hRun (by rw [hPoint]; rfl)).sleep (.device device) rfl
  · cases hAct

/-- The events in the middle of a system call that leave the counters alone. -/
def served : Table.Event → Bool
  | .clone _ | .sleep _ | .pause | .remap _ _ | .finish _ => true
  | _ => false

/-- The scheduler sees of a system call when it gives the CPU away. -/
theorem Describes.call (h : Describes c u) (hLife : Table.Life c.table)
    (hRun : c.table.running = true) {e : Table.Event} (hServed : served e = true)
    (hAct : c.table.act e = some t) : Follows u [] { c with table := t } := by
  cases e with
  | clone frame =>
    rw [Table.act] at hAct
    split at hAct
    · next child pid segment hPoint =>
      obtain rfl := Option.some.inj hAct
      have hBuilds := hLife.builds c.table.current child pid segment hPoint
      exact (h.serves hLife hRun (by rw [hPoint]; rfl)).clone hBuilds frame
    · cases hAct
  | sleep ticks =>
    obtain ⟨hCall, hEq⟩ := Option.ite_none_right_eq_some.mp hAct
    obtain ⟨number, hPoint, -⟩ := Table.atSyscall_point hCall
    obtain rfl := Option.some.inj hEq
    have hServes := h.serves hLife hRun (by rw [hPoint]; rfl)
    cases ticks with
    | none => exact .stay (hServes.returning (-1))
    | some ticks => exact hServes.sleepTurn _ ticks _
  | pause =>
    obtain ⟨hPoint, hEq⟩ := Option.ite_none_right_eq_some.mp hAct
    obtain rfl := Option.some.inj hEq
    exact (h.serves hLife hRun (by rw [hPoint]; rfl)).yield rfl
  | remap top pages =>
    obtain ⟨hPoint, hEq⟩ := Option.ite_none_right_eq_some.mp hAct
    obtain rfl := Option.some.inj hEq
    exact .stay ((h.serves hLife hRun (by rw [hPoint]; rfl)).remap hPoint top pages)
  | finish value =>
    obtain ⟨hPoint, hEq⟩ := Option.ite_none_right_eq_some.mp hAct
    obtain rfl := Option.some.inj hEq
    exact .stay ((h.serves hLife hRun (by rw [hPoint]; rfl)).returning value)
  | _ => cases hServed

/-- **Step lemma**: every step of the clocked table is a run of the scheduler with the same
    marks. -/
theorem Describes.step (h : Describes c u) (hLife : Table.Life c.table)
    (hSuspended : Sched.Suspended u) {e : Event} (hStep : Step c e d) : Follows u e.marks d := by
  rw [Step] at hStep
  -- one case per event; those of devices and of the program are steps the scheduler does not see,
  -- or wakeups
  cases e with
  | irq timer yielded =>
    obtain ⟨⟨hIrq, rfl⟩, hTail⟩ := Option.ite_none_right_eq_some.mp hStep
    simp only [inIrq, Bool.and_eq_true, beq_iff_eq] at hIrq
    exact h.irqTail hLife hIrq.1 hIrq.2 hTail
  | step e =>
    cases e with
    | preempt => cases hStep
    | dispatch p =>
      obtain ⟨t, hPerform, rfl⟩ := Option.map_eq_some_iff.mp hStep
      obtain ⟨⟨hIdle, hSearch⟩, hEq⟩ := Option.ite_none_right_eq_some.mp hPerform
      obtain rfl := Option.some.inj hEq
      exact h.dispatch hLife hIdle hSearch
    | tick =>
      obtain ⟨t, hPerform, rfl⟩ := Option.map_eq_some_iff.mp hStep
      obtain ⟨-, hTick⟩ := Option.ite_none_left_eq_some.mp hPerform
      exact h.awoken (.tick hTick)
    | wakeup device =>
      obtain ⟨t, hPerform, rfl⟩ := Option.map_eq_some_iff.mp hStep
      obtain ⟨-, hEq⟩ := Option.ite_none_left_eq_some.mp hPerform
      obtain rfl := Option.some.inj hEq
      exact h.awoken (.wakeup c.table (.device device))
    | store addr value =>
      obtain ⟨t, hPerform, rfl⟩ := Option.map_eq_some_iff.mp hStep
      obtain ⟨hRun, hAct⟩ := Option.ite_none_right_eq_some.mp hPerform
      exact .stay (h.store hLife hRun hAct)
    | trap trap ax =>
      obtain ⟨t, hPerform, rfl⟩ := Option.map_eq_some_iff.mp hStep
      obtain ⟨hRun, hAct⟩ := Option.ite_none_right_eq_some.mp hPerform
      obtain ⟨hPoint, hTrap⟩ := Option.ite_none_right_eq_some.mp hAct
      exact h.trap hLife hRun hPoint hTrap
    | block device =>
      obtain ⟨b, hLift, rfl⟩ := Option.map_eq_some_iff.mp hStep
      obtain ⟨t, hPerform, rfl⟩ := Option.map_eq_some_iff.mp hLift
      obtain ⟨hRun, hAct⟩ := Option.ite_none_right_eq_some.mp hPerform
      exact h.block hLife hSuspended hRun hAct
    | mounted =>
      obtain ⟨hSlept, hLift⟩ := Option.ite_none_right_eq_some.mp hStep
      obtain ⟨t, hPerform, rfl⟩ := Option.map_eq_some_iff.mp hLift
      obtain ⟨hRun, hAct⟩ := Option.ite_none_right_eq_some.mp hPerform
      rw [Table.act] at hAct
      split at hAct
      · next trap hPoint =>
        obtain rfl := Option.some.inj hAct
        exact .stay (h.mount_end hLife hRun hPoint hSlept)
      · cases hAct
    | proceed =>
      obtain ⟨hOut, hLift⟩ := Option.ite_none_left_eq_some.mp hStep
      have hLift : c.lift .proceed
          (if c.table.self.point = .irqYield then c.setTicks 0 else c.ticks) = some d := by
        rw [← hLift]
        split <;> rfl
      obtain ⟨t, hPerform, rfl⟩ := Option.map_eq_some_iff.mp hLift
      obtain ⟨hRun, hProceed⟩ := Option.ite_none_right_eq_some.mp hPerform
      refine h.proceed hLife hRun (fun hPoint => hOut ?_) hProceed
      simp [inIrq, hRun, hPoint]
    | fork frame =>
      obtain ⟨t, hPerform, rfl⟩ := Option.map_eq_some_iff.mp hStep
      obtain ⟨hRun, hAct⟩ := Option.ite_none_right_eq_some.mp hPerform
      obtain ⟨hCall, hFork⟩ := Option.ite_none_right_eq_some.mp hAct
      obtain ⟨number, hPoint, -⟩ := Table.atSyscall_point hCall
      exact (h.serves hLife hRun (by rw [hPoint]; rfl)).fork hFork
    | _ =>
      obtain ⟨t, hPerform, rfl⟩ := Option.map_eq_some_iff.mp hStep
      obtain ⟨hRun, hAct⟩ := Option.ite_none_right_eq_some.mp hPerform
      exact h.call hLife hRun rfl hAct

/-- The clocked table moves as the table does. -/
theorem Step.table {e : Event} (hStep : Step c e d) : ∃ e, Table.Step c.table e d.table := by
  -- the counter is beside the table and no guard of the table reads it
  have hLift : ∀ e ticks, c.lift e ticks = some d → ∃ e, Table.Step c.table e d.table := by
    intro e ticks h
    obtain ⟨t, hPerform, rfl⟩ := Option.map_eq_some_iff.mp h
    exact ⟨e, hPerform⟩
  rw [Step] at hStep
  cases e with
  | irq timer yielded =>
    obtain ⟨-, hTail⟩ := Option.ite_none_right_eq_some.mp hStep
    rw [irqTail] at hTail
    split at hTail
    · dsimp only at hTail
      split at hTail
      · exact hLift _ _ hTail
      · exact hLift _ _ hTail
    · exact hLift _ _ hTail
  | step e =>
    cases e with
    | preempt => cases hStep
    | block device =>
      obtain ⟨b, h, rfl⟩ := Option.map_eq_some_iff.mp hStep
      obtain ⟨t, hPerform, rfl⟩ := Option.map_eq_some_iff.mp h
      exact ⟨_, hPerform⟩
    | mounted => exact hLift _ _ (Option.ite_none_right_eq_some.mp hStep).2
    | proceed =>
      obtain ⟨-, h⟩ := Option.ite_none_left_eq_some.mp hStep
      split at h
      · exact hLift _ _ h
      · exact hLift _ _ h
    | _ => exact hLift _ _ hStep

theorem Describes.boot (code : Page) (top : Word) : Describes (boot code top) Sched.boot := by
  refine .idle ⟨fun p => ?_, rfl, rfl, rfl⟩ rfl rfl rfl
  by_cases hInit : p = initProcess
  · subst hInit
    refine ⟨rfl, rfl, rfl, rfl, ?_⟩
    rintro (h | h) <;> cases h
  · have hSlot : (Clocked.boot code top).table.procs p = Table.emptySlot := if_neg hInit
    have hNot : p ≠ 0 := hInit
    rw [hSlot]
    refine ⟨?_, ?_, rfl, rfl, ?_⟩
    · simp [Sched.boot, hNot, Table.emptySlot]
    · simp [Sched.boot, hNot, Table.emptySlot]
    · rintro (h | h) <;> cases h

/-- **Every run of the clocked table is a run of the scheduler**, with the same dispatches, timer
    interrupts and yields of `kernel_irq` in the same order. -/
theorem run_scheduled {code : Page} {top : Word} {es : List Event}
    (hRun : Run Step (boot code top) es d) :
    ∃ xs v, Run Sched.Step Sched.boot xs v ∧ xs.flatMap schedMarks = es.flatMap Event.marks ∧
      Describes d v := by
  let rel : Clocked → Sched → Prop := fun c u =>
    Table.Life c.table ∧ Sched.Suspended u ∧ Describes c u
  have hStep : ∀ c e d u, rel c u → Step c e d →
      ∃ xs v, Run Sched.Step u xs v ∧ xs.flatMap schedMarks = e.marks ∧ rel d v := by
    rintro c e d u ⟨hLife, hSuspended, hDescribes⟩ hStep
    obtain ⟨xs, v, hRun, hMarks, hNext⟩ := hDescribes.step hLife hSuspended hStep
    obtain ⟨_, hTable⟩ := hStep.table
    refine ⟨xs, v, hRun, hMarks, ?_, ?_, hNext⟩
    · exact hTable.moves.invariant (fun _ _ => Table.Life.move) hLife
    · exact hRun.invariant (fun _ _ _ => Sched.suspended_step) hSuspended
  obtain ⟨xs, v, hSched, hMarks, -, -, hEnd⟩ := hRun.simulation hStep
    ⟨Table.Life.boot code top, Sched.suspended_boot, Describes.boot code top⟩
  exact ⟨xs, v, hSched, hMarks, hEnd⟩

end Clocked

end Xv6502.Kernel
