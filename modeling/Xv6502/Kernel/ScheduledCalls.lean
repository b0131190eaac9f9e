import Xv6502.Kernel.ClockedTable

/-!
# The System Calls as the Scheduler Sees Them

What a system call does to the process table in one step, the scheduler follows with a few
events of its own: it creates, frees and kills processes, suspends the running one, and wakes
the sleepers up one after the other.
-/

namespace Xv6502.Kernel

open Xv6502.Emulator Xv6502.Lib

namespace Clocked

variable {c d : Clocked} {u v : Sched} {t : Table}

/-! ## §1 Waking up -/

/-- The scheduler wakes up processes that sleep, one after the other. -/
theorem run_wakeups (ps : List Slot) (hNodup : ps.Nodup) (u : Sched)
    (hSleep : ∀ p ∈ ps, (u.procs p).state = .sleeping) :
    Run Sched.Step u (ps.map .wakeup)
      { u with procs := fun p => if p ∈ ps then { u.procs p with state := .ready } else u.procs p } := by
  -- on the sleepers; each is named once, so the others still sleep behind its turn
  induction ps generalizing u with
  | nil =>
    simp only [List.not_mem_nil, if_false]
    exact .nil u
  | cons p ps ih =>
    obtain ⟨hFresh, hNodup⟩ := List.nodup_cons.mp hNodup
    obtain ⟨hFirst, hRest⟩ := List.forall_mem_cons.mp hSleep
    let v := u.setProc p fun q => { q with state := .ready }
    have hSame : ∀ q ∈ ps, v.procs q = u.procs q := by
      intro q hMem
      rw [Sched.procs_setProc, if_neg (ne_of_mem_of_not_mem hMem hFresh)]
    have hTail := ih hNodup v fun q hMem => by rw [hSame q hMem, hRest q hMem]
    have hEnd : (fun q => if q ∈ ps then { v.procs q with state := .ready } else v.procs q) =
        fun q => if q ∈ p :: ps then { u.procs q with state := .ready } else u.procs q := by
      funext q
      have hNow := Sched.procs_setProc u p q fun q => { q with state := .ready }
      by_cases hIs : q = p
      · subst hIs
        simp [v, hNow, hFresh]
      · simp [v, hNow, hIs]
    rw [hEnd] at hTail
    exact .cons (if_pos hFirst) hTail

theorem marks_wakeups (ps : List Slot) : (ps.map Sched.Event.wakeup).flatMap schedMarks = [] := by
  induction ps with
  | nil => rfl
  | cons p ps ih => exact ih

/-- The table differs by processes that have been woken up. -/
structure Awoken (s t : Table) : Prop where
  current : t.current = s.current
  running : t.running = s.running
  roundRobinIndex : t.roundRobinIndex = s.roundRobinIndex
  mounted : t.mounted = s.mounted
  procs : ∀ p, Table.Released s.current (s.procs p) (t.procs p)

theorem Awoken.wakeup (s : Table) (channel : Channel) : Awoken s (s.wakeup channel) :=
  ⟨rfl, rfl, rfl, rfl, Table.wakeup_released s channel s.current⟩

theorem Awoken.tick {s : Table} (h : s.timerInterrupt = some t) : Awoken s t := by
  obtain ⟨-, ⟨-, rfl⟩ | ⟨-, rfl⟩⟩ := Table.timerInterrupt_cases h
  · exact ⟨rfl, rfl, rfl, rfl, Table.wakeup_released { s with systicks := s.systicks + 1 } _ s.current⟩
  · exact ⟨rfl, rfl, rfl, rfl, fun p => Table.Released.refl _ _⟩

/-- The scheduler wakes the same processes up. -/
theorem Agrees.awoken (h : Agrees c u) (hAwoken : Awoken c.table t) :
    ∃ (ps : List Slot) (v : Sched), Run Sched.Step u (ps.map .wakeup) v ∧ v.mode = u.mode ∧
      Agrees { c with table := t } v := by
  have hProcs := hAwoken.procs
  -- those who slept before and are ready now
  let woken : List Slot := (List.finRange 512).filter fun p =>
    (c.table.procs p).state == .sleeping && (t.procs p).state == .ready
  have hMem : ∀ p, p ∈ woken ↔ (c.table.procs p).state = .sleeping ∧ (t.procs p).state = .ready := by
    simp [woken]
  have hRun := run_wakeups woken ((List.nodup_finRange _).filter _) u fun p hIn =>
    (h.procs p).state.trans ((hMem p).mp hIn).1
  refine ⟨woken, _, hRun, rfl, fun p => ?_, ?_, ?_, h.mounted⟩
  · have hSeen := h.procs p
    have hNow := hProcs p
    dsimp only
    split
    · next hIn =>
      obtain ⟨hSleeping, hReady⟩ := (hMem p).mp hIn
      refine ⟨hReady.symm, hSeen.pid.trans hNow.pid.symm, hSeen.ticks,
        hSeen.killed.trans hNow.killed.symm, fun _ => ?_⟩
      rw [hNow.point]
      exact hSeen.resume (.inr hSleeping)
    · next hOut =>
      have hState : (t.procs p).state = (c.table.procs p).state :=
        hNow.state.resolve_right fun hWoken => hOut ((hMem p).mpr hWoken)
      refine ⟨hSeen.state.trans hState.symm, hSeen.pid.trans hNow.pid.symm, hSeen.ticks,
        hSeen.killed.trans hNow.killed.symm, fun hParked => ?_⟩
      rw [hNow.point]
      exact hSeen.resume (hState ▸ hParked)
  · exact h.current.trans hAwoken.current.symm
  · exact h.roundRobinIndex.trans hAwoken.roundRobinIndex.symm

/-- Wakeups by an interrupt handler or a system call. -/
theorem Describes.awoken (h : Describes c u) (hAwoken : Awoken c.table t) :
    Follows u [] { c with table := t } := by
  have hSelf : Table.Released c.table.current c.table.self t.self := by
    show Table.Released _ _ (t.procs t.current)
    rw [hAwoken.current]
    exact hAwoken.procs c.table.current
  have hDoomed : t.self.doomed = c.table.self.doomed := by
    rw [Proc.doomed, Proc.doomed, hSelf.killed, hSelf.pid]
  have hAgrees : Agrees c u := by cases h <;> assumption
  obtain ⟨ps, v, hRun, hMode, hLater⟩ := hAgrees.awoken hAwoken
  refine ⟨_, v, hRun, marks_wakeups ps, ?_⟩
  cases h with
  | idle _ hMounted hIdle hIdleMode =>
    exact .idle hLater (hAwoken.mounted.trans hMounted) (hAwoken.running.trans hIdle)
      (hMode.trans hIdleMode)
  | turn _ hMounted hRun hStands =>
    refine .turn hLater (hAwoken.mounted.trans hMounted) (hAwoken.running.trans hRun) ?_
    rw [Stands, hSelf.point, hDoomed, hMode]
    exact hStands
  | entering trap _ hFirst hMounted hRun hPoint hUser hAlive =>
    exact .entering trap hLater hFirst (hAwoken.mounted.trans hMounted) (hAwoken.running.trans hRun)
      (hSelf.point.trans hPoint) (hMode.trans hUser) (hDoomed.trans hAlive)

/-! ## §2 The end of a process and the way back to user mode -/

/-- `sys_exit`: the process gives up the CPU as a zombie, then its parent wakes up. -/
theorem Agrees.exit (h : Agrees c u) (hMounted : c.table.mounted = c.slept) {cause : ExitCause}
    (hExit : c.table.exit cause = some t) : Follows u.exit [] { c with table := t } := by
  have hExits := Table.exit_exits hExit
  have hEnded := hExits.ended
  -- the zombie first, then what `sys_exit` does to the other slots, which the scheduler sees as
  -- wakeups
  let zombie := t.procs c.table.current
  let left := c.table.become zombie false
  have hLeft : Agrees { c with table := left } u.exit := by
    have hState : zombie.state = .zombie := hEnded.state
    have hSuspend := h.suspend (r := zombie) .syscall hEnded.pid hEnded.killed (by simp [hState])
    rw [hState] at hSuspend
    exact hSuspend
  have hDescribes : Describes { c with table := left } u.exit := .idle hLeft hMounted rfl rfl
  refine hDescribes.awoken ⟨?_, ?_, ?_, ?_, fun p => ?_⟩
  · rw [hExits.rest]
    rfl
  · rw [hExits.rest]
    rfl
  · rw [hExits.rest]
    rfl
  · rw [hExits.rest]
    rfl
  · rw [Table.procs_become]
    split
    · next hIs =>
      subst hIs
      exact Table.Released.refl _ _
    · next hOther => exact hExits.released p hOther

/-- `kernel_epilogue`. -/
theorem Agrees.epilogue (h : Agrees c u) (hMounted : c.table.mounted = c.slept)
    (hRun : c.table.running = true) (hTurn : c.table.self.state = .running)
    (hEpilogue : c.table.epilogue = some t) : Follows u.epilogue [] { c with table := t } := by
  obtain ⟨hDoomed, hEq⟩ | ⟨hAlive, hEq⟩ := u.epilogue_cases
  · rw [hEq]
    rw [h.doomed] at hDoomed
    rw [Table.epilogue, if_pos hDoomed] at hEpilogue
    exact (h.unseen hTurn hTurn rfl rfl).exit hMounted hEpilogue
  · rw [hEq]
    rw [h.doomed] at hAlive
    rw [Table.epilogue, if_neg (Bool.eq_false_iff.mp hAlive)] at hEpilogue
    obtain rfl := Option.some.inj hEpilogue
    have hAgrees : Agrees { c with table := c.table.goto .user } u := h.unseen hTurn hTurn rfl rfl
    refine .stay (.turn ⟨hAgrees.procs, h.current, h.roundRobinIndex, h.mounted⟩ hMounted hRun ?_)
    rw [Table.goto, Table.self_setSelf]
    exact rfl

/-! ## §3 System calls -/

/-- The running process is in a system call. -/
structure Serves (c : Clocked) (u : Sched) : Prop where
  agrees : Agrees c u
  mounted : c.table.mounted = c.slept
  running : c.table.running = true
  turn : c.table.self.state = .running
  mode : u.mode = .syscall

namespace Serves

/-- The registers and the memory of the process change. -/
theorem data (h : Serves c u) {f : Proc → Proc} (hData : Table.Data c.table.self (f c.table.self)) :
    Serves { c with table := c.table.setSelf f } u := by
  obtain ⟨ax, top, pages, hEq⟩ := hData
  have hState : (f c.table.self).state = .running := by
    rw [hEq]
    exact h.turn
  refine ⟨h.agrees.unseen hState h.turn ?_ ?_, h.mounted, h.running, ?_, h.mode⟩
  · rw [hEq]
  · rw [hEq]
  · rw [Table.self_setSelf]
    exact hState

theorem goto (h : Serves c u) {place : Place}
    (hPlace : ∀ p : Proc, p.point = place → Stands p c.slept .syscall) :
    Describes { c with table := c.table.goto place } u := by
  refine .turn (h.agrees.unseen h.turn h.turn rfl rfl) h.mounted h.running ?_
  rw [h.mode]
  refine hPlace _ ?_
  rw [Table.goto, Table.self_setSelf]

theorem returning (h : Serves c u) (value : Word) :
    Describes { c with table := c.table.goto (.returning value) } u := by
  refine h.goto fun p hPoint => ?_
  rw [Stands, hPoint]

/-- The body of a system call changes the memory of its process. -/
theorem remap (h : Serves c u) (hPoint : c.table.self.point = .serving) (top : Word)
    (pages : Segment → Option Page) :
    Describes { c with table := c.table.setSelf fun p => { p with top := top, pages := pages } } u := by
  have hData := h.data (f := fun p => { p with top := top, pages := pages }) ⟨_, _, _, rfl⟩
  refine .turn hData.agrees hData.mounted hData.running ?_
  rw [Table.self_setSelf, Stands, hPoint]
  exact h.mode

theorem yield (h : Serves c u) {place : Place} (hPlace : resumeAt place = .syscall) :
    Follows u [] { c with table := c.table.yield place } := by
  refine Follows.silent (e := .yield) rfl (if_pos h.mode) (.stay (.idle ?_ h.mounted rfl rfl))
  rw [Table.yield_eq_become]
  exact h.agrees.suspend (r := { c.table.self with state := .ready, point := place }) .syscall rfl
    rfl fun _ => hPlace.symm

theorem sleep (h : Serves c u) (channel : Channel) {place : Place}
    (hPlace : resumeAt place = .syscall) :
    Follows u [] { c with table := c.table.sleep channel place } := by
  have hStep : u.perform .sleep = some (u.suspend .sleeping .syscall) := by
    simp only [Sched.perform, h.mode]
  refine .silent rfl hStep (.stay (.idle ?_ h.mounted rfl rfl))
  rw [Table.sleep_eq_become]
  exact h.agrees.suspend
    (r := { c.table.self with state := .sleeping, channel := channel, point := place }) .syscall rfl
    rfl fun _ => hPlace.symm

theorem exit (h : Serves c u) {cause : ExitCause} (hExit : c.table.exit cause = some t) :
    Follows u [] { c with table := t } :=
  .silent (e := .exit) rfl (if_pos h.mode) (h.agrees.exit h.mounted hExit)

/-- `sys_exit`, called after a change of the registers. -/
theorem exit_after (h : Serves c u) {f : Proc → Proc}
    (hData : Table.Data c.table.self (f c.table.self)) {cause : ExitCause}
    (hExit : (c.table.setSelf f).exit cause = some t) : Follows u [] { c with table := t } :=
  (h.data hData).exit hExit

/-- `proc_free` of another process, behind which the running one returns. -/
theorem free (h : Serves c u) {i : Slot} (hOther : i ≠ c.table.current) (value : Word)
    (hState : (c.table.procs i).state = .zombie ∨ (c.table.procs i).state = .building) :
    Follows u [] { c with table := (c.table.free i).goto (.returning value) } := by
  have hSeen := h.agrees.procs i
  have hStep : u.perform (.free i) = some (u.setProc i fun q => { q with state := .unused }) :=
    if_pos ⟨h.mode, by rw [hSeen.state]; exact hState⟩
  have hFree : Serves { c with table := c.table.free i }
      (u.setProc i fun q => { q with state := .unused }) := by
    refine ⟨h.agrees.setProc_same i ⟨rfl, hSeen.pid, hSeen.ticks, hSeen.killed, by simp⟩, h.mounted,
      h.running, ?_, h.mode⟩
    rw [Table.self, Table.free, Table.setProc_current, Table.procs_setProc, if_neg hOther.symm]
    exact h.turn
  exact .silent rfl hStep (.stay (hFree.returning value))

/-- The running process is none that has ended or is being built. -/
theorem other (h : Serves c u) {i : Slot} (hState : (c.table.procs i).state ≠ .running) :
    i ≠ c.table.current := by
  rintro rfl
  exact hState h.turn

theorem reap (h : Serves c u) {i : Slot} (hState : (c.table.procs i).state = .zombie) :
    Follows u [] { c with table := c.table.reap i } := by
  have hOther := h.other (i := i) (by simp [hState])
  obtain ⟨es, v, hRun, hMarks, hDescribes⟩ := h.free hOther
    (((c.table.procs i).pid.setWidth 8).setWidth 16) (.inl hState)
  exact ⟨es, v, hRun, hMarks, hDescribes.alike ⟨rfl, rfl, rfl, rfl, rfl⟩⟩

/-- A turn of the loop of `sys_wait`. -/
theorem wait (h : Serves c u) (userExitCode : Word) (hasChildren : Bool) :
    Follows u [] { c with table := c.table.waitTurn userExitCode hasChildren } := by
  rw [Table.waitTurn]
  split
  · next i hFind =>
    have hTest := Table.find_some hFind
    have hZombie : (c.table.procs i).state = .zombie := by
      simp only [Bool.and_eq_true, beq_iff_eq] at hTest
      exact hTest.2
    split
    · exact h.reap hZombie
    · split
      · exact .stay (h.returning _)
      · next s hCopy =>
        obtain ⟨f, rfl, hData⟩ := Table.copyToUser_data hCopy
        refine (h.data hData).reap ?_
        dsimp only
        rw [Table.setSelf, Table.procs_setProc, if_neg (h.other (by simp [hZombie]))]
        exact hZombie
  · split
    · exact h.sleep _ rfl
    · exact .stay (h.returning _)

/-- `sys_kill`. -/
theorem kill (h : Serves c u) : Follows u [] { c with table := c.table.kill } := by
  rw [Table.kill]
  split
  · exact .stay (h.returning _)
  · next hPid =>
    split
    · next i hFind =>
      have hTest := Table.find_some hFind
      simp only [Table.isVictim, Bool.and_eq_true, bne_iff_ne, beq_iff_eq] at hTest
      obtain ⟨⟨⟨hUsed, hAlive⟩, hIs⟩, -⟩ := hTest
      have hSeen := h.agrees.procs i
      have hSelf := h.agrees.self
      let kill : Process → Process := fun q =>
        { q with
          killed := u.self.pid
          state := if q.state = .sleeping then .ready else q.state }
      have hStep : u.perform (.kill i) = some (u.setProc i kill) := by
        refine if_pos ⟨h.mode, ?_, ?_, ?_⟩
        · rw [hSeen.state]
          exact hUsed
        · rw [hSeen.state]
          exact hAlive
        · rw [hSeen.pid, hIs]
          exact BitVec.not_le.mp hPid
      have hMarked : Agrees { c with table := c.table.mark i } (u.setProc i kill) := by
        refine (h.agrees.setProc_same i (f := fun p =>
          { p with
            killed := c.table.self.pid
            state := if p.state = .sleeping then .ready else p.state }) ?_).alike
          ⟨rfl, rfl, rfl, rfl, rfl⟩
        refine ⟨?_, hSeen.pid, hSeen.ticks, hSelf.pid, fun hParked => ?_⟩
        · dsimp only [kill]
          rw [hSeen.state]
        · refine hSeen.resume ?_
          dsimp only at hParked
          split at hParked
          · next hSleeping => exact .inr hSleeping
          · exact hParked
      refine .silent rfl hStep (.stay (Serves.returning ⟨hMarked, h.mounted, h.running, ?_, h.mode⟩ 0))
      -- a process that kills itself goes on
      rcases ((Table.Quiet.mark c.table i).woken c.table.current).state with hSame | ⟨hSleeping, -⟩
      · exact hSame.trans h.turn
      · have hTurn := h.turn
        rw [Table.self, hSleeping] at hTurn
        cases hTurn
    · exact .stay (h.returning _)

/-- `sys_fork` up to its first `yield()`. -/
theorem fork (h : Serves c u) {frame : Bool} (hFork : c.table.fork frame = some t) :
    Follows u [] { c with table := t, ticks := c.forkTicks frame } := by
  rw [Table.fork] at hFork
  rw [forkTicks]
  split at hFork
  · next hNone =>
    obtain rfl := Option.some.inj hFork
    rw [hNone]
    exact .stay (h.returning _)
  · next child hFind =>
    have hFree : (c.table.procs child).state = .unused := by simpa using Table.find_some hFind
    have hOther := h.other (i := child) (by simp [hFree])
    rw [hFind]
    dsimp only
    split at hFork
    · next hFrame =>
      split at hFork
      · cases hFork
      · obtain rfl := Option.some.inj hFork
        rw [if_pos hFrame]
        have hSelf := h.agrees.self
        let pid := c.table.nextPid
        let create : Process → Process := fun _ => { u.self with state := .building, pid := pid }
        have hStep : u.perform (.create child pid) = some (u.setProc child create) :=
          if_pos ⟨h.mode, (h.agrees.procs child).state.trans hFree⟩
        -- the child's counter is a copy of its parent's
        have hCreated : Agrees
            { c with
              table := c.table.create child
              ticks := Function.update c.ticks child (c.ticks c.table.current) }
            (u.setProc child create) :=
          (h.agrees.setProc child (f := fun _ => c.table.newborn)
            ⟨rfl, rfl, hSelf.ticks, hSelf.killed, by simp [Table.newborn]⟩).alike
            ⟨rfl, rfl, rfl, rfl, rfl⟩
        refine .silent rfl hStep (Serves.yield ⟨hCreated, h.mounted, h.running, ?_, h.mode⟩ rfl)
        dsimp only
        rw [Table.self, Table.procs_create]
        exact (congrArg Proc.state (if_neg hOther.symm)).trans h.turn
    · next hFrame =>
      obtain rfl := Option.some.inj hFork
      rw [if_neg hFrame]
      exact .stay (h.returning _)

/-- `sys_fork` from a turn of its page loop to the next `yield()` or its end. -/
theorem clone (h : Serves c u) {child : Slot} {pid : Word} {segment : Nat}
    (hBuilds : Table.Builds c.table c.table.current child pid) (frame : Bool) :
    Follows u [] { c with table := c.table.clone child pid segment frame } := by
  have hBuilding := hBuilds.building
  have hOther := h.other (i := child) (by simp [hBuilding])
  have hSeen := h.agrees.procs child
  have hStill : ∀ f : Proc → Proc, (c.table.setProc child f).self.state = .running := by
    intro f
    rw [Table.self, Table.setProc_current, Table.procs_setProc, if_neg hOther.symm]
    exact h.turn
  rw [Table.clone]
  -- a turn that stores a page, one that runs out of memory, and the end of the loop, which
  -- publishes the child
  split
  · next k hNext =>
    split
    · have hPage := h.agrees.setProc_unseen child
        (f := fun p => { p with pages := Function.update p.pages k (c.table.self.pages k) })
        ⟨hSeen.state, hSeen.pid, hSeen.ticks, hSeen.killed, hSeen.resume⟩
      exact Serves.yield ⟨hPage, h.mounted, h.running, hStill _, h.mode⟩ rfl
    · exact h.free hOther _ (.inr hBuilding)
  · have hStep : u.perform (.publish child) =
        some (u.setProc child fun p => { p with state := .new }) :=
      if_pos ⟨h.mode, hSeen.state.trans hBuilding⟩
    have hNew := h.agrees.setProc_same child (f := fun p => { p with state := .new })
      (g := fun p => { p with state := .new })
      ⟨rfl, hSeen.pid, hSeen.ticks, hSeen.killed, by simp⟩
    exact .silent rfl hStep
      (.stay (Serves.returning ⟨hNew, h.mounted, h.running, hStill _, h.mode⟩ pid))

/-- A turn of the loop of `sys_sleep`. -/
theorem sleepTurn (h : Serves c u) (start ticks total : Ticks) :
    Follows u [] { c with table := c.table.sleepTurn start ticks total } := by
  have hAlike : ∀ s, Alike c.table s → Serves { c with table := s } u := by
    intro s hAlike
    refine ⟨h.agrees.alike hAlike, hAlike.mounted.trans h.mounted, hAlike.running.trans h.running,
      ?_, h.mode⟩
    dsimp only
    rw [Table.self, hAlike.procs, hAlike.current]
    exact h.turn
  rw [Table.sleepTurn]
  split
  · exact .stay ((hAlike (c.table.note _) ⟨rfl, rfl, rfl, rfl, rfl⟩).returning 0)
  · generalize (if total < c.table.nextWakeupCall then total else c.table.nextWakeupCall) = low
    have hArmed := hAlike { c.table with nextWakeupCall := low } ⟨rfl, rfl, rfl, rfl, rfl⟩
    refine hArmed.sleep .systicks ?_
    rfl

/-- The bodies of the system calls that `kernel_brk` runs without an event of their own. -/
theorem kernelBrk (h : Serves c u) {number : Byte} (hCall : c.table.kernelBrk number = some t) :
    Follows u [] { c with table := t } := by
  rw [Table.kernelBrk] at hCall
  split at hCall
  · exact h.exit_after ⟨_, _, _, rfl⟩ hCall
  · exact h.exit hCall
  · obtain rfl := Option.some.inj hCall
    exact h.wait _ _
  · obtain rfl := Option.some.inj hCall
    exact h.kill
  · obtain rfl := Option.some.inj hCall
    exact .stay (h.returning _)
  · cases hCall
  · cases hCall
  · obtain rfl := Option.some.inj hCall
    exact .stay (h.goto fun p hPoint => by rw [Stands, hPoint])

/-- `kernel_brk` returns from the system call. -/
theorem sysReturn (h : Serves c u) (value : Word)
    (hEpilogue : (c.table.setSelf fun p => { p with ax := value }).epilogue = some t) :
    Follows u [] { c with table := t } := by
  have hData := h.data (f := fun p => { p with ax := value }) ⟨_, _, _, rfl⟩
  exact .silent (e := .sysReturn) rfl (if_pos h.mode)
    (hData.agrees.epilogue hData.mounted hData.running hData.turn hEpilogue)

end Serves

end Clocked

end Xv6502.Kernel
