import Xv6502.Kernel.StateMachine

/-!
# The Process Tree

Every process but "init" has a parent that can still reap it: the process that forked it, or
"init" after that one has ended. And no exit is missed: a parent that sleeps in `sys_wait` has
no zombie among its children, since `sys_exit` wakes the parent up and hands its own children,
the zombies among them with a wakeup, to "init".
-/

namespace Xv6502.Kernel

open Xv6502.Emulator Xv6502.Lib

namespace Table

variable {s t : Table}

/-! ## §1 The invariant -/

/-- The parent of a process, as its forker or "init". -/
structure ParentOf (s : Table) (p q : Slot) : Prop where
  parent : (s.procs p).parent = some q
  other : q ≠ p
  alive : Alive (s.procs q)
  forked : q = initProcess ∨ .forked (s.procs q).pid (s.procs p).pid ∈ s.log

/-- The tree of the processes. -/
structure Tree (s : Table) : Prop where
  parents : ∀ p, (s.procs p).state ≠ .unused → p ≠ initProcess → ∃ q, ParentOf s p q
  awake : ∀ p q, (s.procs p).state = .sleeping → (s.procs p).channel = .proc p →
    (s.procs q).state = .zombie → (s.procs q).parent ≠ some p

/-- A parent that lives on with its child stays its parent. -/
theorem ParentOf.keeps {p q : Slot} (h : ParentOf s p q)
    (hParent : (t.procs p).parent = (s.procs p).parent)
    (hChildPid : (t.procs p).pid = (s.procs p).pid) (hPid : (t.procs q).pid = (s.procs q).pid)
    (hAlive : Alive (t.procs q)) (hLog : ∀ notice ∈ s.log, notice ∈ t.log) : ParentOf t p q := by
  refine ⟨hParent.trans h.parent, h.other, hAlive, ?_⟩
  rw [hPid, hChildPid]
  exact h.forked.imp_right (hLog _)

namespace Tree

/-! ## §2 The moves -/

theorem steady (h : Tree s) (hSteady : Steady s t) : Tree t := by
  have hKeeps := hSteady.keeps
  refine ⟨?_, ?_⟩
  · intro p hUsed hNotInit
    have hBefore : (s.procs p).state ≠ .unused := fun hUnused => hUsed ((hKeeps p).unused.mpr hUnused)
    obtain ⟨q, hq⟩ := h.parents p hBefore hNotInit
    exact ⟨q, hq.keeps (hKeeps p).parent (hKeeps p).pid (hKeeps q).pid ((hKeeps q).alive hq.alive)
      hSteady.log_mono⟩
  · intro p q hSleeping hChannel hZombie hParent
    rw [(hKeeps q).parent] at hParent
    have hBefore := (hKeeps q).zombie.mp hZombie
    rcases hSteady.sleepers p hSleeping with ⟨hAsleep, hSame⟩ | ⟨rfl, hFalls⟩
    · exact h.awake p q hAsleep (hSame ▸ hChannel) hBefore hParent
    · -- it has looked for zombies before it fell asleep
      cases hFalls with
      | device n hDevice =>
        rw [hChannel] at hDevice
        cases hDevice
      | wait _ hNone => exact hNone q hBefore hParent
      | timed start ticks total hTicks _ _ _ =>
        rw [hChannel] at hTicks
        cases hTicks

theorem create (h : Tree s) (hLife : Life s) {child : Slot} (hRun : s.running = true)
    (hState : (s.procs child).state = .unused) : Tree (s.create child) := by
  have hNow := procs_create s child
  have hTurn := hLife.turn hRun
  have hSelf : s.current ≠ child := by
    rintro rfl
    rw [self, hState] at hTurn
    cases hTurn
  have hAlive : ∀ q, Alive (s.procs q) → q ≠ child := by
    rintro q hq rfl
    exact hq.1 hState
  refine ⟨?_, ?_⟩
  · intro p hUsed hNotInit
    -- the child's parent is the process that runs, which is alive
    by_cases hChild : p = child
    · subst hChild
      refine ⟨s.current, ?_, hSelf, ?_, .inr ?_⟩
      · rw [hNow, if_pos rfl]
        rfl
      · rw [hNow, if_neg hSelf]
        rw [self] at hTurn
        simp [Alive, hTurn]
      · rw [hNow, hNow, if_neg hSelf, if_pos rfl]
        exact List.mem_cons_self
    · rw [hNow, if_neg hChild] at hUsed
      obtain ⟨q, hq⟩ := h.parents p hUsed hNotInit
      have hOld : (s.create child).procs q = s.procs q := by rw [hNow, if_neg (hAlive q hq.alive)]
      have hSame : (s.create child).procs p = s.procs p := by rw [hNow, if_neg hChild]
      exact ⟨q, hq.keeps (by rw [hSame]) (by rw [hSame]) (by rw [hOld]) (hOld ▸ hq.alive)
        fun notice hMem => List.mem_cons_of_mem _ hMem⟩
  · intro p q hSleeping hChannel hZombie
    -- the new slot is neither a sleeper nor a zombie
    have hNotNew : ∀ i, ((s.create child).procs i).state ≠ .building → i ≠ child := by
      rintro i hi rfl
      rw [hNow, if_pos rfl] at hi
      exact hi rfl
    have hp := hNotNew p (by simp [hSleeping])
    have hq := hNotNew q (by simp [hZombie])
    rw [hNow, if_neg hp] at hSleeping hChannel
    rw [hNow, if_neg hq] at hZombie ⊢
    exact h.awake p q hSleeping hChannel hZombie

theorem exit (h : Tree s) (hPids : Pids s) (hLife : Life s) {cause : ExitCause}
    (hRun : s.running = true) (hExits : Exits s cause t) : Tree t := by
  have hTurn := hLife.turn hRun
  have hReleased := hExits.released
  have hInit : Alive (t.procs initProcess) :=
    (hReleased _ hExits.notInit.symm).alive hPids.init
  have hLog : ∀ notice ∈ s.log, notice ∈ t.log := by
    intro notice hMem
    rw [hExits.rest]
    exact List.mem_cons_of_mem _ hMem
  have hSelf : (s.procs s.current).state ≠ .unused := by
    rw [← self, hTurn]
    simp
  obtain ⟨parent, hParent⟩ := h.parents s.current hSelf hExits.notInit
  -- the exiting process is not its own child
  have hOwn : (t.procs s.current).parent = s.self.parent := by
    refine hExits.parent.resolve_right ?_
    rintro ⟨hLoop, -⟩
    rw [self, hParent.parent] at hLoop
    exact hParent.other (Option.some.inj hLoop)
  refine ⟨?_, ?_⟩
  · intro p hUsed hNotInit
    have hOrphan := hExits.orphans p hUsed
    by_cases hp : p = s.current
    · subst hp
      have hOther := hReleased parent hParent.other
      exact ⟨parent, hParent.keeps hOwn hExits.ended.pid hOther.pid (hOther.alive hParent.alive) hLog⟩
    · have hBefore : (s.procs p).state ≠ .unused := by
        have hState := (hReleased p hp).state
        grind
      obtain ⟨q, hq⟩ := h.parents p hBefore hNotInit
      rcases (hReleased p hp).parent with hSame | ⟨-, hGiven⟩
      · have hOther : q ≠ s.current := by
          rintro rfl
          exact hOrphan (hSame.trans hq.parent)
        exact ⟨q, hq.keeps hSame (hReleased p hp).pid (hReleased q hOther).pid
          ((hReleased q hOther).alive hq.alive) hLog⟩
      · exact ⟨initProcess, hGiven, hNotInit.symm, hInit, .inl rfl⟩
  · intro p q hSleeping hChannel hZombie hChild
    have hp : p ≠ s.current := by
      rintro rfl
      rw [hExits.ended.state] at hSleeping
      cases hSleeping
    by_cases hq : q = s.current
    · subst hq
      rw [hOwn] at hChild
      exact hExits.parentAwake p hChild p hSleeping hChannel
    · have hState := (hReleased q hq).state
      have hBefore : (s.procs q).state = .zombie := by grind
      rcases (hReleased q hq).parent with hSame | ⟨hMine, hGiven⟩
      · refine h.awake p q ((hReleased p hp).sleeping hSleeping) ?_ hBefore (hSame ▸ hChild)
        rw [← (hReleased p hp).channel]
        exact hChannel
      · -- an inherited zombie has woken "init" up
        rw [hGiven] at hChild
        obtain rfl := Option.some.inj hChild
        exact hExits.initAwake q hBefore hMine hq initProcess hSleeping hChannel

theorem frees (h : Tree s) {i : Slot} (hFrees : Frees s i t) : Tree t := by
  -- the slot is a zombie's or that of a child never published, so it is nobody's parent
  have hNotAlive : ¬ Alive (s.procs i) := by
    rintro ⟨-, hBuilt, hZombie⟩
    rcases hFrees.log with ⟨hState, -⟩ | ⟨hState, -⟩
    · exact hZombie hState
    · exact hBuilt hState
  have hUsed : ∀ p, (t.procs p).state ≠ .unused → p ≠ i := by
    rintro p hp rfl
    exact hp hFrees.state
  refine ⟨?_, ?_⟩
  · intro p hp hNotInit
    have hKeeps := hFrees.keeps p (hUsed p hp)
    have hBefore : (s.procs p).state ≠ .unused := fun hUnused => hp (hKeeps.unused.mpr hUnused)
    obtain ⟨q, hq⟩ := h.parents p hBefore hNotInit
    have hOther : q ≠ i := by
      rintro rfl
      exact hNotAlive hq.alive
    have hKeepsQ := hFrees.keeps q hOther
    exact ⟨q, hq.keeps hKeeps.parent hKeeps.pid hKeepsQ.pid (hKeepsQ.alive hq.alive) hFrees.log_mono⟩
  · intro p q hSleeping hChannel hZombie hParent
    obtain ⟨hBefore, hSame⟩ := hFrees.sleepers p hSleeping
    have hKeeps := hFrees.keeps q (hUsed q (by simp [hZombie]))
    rw [hKeeps.parent] at hParent
    exact h.awake p q hBefore (hSame ▸ hChannel) (hKeeps.zombie.mp hZombie) hParent

theorem move (hLife : Life s) (hPids : Pids s) (h : Tree s) (hMove : Move s t) : Tree t := by
  obtain hSteady | ⟨child, hState, -, hRun, rfl⟩ | ⟨cause, -, hRun, hExits⟩ | ⟨i, -, hFrees⟩ :=
    hMove.cases hLife
  · exact h.steady hSteady
  · exact h.create hLife hRun hState
  · exact h.exit hPids hLife hRun hExits
  · exact h.frees hFrees

theorem boot (code : Page) (top : Word) : Tree (boot code top) := by
  have hOnly : ∀ p, ((Table.boot code top).procs p).state ≠ .unused → p = initProcess := by
    intro p hUsed
    by_contra hNe
    exact hUsed (by simp [Table.boot, hNe, emptySlot])
  refine ⟨fun p hUsed hNotInit => absurd (hOnly p hUsed) hNotInit, ?_⟩
  intro p q hSleeping
  have hInit := hOnly p (by simp [hSleeping])
  simp [Table.boot, hInit, initProc] at hSleeping

end Tree

/-! ## §3 Every run -/

/-- **The process tree stays reapable and no exit is missed.** A process that ends hands its
    children to "init" in the step in which it becomes a zombie, so a parent is always alive; and
    who waits is woken up by each exit of a child in the same step. -/
theorem process_tree {code : Page} {top : Word} {es : List Event}
    (hRun : Run Step (boot code top) es s) :
    (∀ p, (s.procs p).state ≠ .unused → p ≠ initProcess →
      ∃ q, (s.procs p).parent = some q ∧ (s.procs q).state ≠ .unused ∧
        (s.procs q).state ≠ .zombie ∧
        (q = initProcess ∨ .forked (s.procs q).pid (s.procs p).pid ∈ s.log)) ∧
      ∀ p q, (s.procs p).state = .sleeping → (s.procs p).channel = .proc p →
        (s.procs q).state = .zombie → (s.procs q).parent ≠ some p := by
  have hMove : ∀ s t, Life s → Pids s ∧ Tree s → Move s t → Pids t ∧ Tree t := by
    rintro s t hLife ⟨hPids, hTree⟩ hMove
    exact ⟨hPids.move hLife hMove, hTree.move hLife hPids hMove⟩
  obtain ⟨-, -, hTree⟩ := invariant_of_moves hMove hRun (Life.boot code top)
    ⟨Pids.boot code top, Tree.boot code top⟩
  refine ⟨?_, hTree.awake⟩
  intro p hUsed hNotInit
  obtain ⟨q, hq⟩ := hTree.parents p hUsed hNotInit
  exact ⟨q, hq.parent, hq.alive.1, hq.alive.2.2, hq.forked⟩

/-- "init" is the parent of its first child. -/
theorem first_child_parent :
    ∃ log q, ((reaping (fun _ => 0) 0x800 2 log).procs 1).parent = some q ∧
      ((reaping (fun _ => 0) 0x800 2 log).procs q).state ≠ .zombie := by
  have hRun := (boot_resting (fun _ => 0) 0x800).append
    (resting_reaping (fun _ => 0) 0x800 rfl (by decide))
  obtain ⟨q, hParent, -, hAlive, -⟩ := (process_tree hRun).1 1 (by simp [reaping, childAt])
    (by simp [initProcess])
  exact ⟨_, q, hParent, hAlive⟩

end Table

end Xv6502.Kernel
