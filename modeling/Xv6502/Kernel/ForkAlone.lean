import Xv6502.Kernel.FrameRuns
import Xv6502.Kernel.ProcessPids

/-!
# A `sys_fork` that Nobody Disturbs

A call of `sys_fork` that nobody disturbs returns (`fork_alone`): the pid of the child if there is a
slot, and a frame for the kernel stack and for each segment of the caller, and -1 if not.
-/

namespace Xv6502.Kernel

open Xv6502.Emulator

/-! ## §1 The turns of a call -/

/-- The number of segments from `n` on that a table maps. -/
def mappedFrom (table : Nat → Frame) (n : Nat) : Nat :=
  ∑ segment ∈ Finset.Ico n pageTableSize, if table segment = frameUnused then 0 else 1

theorem mappedFrom_first {table : Nat → Frame} {n : Nat} (h : n < pageTableSize) :
    mappedFrom table n = (if table n = frameUnused then 0 else 1) + mappedFrom table (n + 1) :=
  Finset.sum_eq_sum_Ico_succ_bot h _

theorem mappedFrom_end {table : Nat → Frame} : mappedFrom table pageTableSize = 0 := by
  simp [mappedFrom]

/-- The event is one of the call of `p`, or switches back to it. -/
def OwnEvent (p : Slot) (e : ProcEvent) : Prop :=
  e = .fork ∨ e = .act .proceed ∨ e = .dispatch p

/-- The page loop of an undisturbed call is about to come to segment `n`. -/
structure AtTurn (address : Slot → Word) (p : Slot) (s₀ : ProcKernel) (child : Slot)
    (ts : List ProcStep) (n : Nat) (s : ProcKernel) : Prop where
  run : ForkRun address p s₀ ts s
  undisturbed : ∀ u ∈ ts, OwnEvent p u.event
  forking : Forking p s₀ child ts n none s
  running : s.kernel.running = true
  current : s.kernel.current = p

section Alone

variable {address : Slot → Word} {p child : Slot} {s₀ s : ProcKernel} {ts : List ProcStep} {n : Nat}

/-- **Run lemma**: the call keeps the pid it has got. -/
theorem ForkRun.childPid (hOwned : s₀.kernel.Owned) (h : ForkRun address p s₀ ts s) :
    s.childPid p = s₀.nextPid := by
  induction h with
  | call hCurrent hStep hOpen =>
    obtain ⟨_, -, -, -, rfl⟩ := fork_open hStep hOpen
    rw [hCurrent]
    exact Function.update_self ..
  | @step _ s _ _ hRun hStep _ _ ih =>
    rcases perform_statics hStep with ⟨-, hSame⟩ | ⟨rfl, -, -, -, hUpdate⟩
    · rw [hSame]
      exact ih
    · -- another one has called `sys_fork`
      obtain ⟨child, segment, held, -, hForking⟩ := hRun.forking hOwned
      have hOther : Forking.Other p s .fork := by
        rintro ⟨-, hEvent⟩
        cases hEvent
      have hNe := (hForking.acts hStep hOther rfl).1
      rw [hUpdate, Function.update_of_ne hNe.symm]
      exact ih

theorem ownEvent_append {u : ProcStep} (h : ∀ v ∈ ts, OwnEvent p v.event)
    (hu : OwnEvent p u.event) : ∀ v ∈ ts ++ [u], OwnEvent p v.event := by
  intro v hv
  rcases List.mem_append.mp hv with hOld | hNew
  · exact h v hOld
  · rw [List.mem_singleton.mp hNew]
    exact hu

/-- A process goes on with its system call. -/
theorem proceed_perform {k : KernelState} (hRunning : s.kernel.running = true)
    (hAct : s.kernel.act .proceed = some k) :
    s.perform address (.act .proceed) = some ⟨k, s.nextPid, s.childPid⟩ := by
  show (if s.kernel.running = true then s.kernel.act .proceed else none).map _ = _
  rw [if_pos hRunning, hAct]
  rfl

/-- The caller has yielded, and is the next to run. -/
theorem dispatch_back (hRun : ForkRun address p s₀ ts s)
    (hUndisturbed : ∀ u ∈ ts, OwnEvent p u.event) (hForking : Forking p s₀ child ts n none s)
    (hIdle : s.kernel.running = false) (hReady : (s.kernel.procs p).state = .ready) :
    ∃ ts' s', AtTurn address p s₀ child ts' n s' ∧
      s'.kernel.pool.available = s.kernel.pool.available := by
  have hRunnable : (s.kernel.procs p).state.runnable = true := by
    rw [hReady]
    rfl
  have hStep : s.perform address (.dispatch p) = _ :=
    congrArg (Option.map _) (if_pos ⟨hIdle, hRunnable⟩)
  have hOther : Forking.Other p s (.dispatch p) := by
    rintro ⟨-, hEvent⟩
    cases hEvent
  refine ⟨_, _, ⟨hRun.step hStep trivial fun _ => rfl, ?_, hForking.other hStep trivial hOther,
    rfl, rfl⟩, rfl⟩
  exact ownEvent_append hUndisturbed (.inr (.inr rfl))

namespace AtTurn

theorem task (h : AtTurn address p s₀ child ts n s) :
    s.kernel.self.task = .fork child n (s₀.tableOf p) := by
  have hTask := h.forking.self_task h.current
  generalize s.kernel.self.task = task at hTask
  cases hTask
  rfl

theorem act (h : AtTurn address p s₀ child ts n s) :
    s.kernel.act .proceed = some (s.kernel.forkPage child n (s₀.tableOf p)) := by
  simp only [KernelState.act, h.task]

/-- The turn is clean unless memory has run out. -/
theorem clean (h : AtTurn address p s₀ child ts n s)
    (hMemory : n < pageTableSize → s₀.tableOf p n ≠ frameUnused → s.kernel.pool.available ≠ 0) :
    s.Clean (.act .proceed) := by
  intro c m table hFork hLess hMapped hNone
  rw [h.task] at hFork
  obtain ⟨-, rfl, rfl⟩ := Task.fork.inj hFork
  exact absurd hNone (hMemory hLess hMapped)

theorem forkResult (h : AtTurn address p s₀ child ts n s) :
    s.forkResult (.act .proceed) =
      if pageTableSize ≤ n then some (s.childPid p)
      else if s₀.tableOf p n ≠ frameUnused ∧ s.kernel.pool.available = 0 then some minusOne
      else none := by
  simp only [ProcKernel.forkResult, h.task, Pool.kalloc_eq_unused_iff, h.current]

/-- A segment that is not mapped. -/
theorem skip (h : AtTurn address p s₀ child ts n s) (hLess : n < pageTableSize)
    (hUnmapped : s₀.tableOf p n = frameUnused) :
    ∃ ts' s', AtTurn address p s₀ child ts' (n + 1) s' ∧
      s'.kernel.pool.available = s.kernel.pool.available := by
  have hStep : s.perform address (.act .proceed) = _ := proceed_perform h.running h.act
  have hClean := h.clean fun _ hMapped => absurd hUnmapped hMapped
  have hOpen : s.forkResult (.act .proceed) = none := by
    rw [h.forkResult, if_neg (Nat.not_le_of_lt hLess), if_neg fun hBoth => hBoth.1 hUnmapped]
  have hPage : s.kernel.forkPage child n (s₀.tableOf p) =
      s.kernel.setSelf fun e => { e with task := .fork child (n + 1) (s₀.tableOf p) } := by
    rw [KernelState.forkPage, dif_pos hLess, if_pos hUnmapped]
  rw [hPage] at hStep
  have hOwned := ProcKernel.owned_performs h.forking.owned hStep hClean
  refine ⟨_, _, ⟨h.run.step hStep hClean fun _ => hOpen, ?_, ?_, h.running, h.current⟩, rfl⟩
  · exact ownEvent_append h.undisturbed (.inr (.inl rfl))
  · apply h.forking.skip h.current hOwned hLess hUnmapped rfl
    simp [ProcKernel.obtains, h.task, hUnmapped]

/-- A segment that is mapped takes a frame. -/
theorem copy (h : AtTurn address p s₀ child ts n s) (hLess : n < pageTableSize)
    (hMapped : s₀.tableOf p n ≠ frameUnused) (hMemory : s.kernel.pool.available ≠ 0) :
    ∃ ts' s', AtTurn address p s₀ child ts' (n + 1) s' ∧
      s'.kernel.pool.available + 1 = s.kernel.pool.available := by
  have hFrame : s.kernel.pool.kalloc.1 ≠ frameUnused := fun hNone =>
    hMemory (Pool.kalloc_eq_unused_iff.mp hNone)
  -- `kalloc`
  have hStep : s.perform address (.act .proceed) = _ := proceed_perform h.running h.act
  have hClean := h.clean fun _ _ => hMemory
  have hOpen : s.forkResult (.act .proceed) = none := by
    rw [h.forkResult, if_neg (Nat.not_le_of_lt hLess), if_neg fun hBoth => hMemory hBoth.2]
  have hPage : s.kernel.forkPage child n (s₀.tableOf p) =
      s.kernel.forkHold child ⟨n, hLess⟩ (s₀.tableOf p) := by
    rw [KernelState.forkPage, dif_pos hLess, if_neg hMapped]
    simp only [hFrame, if_false]
    rfl
  rw [hPage] at hStep
  have hOwned := ProcKernel.owned_performs h.forking.owned hStep hClean
  have hGot : s.obtains (.act .proceed) = [s.kernel.pool.kalloc.1] := by
    simp [ProcKernel.obtains, h.task, hLess, hMapped, hFrame]
  have hHold := h.forking.hold h.current hOwned hLess hMapped hFrame rfl hGot
  have hRun := h.run.step hStep hClean fun _ => hOpen
  -- the store, the copy and `yield()`
  set s₁ : ProcKernel :=
    ⟨s.kernel.forkHold child ⟨n, hLess⟩ (s₀.tableOf p), s.nextPid, s.childPid⟩ with hs₁
  have hRunning₁ : s₁.kernel.running = true := h.running
  have hCurrent₁ : s₁.kernel.current = p := h.current
  have hTask₁ : s₁.kernel.self.task =
      .forkHolding child ⟨n, hLess⟩ (s₀.tableOf p) s.kernel.pool.kalloc.1 := by
    simp [hs₁, KernelState.forkHold, KernelState.self, KernelState.setSelf, KernelState.setProc]
  have hAct₁ : s₁.kernel.act .proceed = some (s₁.kernel.forkStore child ⟨n, hLess⟩
      (s₀.tableOf p) s.kernel.pool.kalloc.1) := by
    simp only [KernelState.act, hTask₁]
  have hStep₁ : s₁.perform address (.act .proceed) = _ := proceed_perform hRunning₁ hAct₁
  have hClean₁ : s₁.Clean (.act .proceed) := by
    intro c m table hFork
    rw [hTask₁] at hFork
    cases hFork
  have hOwned₁ := ProcKernel.owned_performs hHold.owned hStep₁ hClean₁
  have hNone₁ : s₁.obtains (.act .proceed) = [] := by
    simp [ProcKernel.obtains, hTask₁]
  have hStored := hHold.store hCurrent₁ hRunning₁ hOwned₁ hTask₁ rfl hNone₁
  have hRun₁ := hRun.step hStep₁ hClean₁ fun _ => by
    simp only [ProcKernel.forkResult, hTask₁]
  -- and back
  have hReady : ((s₁.kernel.forkStore child ⟨n, hLess⟩ (s₀.tableOf p)
      s.kernel.pool.kalloc.1).procs p).state = .ready := by
    rw [forkStore_procs, hCurrent₁, Function.update_self]
  obtain ⟨ts', s', hBack, hAvailable⟩ := dispatch_back hRun₁
    (ownEvent_append (ownEvent_append h.undisturbed (.inr (.inl rfl))) (.inr (.inl rfl)))
    hStored rfl hReady
  refine ⟨ts', s', hBack, ?_⟩
  rw [hAvailable]
  exact Pool.kalloc_available hFrame

/-- From a turn on the call returns. -/
theorem returns (h : AtTurn address p s₀ child ts n s) (hOwned : s₀.kernel.Owned) :
    ∃ ts' t, ForkReturns address p s₀ ts' t
        (if mappedFrom (s₀.tableOf p) n ≤ s.kernel.pool.available then s₀.nextPid else minusOne) ∧
      ∀ u ∈ ts', OwnEvent p u.event := by
  have hBound := h.forking.bound
  -- what is left of the loop
  induction hk : pageTableSize - n generalizing n ts s with
  | zero =>
    obtain rfl : n = pageTableSize := by omega
    have hStep : s.perform address (.act .proceed) = _ := proceed_perform h.running h.act
    refine ⟨ts, _, .later h.run h.current hStep ?_, h.undisturbed⟩
    rw [h.forkResult, if_pos le_rfl, h.run.childPid hOwned, mappedFrom_end,
      if_pos (Nat.zero_le _)]
  | succ k ih =>
    have hLess : n < pageTableSize := by omega
    rw [mappedFrom_first hLess]
    by_cases hMapped : s₀.tableOf p n = frameUnused
    · obtain ⟨ts', s', hNext, hAvailable⟩ := h.skip hLess hMapped
      rw [if_pos hMapped, Nat.zero_add, ← hAvailable]
      exact ih hNext hNext.forking.bound (by omega)
    · rw [if_neg hMapped]
      by_cases hMemory : s.kernel.pool.available = 0
      · have hStep : s.perform address (.act .proceed) = _ := proceed_perform h.running h.act
        refine ⟨ts, _, .later h.run h.current hStep ?_, h.undisturbed⟩
        rw [h.forkResult, if_neg (Nat.not_le_of_lt hLess), if_pos ⟨hMapped, hMemory⟩, hMemory,
          if_neg (by omega)]
      · obtain ⟨ts', s', hNext, hAvailable⟩ := h.copy hLess hMapped hMemory
        have hCount : 1 + mappedFrom (s₀.tableOf p) (n + 1) ≤ s.kernel.pool.available ↔
            mappedFrom (s₀.tableOf p) (n + 1) ≤ s'.kernel.pool.available := by omega
        simp only [hCount]
        exact ih hNext hNext.forking.bound (by omega)

end AtTurn

/-! ## §2 The call -/

/-- A call that goes on comes to its first turn. -/
theorem fork_turn (hOwned : s₀.kernel.Owned) (hRunning : s₀.kernel.running = true)
    (hUser : s₀.kernel.self.task.isUser = true) (hPid : s₀.nextPid ≠ 0)
    (hFound : s₀.kernel.firstUnused = some child) (hFrame : s₀.kernel.pool.kalloc.1 ≠ frameUnused) :
    ∃ ts s, AtTurn address s₀.kernel.current s₀ child ts 0 s ∧
      s.kernel.pool.available + 1 = s₀.kernel.pool.available := by
  have hPerform : s₀.perform address .fork = s₀.forkStart address := if_pos ⟨hRunning, hUser⟩
  unfold ProcKernel.forkStart at hPerform
  rw [hFound] at hPerform
  obtain ⟨s₁, hStep⟩ : ∃ s₁, s₀.perform address .fork = some s₁ :=
    ⟨_, hPerform.trans ((if_neg hFrame).trans (if_neg hPid))⟩
  have hOpen : s₀.forkResult .fork = none := by
    simp [ProcKernel.forkResult, hFound, hFrame]
  -- the child has its slot and the frame for its kernel stack, so the call is at its loop
  have hForking := Forking.call hOwned rfl hStep hOpen hFound
  have hUndisturbed : ∀ u ∈ [(⟨s₀, .fork, s₁⟩ : ProcStep)],
      OwnEvent s₀.kernel.current u.event := by
    intro u hu
    rw [List.mem_singleton.mp hu]
    exact .inl rfl
  obtain ⟨hProcs, -⟩ := fork_procs hStep hFound hFrame
  obtain ⟨c, hc, -, -, hEq⟩ := fork_open hStep hOpen
  obtain rfl := Option.some.inj (hFound.symm.trans hc)
  have hPatched := ProcKernel.patchChild_stored (s₀.kernel.forkInto child) child s₀.nextPid
    (address s₀.kernel.current)
  have hIdle : s₁.kernel.running = false := by
    rw [hEq, hPatched.rest]
    simp only [KernelState.forkInto, hFrame, if_false]
    rfl
  have hReady : (s₁.kernel.procs s₀.kernel.current).state = .ready := by
    rw [hProcs, KernelState.forkInto_self hFrame hForking.ne]
  -- that frame is the one page the call has taken so far
  have hMemory : s₁.kernel.pool.available + 1 = s₀.kernel.pool.available := by
    have hFree : s₁.kernel.pool.free = s₀.kernel.pool.kalloc.2.free := by
      rw [hEq, hPatched.free, KernelState.forkInto_pool hFrame hForking.ne]
      rfl
    have hKalloc := Pool.kalloc_available hFrame
    unfold Pool.available at hKalloc ⊢
    rw [hFree]
    exact hKalloc
  obtain ⟨ts, s, hTurn, hAvailable⟩ :=
    dispatch_back (.call rfl hStep hOpen) hUndisturbed hForking hIdle hReady
  exact ⟨ts, s, hTurn, by rw [hAvailable, hMemory]⟩

/-- "init" calls `sys_fork` with its four pages, and comes to its first turn. -/
theorem inUser_turn {k : KernelState} {used frames : Nat}
    (h : KernelState.InUser used (frames + 1) k) (hSlots : used + 1 < 512) (nextPid : Word)
    (hPid : nextPid ≠ 0) :
    ∃ child ts s, AtTurn address k.current ⟨k, nextPid, fun _ => 0⟩ child ts 0 s ∧
      s.kernel.pool.available = frames ∧
      mappedFrom (ProcKernel.tableOf ⟨k, nextPid, fun _ => 0⟩ k.current) 0 = 4 := by
  obtain ⟨child, hFound, -⟩ :=
    KernelState.firstUnused_le (h.serving.slots ⟨used + 1, hSlots⟩ (Nat.lt_succ_self used))
  -- at boot only the pages of "init" are taken
  have hFrame : k.pool.kalloc.1 ≠ frameUnused := by
    intro hNone
    have hZero := Pool.kalloc_eq_unused_iff.mp hNone
    rw [h.serving.available] at hZero
    cases hZero
  have hUser : k.self.task.isUser = true := by
    rw [h.task]
    rfl
  obtain ⟨ts, s, hTurn, hAvailable⟩ := @fork_turn address child ⟨k, nextPid, fun _ => 0⟩
    h.serving.owned h.running hUser hPid hFound hFrame
  refine ⟨child, ts, s, hTurn, ?_, ?_⟩
  · have hBefore := h.serving.available
    dsimp only at hAvailable
    omega
  · have hTable := h.serving.table
    rw [← h.current] at hTable
    have hCount : mappedFrom (ProcKernel.tableOf ⟨k, nextPid, fun _ => 0⟩ k.current) 0 =
        ∑ segment ∈ Finset.Ico 0 pageTableSize, if 4 ≤ segment then 0 else 1 := by
      apply Finset.sum_congr rfl
      intro segment hIn
      have hIff := hTable segment (Finset.mem_Ico.mp hIn).2
      unfold ProcKernel.tableOf
      simp only [hIff]
    rw [hCount]
    rfl

/-- **Termination**: a call of `sys_fork` that nobody disturbs returns. It returns the next pid if
    there is a slot, and a frame for the kernel stack and for each segment, and -1 if not. -/
theorem fork_alone (hOwned : s₀.kernel.Owned) (hRunning : s₀.kernel.running = true)
    (hUser : s₀.kernel.self.task.isUser = true) (hPid : s₀.nextPid ≠ 0) :
    ∃ ts t, ForkReturns address s₀.kernel.current s₀ ts t
        (if s₀.kernel.firstUnused ≠ none ∧
            1 + mappedFrom (s₀.tableOf s₀.kernel.current) 0 ≤ s₀.kernel.pool.available
          then s₀.nextPid else minusOne) ∧
      ∀ u ∈ ts, OwnEvent s₀.kernel.current u.event := by
  have hPerform : s₀.perform address .fork = s₀.forkStart address := if_pos ⟨hRunning, hUser⟩
  unfold ProcKernel.forkStart at hPerform
  -- no slot, no frame for the kernel stack, or the loop over the segments, which decides the rest
  cases hFound : s₀.kernel.firstUnused with
  | none =>
    rw [hFound] at hPerform
    have hStep : s₀.perform address .fork = some s₀ := hPerform
    refine ⟨[], _, .atOnce rfl hStep ?_, by simp⟩
    simp [ProcKernel.forkResult, hFound]
  | some child =>
    rw [hFound] at hPerform
    by_cases hFrame : s₀.kernel.pool.kalloc.1 = frameUnused
    · have hStep : s₀.perform address .fork = _ := hPerform.trans (if_pos hFrame)
      have hNone := Pool.kalloc_eq_unused_iff.mp hFrame
      refine ⟨[], _, .atOnce rfl hStep ?_, by simp⟩
      simp [ProcKernel.forkResult, hFrame, hNone]
    · obtain ⟨ts, s, hTurn, hAvailable⟩ := fork_turn hOwned hRunning hUser hPid hFound hFrame
      obtain ⟨ts', t, hReturns, hAll⟩ := hTurn.returns hOwned
      refine ⟨ts', t, ?_, hAll⟩
      -- one frame has gone to the stack; the turns need one for each mapped segment
      have hCount : some child ≠ none ∧ 1 + mappedFrom (s₀.tableOf s₀.kernel.current) 0 ≤
          s₀.kernel.pool.available ↔
            mappedFrom (s₀.tableOf s₀.kernel.current) 0 ≤ s.kernel.pool.available := by
        simp only [ne_eq, reduceCtorEq, not_false_eq_true, true_and]
        omega
      simp only [hCount]
      exact hReturns

end Alone

/-- "init" has the memory for a child. -/
theorem fork_alone_init : ∃ ts t,
    ForkReturns (fun _ => 0) KernelState.initSlot
      ⟨KernelState.firstDispatch.sbrk 0x3000, 2, fun _ => 0⟩ ts t 2 ∧
      ∀ u ∈ ts, OwnEvent KernelState.initSlot u.event := by
  have hInit := KernelState.inUser_start
  obtain ⟨child, hFound, -⟩ :=
    KernelState.firstUnused_le (hInit.serving.slots ⟨1, by decide⟩ Nat.one_pos)
  obtain ⟨-, -, -, -, -, hMapped⟩ :=
    @inUser_turn (fun _ => 0) _ 0 216 hInit (by decide) 2 (by decide)
  have hReturns := @fork_alone (fun _ => 0) ⟨KernelState.firstDispatch.sbrk 0x3000, 2, fun _ => 0⟩
    hInit.serving.owned hInit.running (by rw [hInit.task]; rfl) (by decide)
  rw [if_pos] at hReturns
  · rw [hInit.current] at hReturns
    exact hReturns
  · rw [hMapped, hInit.serving.available, hFound]
    exact ⟨Option.some_ne_none child, by decide⟩

end Xv6502.Kernel
