import Xv6502.Kernel.ForkAlone

/-!
# What a Failed `sys_fork` Leaves

A `sys_fork` that returns -1 leaves no trace (`NoTrace`) exactly if its rollback undoes it
(`RollsBack`). Nothing is to be undone in `proc_alloc`. In the page loop the rollback must not have
to free a frame for segment 0, where its `do … while` stops, and when memory has run out at segment
0 itself, where the loop goes round through 255, it must not find the number of a frame behind the
page table. And the -1 must not be the pid of a child.
-/

namespace Xv6502.Kernel

open Xv6502.Emulator

/-! ## §1 No trace -/

/-- A step of a call that frees nothing and writes to none but some frames. -/
structure OwnStep (p : Slot) (frames : List Frame) (u : ProcStep) : Prop where
  free : ∀ frame, Usable frame →
    u.after.kernel.pool.free.count frame + (u.obtains p).count frame =
      u.before.kernel.pool.free.count frame
  mem : ∀ frame, frame ∉ frames → u.after.kernel.pool.mem frame = u.before.kernel.pool.mem frame

/-- A call that returns with the step `t`, behind the steps `ts`, has left no trace. -/
structure NoTrace (p : Slot) (s₀ : ProcKernel) (ts : List ProcStep) (t : ProcStep) : Prop where
  /-- Until it returns the call frees nothing, and writes to its own frames. -/
  steps : ∀ u ∈ ts, u.OfFork p → OwnStep p (obtained p ts) u
  /-- Then every frame that it has got is freed once, and no other one. -/
  returned : ∀ frame, Usable frame →
    t.after.kernel.pool.free.count frame =
      t.before.kernel.pool.free.count frame + if frame ∈ obtained p ts then 1 else 0
  /-- And no other one is overwritten. -/
  written : ∀ frame, frame ∉ obtained p ts →
    t.after.kernel.pool.mem frame = t.before.kernel.pool.mem frame
  /-- The slot of the child is `UNUSED`. -/
  slot : ∀ child, s₀.kernel.firstUnused = some child →
    (t.after.kernel.procs child).state = .unused
  /-- The parent has its page table, its pages and its context. -/
  parent : LeftAlone s₀.kernel t.after.kernel p fun offset => ¬ InFront offset

namespace ProcKernel

/-- The condition, for a state in which `sys_fork` goes on. -/
def RollsBack (s : ProcKernel) : Prop :=
  ∀ child segment table, s.kernel.self.task = .fork child segment table →
    segment < pageTableSize ∧
      if segment = 0 then ∀ n, pageTableSize ≤ n → n < 256 → ¬ Usable (s.tableOf child n)
      else table 0 = frameUnused

end ProcKernel

section Fails

variable {address : Slot → Word} {p child : Slot} {s₀ s s' : ProcKernel} {ts : List ProcStep}
  {segment : Nat} {held : Option Frame} {frame : Frame}

/-! ## §2 The frames of a call -/

namespace Forking

theorem places_child (h : Forking p s₀ child ts segment held s) :
    s.kernel.pool.places (s.kernel.procs child) frame =
      (if (s.kernel.procs child).kernelFrame = frame then 1 else 0) +
        mappings (s.tableOf child) frame 0 pageTableSize := by
  have hIdle : (s.kernel.procs child).task.held = none := by
    apply Task.held_of_not_forking
    apply h.owned.not_forking
    · simp [h.building.2]
    · simp [h.building.2]
  rw [KernelState.places_live h.live_child.1 h.live_child.2, hIdle]
  simp [ProcKernel.tableOf]

/-- A frame of the call is got once. -/
theorem count_le (h : Forking p s₀ child ts segment held s) (hf : Usable frame) :
    (obtained p ts).count frame ≤ 1 := by
  rw [h.frames frame hf, ← h.places_child]
  by_cases hHeld : held = some frame
  · have hSelf : 0 < s.kernel.pool.places (s.kernel.procs p) frame := by
      rw [KernelState.places_live h.live.1 h.live.2, h.task.holds, if_pos hHeld]
      omega
    have hNone := (h.owned.alone hf hSelf).2.2 child h.ne
    rw [if_pos hHeld]
    omega
  · rw [if_neg hHeld]
    by_cases hOwns : 0 < s.kernel.pool.places (s.kernel.procs child) frame
    · have hOne := (h.owned.alone hf hOwns).2.1
      omega
    · omega

theorem count_eq (h : Forking p s₀ child ts segment held s) (hf : Usable frame) :
    (obtained p ts).count frame = if frame ∈ obtained p ts then 1 else 0 := by
  have hOnce := h.count_le hf
  split
  · next hMem =>
    have hPos := List.count_pos_iff.mpr hMem
    omega
  · next hNot => exact List.count_eq_zero.mpr hNot

/-- What the parent owns the call has not got. -/
theorem not_obtained (h : Forking p s₀ child ts segment held s) (hf : Usable frame)
    (hOwns : (s.kernel.procs p).kernelFrame = frame ∨
      ∃ m < pageTableSize, s.tableOf p m = frame) : frame ∉ obtained p ts := by
  have hFirst : 0 < (if (s.kernel.procs p).kernelFrame = frame then 1 else 0) +
      mappings (s.tableOf p) frame 0 pageTableSize := by
    rcases hOwns with hStack | ⟨m, hm, hEq⟩
    · rw [if_pos hStack]
      omega
    · have hPos := mappings_pos (Nat.zero_le m) hm hEq
      omega
  have hPlaces : s.kernel.pool.places (s.kernel.procs p) frame = _ :=
    KernelState.places_live h.live.1 h.live.2
  rw [h.task.holds] at hPlaces
  unfold ProcKernel.tableOf at hFirst
  have hPos : 0 < s.kernel.pool.places (s.kernel.procs p) frame := by omega
  obtain ⟨-, hOne, hAlone⟩ := h.owned.alone hf hPos
  apply List.count_eq_zero.mp
  rw [h.frames frame hf, ← h.places_child, hAlone child h.ne]
  omega

end Forking

/-! ## §3 The steps of a call -/

theorem OwnStep.mono {u : ProcStep} {frames frames' : List Frame} (h : OwnStep p frames u)
    (hMore : frames ⊆ frames') : OwnStep p frames' u where
  free := h.free
  mem frame hFrame := h.mem frame fun hMem => hFrame (hMore hMem)

theorem obtained_append (ts us : List ProcStep) :
    obtained p (ts ++ us) = obtained p ts ++ obtained p us :=
  List.flatMap_append

namespace Forking

theorem stack_obtained (h : Forking p s₀ child ts segment held s) :
    (s.kernel.procs child).kernelFrame ∈ obtained p ts := by
  have hCount := h.frames _ (h.owned.stack child h.live_child.1)
  rw [if_pos rfl] at hCount
  exact List.count_pos_iff.mp (by omega)

theorem entry_obtained (h : Forking p s₀ child ts segment held s) {m : Nat}
    (hm : m < pageTableSize) (hUsable : Usable (s.tableOf child m)) :
    s.tableOf child m ∈ obtained p ts := by
  have hCount := h.frames _ hUsable
  have hPos : 0 < mappings (s.tableOf child) (s.tableOf child m) 0 pageTableSize :=
    mappings_pos (Nat.zero_le m) hm rfl
  exact List.count_pos_iff.mp (by omega)

/-- A turn that does not return is one of the steps that free nothing. -/
theorem ownStep (h : Forking p s₀ child ts segment held s) (hCurrent : s.kernel.current = p)
    (hStep : s.perform address (.act .proceed) = some s')
    (hOpen : s.forkResult (.act .proceed) = none) :
    OwnStep p (obtained p ts) ⟨s, .act .proceed, s'⟩ := by
  have hGoes := h.goes hCurrent hStep hOpen
  generalize hEq : s'.kernel = k at hGoes
  have hObtains : (⟨s, .act .proceed, s'⟩ : ProcStep).obtains p = s.obtains (.act .proceed) :=
    if_pos hCurrent
  -- a frame leaves the pool only where a turn gets one
  cases hGoes with
  | skip hSegment hUnmapped hNone =>
    constructor
    · intro frame _
      rw [hObtains, hNone, hEq]
      rfl
    · intro frame _
      rw [hEq]
      rfl
  | hold hSegment hMapped hFrame hGot =>
    constructor
    · intro frame hf
      have hCount : s.kernel.pool.kalloc.2.free.count frame + _ = _ := Pool.kalloc_count hf
      rw [hObtains, hGot, hEq, List.count_singleton]
      show s.kernel.pool.kalloc.2.free.count frame + _ = _
      simpa using hCount
    · intro frame _
      rw [hEq]
      exact congrFun Pool.kalloc_mem frame
  -- the bytes go to the frame held and the entry to the child's table: both are the call's own
  | @store n page hSelf hNone =>
    constructor
    · intro frame _
      rw [hObtains, hNone, hEq]
      rfl
    · intro frame hFrame
      rw [hEq]
      apply forkStore_mem
      · rintro rfl
        exact hFrame h.stack_obtained
      · rintro rfl
        apply hFrame
        have hAt := h.self_task hCurrent
        rw [hSelf] at hAt
        cases hAt with
        | holding _ _ _ hUsable =>
          have hCount := h.frames _ hUsable
          rw [if_pos rfl] at hCount
          exact List.count_pos_iff.mp (by omega)

end Forking

/-- The call itself is one of them. -/
theorem fork_ownStep (hOwned : s₀.kernel.Owned) (hCurrent : s₀.kernel.current = p)
    (hStep : s₀.perform address .fork = some s) (hOpen : s₀.forkResult .fork = none) :
    OwnStep p (obtained p [⟨s₀, .fork, s⟩]) ⟨s₀, .fork, s⟩ := by
  have hObtains : (⟨s₀, .fork, s⟩ : ProcStep).obtains p = [s₀.kernel.pool.kalloc.1] := by
    simp [ProcStep.obtains, ProcKernel.obtains, hCurrent, hOpen]
  constructor
  · intro frame hf
    have hFree : s.kernel.pool.free = s₀.kernel.pool.kalloc.2.free := by
      obtain ⟨child, hChild, hSome, -, rfl⟩ := fork_open hStep hOpen
      have hPatched := ProcKernel.patchChild_stored (s₀.kernel.forkInto child) child s₀.nextPid
        (address s₀.kernel.current)
      refine hPatched.free.trans ?_
      simp only [KernelState.forkInto, hSome, if_false]
      rfl
    have hCount : s₀.kernel.pool.kalloc.2.free.count frame + _ = _ := Pool.kalloc_count hf
    rw [hObtains, hFree, List.count_singleton]
    simpa using hCount
  · intro frame hFrame
    apply fork_mem hOwned hStep hOpen
    rintro rfl
    apply hFrame
    rw [obtained, List.flatMap_singleton, hObtains]
    exact List.mem_singleton_self _

/-- **Run lemma**: until it returns a call frees nothing, and writes to its own frames. -/
theorem ForkRun.ownSteps (hOwned : s₀.kernel.Owned) (h : ForkRun address p s₀ ts s) :
    ∀ u ∈ ts, u.OfFork p → OwnStep p (obtained p ts) u := by
  induction h with
  | call hCurrent hStep hOpen =>
    intro u hu _
    rw [List.mem_singleton.mp hu]
    exact fork_ownStep hOwned hCurrent hStep hOpen
  | @step ts s s' e hRun hStep _ hOpen ih =>
    have hMore : obtained p ts ⊆ obtained p (ts ++ [⟨s, e, s'⟩]) := by
      rw [obtained_append]
      exact List.subset_append_left _ _
    intro u hu hOf
    rcases List.mem_append.mp hu with hOld | hNew
    · exact (ih u hOld hOf).mono hMore
    · obtain rfl := List.mem_singleton.mp hNew
      obtain ⟨child, segment, held, -, hForking⟩ := hRun.forking hOwned
      obtain ⟨hCurrent, rfl | rfl⟩ := hOf
      · -- a process in `sys_fork` does not call it
        obtain ⟨⟨-, hUser⟩, -⟩ := Option.ite_none_right_eq_some.mp hStep
        have hTask := hForking.self_task hCurrent
        generalize s.kernel.self.task = task at hTask hUser
        cases hTask <;> cases hUser
      · exact (hForking.ownStep hCurrent hStep (hOpen hCurrent)).mono hMore

/-! ## §4 The return -/

/-- A frame that is no usable one is not written to by `kfree`. -/
theorem kfree_mem_of_not_usable {pool : Pool} {g : Frame} (hNot : ¬ Usable frame) :
    (pool.kfree g).mem frame = pool.mem frame := by
  unfold Pool.kfree
  split
  · rfl
  · next hFreed =>
    push Not at hFreed
    apply Function.update_of_ne
    rintro rfl
    exact hNot ⟨hFreed.2, hFreed.1⟩

theorem rollbackLoop_mem_of_not_usable {pool : Pool} {pcb : Frame} (n : Nat)
    (hNot : ¬ Usable frame) : (pool.rollbackLoop pcb n).mem frame = pool.mem frame := by
  induction n generalizing pool with
  | zero => rfl
  | succ n ih =>
    rw [Pool.rollbackLoop, ih, Pool.freeEntry_eq]
    exact kfree_mem_of_not_usable hNot

theorem undoFork_mem_of_not_usable {k : KernelState} (hNot : ¬ Usable frame) :
    (k.undoFork child segment).mem frame = k.pool.mem frame := by
  rw [KernelState.undoFork, kfree_mem_of_not_usable hNot]
  unfold Pool.forkRollback
  split
  · rw [rollbackLoop_mem_of_not_usable _ hNot, Pool.freeEntry_eq, kfree_mem_of_not_usable hNot,
      Pool.kalloc_mem]
  · rw [rollbackLoop_mem_of_not_usable _ hNot, Pool.kalloc_mem]

/-- The step that a call returns with goes on from the page loop. -/
inductive Ends (s : ProcKernel) (child : Slot) (table : Nat → Frame) : Word → KernelState → Prop where
  | publish {segment : Nat} (hTask : s.kernel.self.task = .fork child segment table)
      (hEnd : pageTableSize ≤ segment) :
      Ends s child table (s.childPid s.kernel.current) (s.kernel.forkPublish child)
  | fail {segment : Nat} (hTask : s.kernel.self.task = .fork child segment table)
      (hSegment : segment < pageTableSize) (hMapped : table segment ≠ frameUnused)
      (hNone : s.kernel.pool.available = 0) :
      Ends s child table minusOne (s.kernel.forkFail child segment)

theorem Forking.ends {w : Word} (h : Forking p s₀ child ts segment held s)
    (hCurrent : s.kernel.current = p) (hStep : s.perform address (.act .proceed) = some s')
    (hResult : s.forkResult (.act .proceed) = some w) :
    Ends s child (s₀.tableOf p) w s'.kernel := by
  obtain ⟨-, hAct, -⟩ := perform_proceed hStep
  have hTask := h.self_task hCurrent
  generalize hSelf : s.kernel.self.task = task at hTask
  cases hTask with
  | ahead segment =>
    have hPage : s'.kernel = s.kernel.forkPage child segment (s₀.tableOf p) := by
      simp only [KernelState.act, hSelf] at hAct
      exact (Option.some.inj hAct).symm
    simp only [ProcKernel.forkResult, hSelf] at hResult
    have hTurn := KernelState.forkPage_turn s.kernel child segment (s₀.tableOf p)
    rw [hPage]
    generalize s.kernel.forkPage child segment (s₀.tableOf p) = k at hTurn
    -- of the turns at a segment, the last one and the one without memory return
    cases hTurn with
    | publish hEnd =>
      rw [if_pos hEnd] at hResult
      obtain rfl := Option.some.inj hResult
      exact .publish hSelf hEnd
    | skip hSegment hUnmapped =>
      rw [if_neg (Nat.not_le_of_lt hSegment), if_neg (fun hBoth => hBoth.1 hUnmapped)] at hResult
      cases hResult
    | fail hSegment hMapped hNone =>
      rw [if_neg (Nat.not_le_of_lt hSegment),
        if_pos ⟨hMapped, Pool.kalloc_eq_unused_iff.mpr hNone⟩] at hResult
      obtain rfl := Option.some.inj hResult
      exact .fail hSelf hSegment hMapped hNone
    | hold hSegment hMapped hFrame =>
      rw [if_neg (Nat.not_le_of_lt hSegment), if_neg (fun hBoth => hFrame hBoth.2)] at hResult
      cases hResult
  | holding n page hMapped hUsable =>
    simp only [ProcKernel.forkResult, hSelf] at hResult
    cases hResult

/-- The `kalloc` that has failed has taken no frame. -/
theorem kalloc_failed {pool : Pool} (hNone : pool.available = 0) (hf : Usable frame) :
    pool.kalloc.2.free.count frame = pool.free.count frame := by
  have hFrame := Pool.kalloc_eq_unused_iff.mpr hNone
  have hCount : pool.kalloc.2.free.count frame + _ = _ := Pool.kalloc_count hf
  rwa [hFrame, if_neg hf.2.symm, Nat.add_zero] at hCount

namespace Forking

/-- A frame of the child is free behind a rollback that undoes the call, once more. -/
theorem undo_count (h : Forking p s₀ child ts segment none s) (hSegment : segment < pageTableSize)
    (hNone : s.kernel.pool.available = 0) (hUndoes : s.kernel.UndoesFork child segment)
    (hCurrent : s.kernel.current = p) (hf : Usable frame) :
    (s.kernel.undoFork child segment).free.count frame =
      s.kernel.pool.free.count frame + (obtained p ts).count frame := by
  have hFreed := h.owned.rollback_freed (h.self_task hCurrent).forking hSegment hUndoes
  have hTable := hFreed.count frame hf
  have hStack : (s.kernel.undoFork child segment).free.count frame = _ := Pool.kfree_count _ hf
  have hKept := kalloc_failed hNone hf
  have hFrames := h.frames frame hf
  unfold ProcKernel.tableOf at hFrames
  simp only [reduceCtorEq, if_false] at hFrames
  omega

theorem undo_mem (h : Forking p s₀ child ts segment none s) (hSegment : segment < pageTableSize)
    (hUndoes : s.kernel.UndoesFork child segment) (hCurrent : s.kernel.current = p)
    (hFrame : frame ∉ obtained p ts) :
    (s.kernel.undoFork child segment).mem frame = s.kernel.pool.mem frame := by
  by_cases hf : Usable frame
  · have hFreed := h.owned.rollback_freed (h.self_task hCurrent).forking hSegment hUndoes
    have hStack : frame ≠ (s.kernel.procs child).kernelFrame := by
      rintro rfl
      exact hFrame h.stack_obtained
    have hPages : ∀ m, 0 ≤ m → m < pageTableSize →
        s.kernel.pool.entry (s.kernel.procs child).kernelFrame m ≠ frame := by
      rintro m - hm rfl
      exact hFrame (h.entry_obtained hm hf)
    rw [KernelState.undoFork, Pool.kfree_mem_of_ne hStack, hFreed.mem frame (by simp) hPages,
      Pool.kalloc_mem]
  · exact undoFork_mem_of_not_usable hf

/-- A rollback that undoes the call leaves no trace of it. -/
theorem fail_noTrace (h : Forking p s₀ child ts segment none s) (hOwned : s₀.kernel.Owned)
    (hRun : ForkRun address p s₀ ts s) (hChild : s₀.kernel.firstUnused = some child)
    (hCurrent : s.kernel.current = p) (hSegment : segment < pageTableSize)
    (hNone : s.kernel.pool.available = 0) (hUndoes : s.kernel.UndoesFork child segment)
    (hEq : s'.kernel = s.kernel.forkFail child segment) :
    NoTrace p s₀ ts ⟨s, .act .proceed, s'⟩ := by
  have hParent : s'.kernel.procs p = { s.kernel.procs p with task := .user } := by
    rw [hEq, ← hCurrent]
    have hNe : s.kernel.current ≠ child := h.current
    simp [KernelState.forkFail, KernelState.setSelf, KernelState.setProc, hNe]
  -- the rollback is the last thing the call does to memory
  have hPool : s'.kernel.pool = s.kernel.undoFork child segment := by
    rw [hEq]
    rfl
  constructor
  · exact hRun.ownSteps hOwned
  · intro frame hf
    rw [hPool, h.undo_count hSegment hNone hUndoes hCurrent hf, h.count_eq hf]
  · intro frame hFrame
    rw [hPool]
    exact h.undo_mem hSegment hUndoes hCurrent hFrame
  · intro c hc
    obtain rfl := Option.some.inj (hChild.symm.trans hc)
    rw [hEq]
    have hNe : child ≠ s.kernel.current := h.current.symm
    simp [KernelState.forkFail, KernelState.setSelf, KernelState.setProc, hNe]
  · apply h.parent.trans
    · apply leftAlone_of_mem
      · rw [hParent]
      · rw [hPool]
        apply h.undo_mem hSegment hUndoes hCurrent
        exact h.not_obtained (h.owned.stack p h.live.1) (.inl rfl)
      · intro m hm hPage
        rw [hPool]
        apply h.undo_mem hSegment hUndoes hCurrent
        exact h.not_obtained hPage (.inr ⟨m, hm, rfl⟩)
    · exact inTable_inFront

/-- The condition is that the rollback undoes the call. -/
theorem undoes_iff (h : Forking p s₀ child ts segment none s) (hSegment : segment < pageTableSize)
    (hTask : s.kernel.self.task = .fork child segment (s₀.tableOf p)) :
    s.RollsBack ↔ s.kernel.UndoesFork child segment := by
  have hCase : (if segment = 0 then
      ∀ n, pageTableSize ≤ n → n < 256 → ¬ Usable (s.tableOf child n)
      else s₀.tableOf p 0 = frameUnused) ↔ s.kernel.UndoesFork child segment := by
    unfold KernelState.UndoesFork
    by_cases hZero : segment = 0
    · rw [if_pos hZero, if_pos hZero]
      rfl
    · rw [if_neg hZero, if_neg hZero]
      exact (h.mapped 0 (Nat.pos_of_ne_zero hZero)).symm
  rw [← hCase]
  constructor
  · intro hRolls
    exact (hRolls child segment _ hTask).2
  · intro hUndoes c n table hc
    rw [hTask] at hc
    obtain ⟨rfl, rfl, rfl⟩ := Task.fork.inj hc
    exact ⟨hSegment, hUndoes⟩

/-- A rollback that leaves no trace on the free stack undoes the call. -/
theorem undoes_of_returned (h : Forking p s₀ child ts segment none s)
    (hSegment : segment < pageTableSize) (hNone : s.kernel.pool.available = 0)
    (hReturned : ∀ frame, Usable frame →
      (s.kernel.undoFork child segment).free.count frame =
        s.kernel.pool.free.count frame + (obtained p ts).count frame) :
    s.kernel.UndoesFork child segment := by
  have hPool : s.kernel.pool.kalloc.2.entry = s.kernel.pool.entry := Pool.kalloc_entry
  obtain ⟨-, -, hEmpty⟩ := h.owned.forking p child segment h.task.forking
  unfold KernelState.UndoesFork
  split
  · next hZero =>
    -- a frame behind the table would be freed as well
    subst hZero
    intro n hLow hHigh hUsable
    rw [← hPool] at hUsable
    obtain ⟨frame, hf, hLess⟩ := Pool.rollbackLoop_frees 255 ⟨n, by unfold pageTableSize at hLow; omega,
      by omega, hUsable⟩
    have hFirst : s.kernel.pool.kalloc.2.freeEntry (s.kernel.procs child).kernelFrame 0 =
        s.kernel.pool.kalloc.2 := by
      apply Pool.freeEntry_of_not_usable
      rw [hPool, hEmpty 0 le_rfl hSegment]
      exact fun hUnused => hUnused.2 rfl
    have hRolled : (s.kernel.pool.kalloc.2.forkRollback (s.kernel.procs child).kernelFrame 0) =
        s.kernel.pool.kalloc.2.rollbackLoop (s.kernel.procs child).kernelFrame 255 := by
      rw [Pool.forkRollback, if_pos rfl, hFirst]
    have hStack : (s.kernel.undoFork child 0).free.count frame = _ := Pool.kfree_count _ hf
    have hKept := kalloc_failed hNone hf
    have hFrames := h.frames frame hf
    have hUnmapped : mappings (s.tableOf child) frame 0 pageTableSize = 0 := by
      apply mappings_eq_zero
      intro m hm hm'
      unfold ProcKernel.tableOf
      rw [hEmpty m hm hm']
      exact hf.2.symm
    rw [hRolled] at hStack
    simp only [reduceCtorEq, if_false] at hFrames
    have hCount := hReturned frame hf
    omega
  · next hPositive =>
    -- the frame of segment 0 stays behind
    by_contra hMapped
    have hUsable := h.usable 0 (by omega) hMapped
    have hOwns : 0 < s.kernel.pool.places (s.kernel.procs child) (s.tableOf child 0) := by
      have hPos : 0 < mappings (s.tableOf child) (s.tableOf child 0) 0 pageTableSize :=
        mappings_pos le_rfl (by omega) rfl
      rw [h.places_child]
      omega
    have hOne := (h.owned.alone hUsable hOwns).2.1
    rw [h.places_child] at hOne
    have hOwn : ∀ m, 1 ≤ m → m ≤ segment →
        s.kernel.pool.kalloc.2.entry (s.kernel.procs child).kernelFrame m ≠
          (s.kernel.procs child).kernelFrame := by
      intro m _ hm
      rw [hPool]
      exact h.owned.entry_ne_stack h.live_child.1 h.live_child.2 h.live_child.1 (by omega)
    have hFreed := Pool.rollbackLoop_freed s.kernel.pool.kalloc.2 (s.kernel.procs child).kernelFrame
      segment hOwn
    have hRolled : (s.kernel.pool.kalloc.2.forkRollback (s.kernel.procs child).kernelFrame segment) =
        s.kernel.pool.kalloc.2.rollbackLoop (s.kernel.procs child).kernelFrame segment := by
      rw [Pool.forkRollback, if_neg hPositive]
    have hStack : (s.kernel.undoFork child segment).free.count (s.tableOf child 0) = _ :=
      Pool.kfree_count _ hUsable
    have hTable := hFreed.count _ hUsable
    have hKept := kalloc_failed hNone hUsable
    have hSplit : mappings (s.tableOf child) (s.tableOf child 0) 0 1 + _ = _ :=
      mappings_split (by omega : 0 ≤ 1) (by omega : 1 ≤ segment + 1)
    have hWhole : mappings (s.tableOf child) (s.tableOf child 0) 0 (segment + 1) + _ = _ :=
      mappings_split (by omega) (by omega : segment + 1 ≤ pageTableSize)
    have hFirst : 0 < mappings (s.tableOf child) (s.tableOf child 0) 0 1 :=
      mappings_pos le_rfl Nat.one_pos rfl
    have hFrames := h.frames _ hUsable
    have hCount := hReturned _ hUsable
    rw [hRolled] at hStack
    rw [hPool] at hTable
    unfold ProcKernel.tableOf at *
    simp only [reduceCtorEq, if_false] at hFrames
    omega

end Forking

/-! ## §5 The claim of `sys_fork` -/

/-- `proc_alloc` that finds no slot or no frame leaves no trace. -/
theorem fork_noTrace (hOwned : s₀.kernel.Owned) (hCurrent : s₀.kernel.current = p)
    (hStep : s₀.perform address .fork = some s) (hResult : s₀.forkResult .fork ≠ none) :
    NoTrace p s₀ [] ⟨s₀, .fork, s⟩ := by
  obtain ⟨⟨hRunning, -⟩, hStart⟩ := Option.ite_none_right_eq_some.mp hStep
  have hState : (s₀.kernel.procs p).state = .running := hCurrent ▸ hOwned.current hRunning
  unfold ProcKernel.forkResult at hResult
  have hEither : s₀.kernel.firstUnused = none ∨ s₀.kernel.pool.kalloc.1 = frameUnused := by
    by_contra hNot
    rw [if_neg hNot] at hResult
    exact hResult rfl
  -- the slot is free, and no memory is written
  have hAfter : (∀ frame, Usable frame →
        s.kernel.pool.free.count frame = s₀.kernel.pool.free.count frame) ∧
      s.kernel.pool.mem = s₀.kernel.pool.mem ∧
      s.kernel.procs p = s₀.kernel.procs p ∧
      ∀ child, s₀.kernel.firstUnused = some child → (s.kernel.procs child).state = .unused := by
    unfold ProcKernel.forkStart at hStart
    cases hFound : s₀.kernel.firstUnused with
    | none =>
      rw [hFound] at hStart
      obtain rfl := Option.some.inj hStart
      exact ⟨fun _ _ => rfl, rfl, rfl, nofun⟩
    | some child =>
      have hFrame : s₀.kernel.pool.kalloc.1 = frameUnused := by
        rcases hEither with hNone | hFrame
        · rw [hFound] at hNone
          cases hNone
        · exact hFrame
      rw [hFound] at hStart
      dsimp only at hStart
      rw [if_pos hFrame] at hStart
      obtain rfl := Option.some.inj hStart
      have hUnused := KernelState.firstUnused_unused hFound
      have hNe : p ≠ child := by
        rintro rfl
        rw [hState] at hUnused
        cases hUnused
      rw [KernelState.forkInto_none hFrame]
      refine ⟨fun frame hf => ?_, Pool.kalloc_mem, ?_, fun c hc => ?_⟩
      · exact kalloc_failed (Pool.kalloc_eq_unused_iff.mp hFrame) hf
      · exact Function.update_of_ne hNe _ _
      · obtain rfl := Option.some.inj hc
        simp [KernelState.setProc, hUnused]
  obtain ⟨hFree, hMem, hParent, hSlot⟩ := hAfter
  constructor
  · intro u hu
    cases hu
  · intro frame hf
    rw [hFree frame hf]
    rfl
  · intro frame _
    rw [hMem]
  · exact hSlot
  · apply leftAlone_of_mem
    · rw [hParent]
    · rw [hMem]
    · intro m _ _
      rw [hMem]

/-- **A failed `sys_fork`**: for every parent, every point at which memory runs out and everything
    that happens at the yields, a call that returns -1 leaves no trace exactly if its rollback
    undoes it. -/
theorem fork_failure_iff {t : ProcStep} (hOwned : s₀.kernel.Owned)
    (h : ForkReturns address p s₀ ts t minusOne) : NoTrace p s₀ ts t ↔ t.before.RollsBack := by
  generalize hw : minusOne = w at h
  cases h with
  | atOnce hCurrent hStep hResult =>
    apply iff_of_true
    · apply fork_noTrace hOwned hCurrent hStep
      rw [hResult]
      exact Option.some_ne_none w
    · obtain ⟨⟨-, hUser⟩, -⟩ := Option.ite_none_right_eq_some.mp hStep
      intro c n table hTask
      rw [hTask] at hUser
      cases hUser
  | @later ts s s' _ hRun hCurrent hStep hResult =>
    obtain ⟨child, segment, held, hChild, hForking⟩ := hRun.forking hOwned
    have hEnds := hForking.ends hCurrent hStep hResult
    have hTask := hForking.self_task hCurrent
    generalize hEq : s'.kernel = k at hEnds
    cases hEnds with
    | @publish n hSelf hEnd =>
      -- the -1 is the pid of a child
      apply iff_of_false
      · intro hNoTrace
        have hSlot := hNoTrace.slot child hChild
        dsimp only at hSlot
        rw [hEq] at hSlot
        have hNe : child ≠ s.kernel.current := hForking.current.symm
        simp [KernelState.forkPublish, KernelState.setSelf, KernelState.setProc, hNe] at hSlot
      · intro hRolls
        have hLess := (hRolls child n _ hSelf).1
        omega
    | @fail n hSelf hSegment hMapped hNone =>
      rw [hSelf] at hTask
      cases hTask with
      | ahead =>
        rw [hForking.undoes_iff hSegment hSelf]
        constructor
        · intro hNoTrace
          apply hForking.undoes_of_returned hSegment hNone
          intro frame hf
          have hReturned := hNoTrace.returned frame hf
          dsimp only at hReturned
          rw [hEq] at hReturned
          rw [hForking.count_eq hf]
          exact hReturned
        · intro hUndoes
          exact hForking.fail_noTrace hOwned hRun hChild hCurrent hSegment hNone hUndoes hEq

end Fails

/-- "init" with four pages calls `sys_fork` when two frames are left. -/
theorem fork_failure_init : ∃ s₀ ts t,
    ForkReturns (fun _ => 0) KernelState.initSlot s₀ ts t minusOne ∧
      (NoTrace KernelState.initSlot s₀ ts t ↔ t.before.RollsBack) := by
  obtain ⟨k, hInit⟩ := KernelState.InUser.clones (m := 43) KernelState.inUser_start (by decide)
  obtain ⟨child, ts, s, hTurn, hAvailable, hMapped⟩ :=
    @inUser_turn (fun _ => 0) k 43 1 hInit (by decide) 100 (by decide)
  obtain ⟨ts', t, hReturns, -⟩ := hTurn.returns hInit.serving.owned
  rw [hMapped, hAvailable, if_neg (by decide), hInit.current] at hReturns
  exact ⟨_, ts', t, hReturns, fork_failure_iff hInit.serving.owned hReturns⟩

end Xv6502.Kernel
