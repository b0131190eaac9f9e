import Xv6502.Kernel.Bystanders
import Xv6502.Kernel.ForkSteps

/-!
# Address Spaces

A page table of a process maps nothing of the kernel: its entries are empty or name a frame that
`kalloc` has handed out, and every such frame is in one place only. So in every run that takes none
of the two rollbacks that go wrong, no process reaches the kernel's own frames, a kernel stack, a
buffer, a free frame or a page of another process through its page table
(`address_spaces_private`).
-/

namespace Xv6502.Kernel

open Xv6502.Emulator
open Xv6502.Lib

/-! ## §1 Page tables without a frame of the kernel -/

/-- The frame is none of those in which the kernel lies. -/
def Handed (frame : Frame) : Prop := pageTableSize ≤ frame.toNat

namespace Pool

variable {pool : Pool}

theorem handed_unused : Handed frameUnused := by
  unfold Handed
  decide

/-- What `kalloc` returns is none of the kernel's own frames. -/
theorem kalloc_handed (h : ∀ frame ∈ pool.free, Handed frame) :
    Handed pool.kalloc.1 := by
  by_cases hNone : pool.kalloc.1 = frameUnused
  · rw [hNone]
    exact handed_unused
  · exact h _ (kalloc_mem_free hNone)

theorem growLoop_handed {table table' : Nat → Frame} {old segment n : Nat} {pool' : Pool}
    (hFree : ∀ frame ∈ pool.free, Handed frame)
    (hTable : ∀ s, s < pageTableSize → Handed (table s))
    (h : pool.growLoop table old segment n = (some table', pool')) :
    ∀ s, s < pageTableSize → Handed (table' s) := by
  induction n generalizing pool table segment with
  | zero =>
    cases h
    exact hTable
  | succ n ih =>
    unfold growLoop at h
    split at h
    · by_cases hNone : pool.kalloc.1 = frameUnused
      · simp only [hNone, if_true] at h
        cases h
      · simp only [hNone, if_false] at h
        refine ih (fun frame hMem => hFree frame (kalloc_free_subset hMem)) ?_ h
        intro s hs
        -- a mapped segment was handed out before, and the new one has just been
        by_cases hSegment : s = segment
        · subst hSegment
          rw [Function.update_self]
          exact kalloc_handed hFree
        · rw [Function.update_of_ne hSegment]
          exact hTable s hs
    · exact ih hFree hTable h

theorem freeDown_handed {table : Nat → Frame} (low n : Nat)
    (hTable : ∀ s, s < pageTableSize → Handed (table s)) :
    ∀ s, s < pageTableSize → Handed ((pool.freeDown table low n).1 s) := by
  intro s hs
  rw [freeDown_table]
  split
  · exact handed_unused
  · exact hTable s hs

end Pool

namespace KernelState

/-- No page table of a process that lives, and none that is being built, maps a frame of the
    kernel, and what `sys_fork` holds is a page. -/
structure Tabled (k : KernelState) : Prop where
  entries : ∀ p, k.Live p → ∀ s, s < pageTableSize →
    Handed (k.pool.entry (k.procs p).kernelFrame s)
  held : ∀ p frame, (k.procs p).task.held = some frame → Usable frame

section Steps

variable {k k' : KernelState}

/-- A step that brings no process to life and changes no entry. -/
theorem Tabled.congr (h : Tabled k)
    (hEntries : ∀ p, k'.Live p → k.Live p ∧ ∀ s, s < pageTableSize →
      k'.pool.entry (k'.procs p).kernelFrame s = k.pool.entry (k.procs p).kernelFrame s)
    (hHeld : ∀ p frame, (k'.procs p).task.held = some frame →
      (k.procs p).task.held = some frame) : Tabled k' where
  entries p hp s hs := by
    obtain ⟨hLive, hSame⟩ := hEntries p hp
    rw [hSame s hs]
    exact h.entries p hLive s hs
  held p frame hSome := h.held p frame (hHeld p frame hSome)

/-- A change of the entry of one process, which lives already. -/
theorem Tabled.setProc (h : Tabled k) {p : Slot} {f : ProcEntry → ProcEntry}
    (hFrame : (f (k.procs p)).kernelFrame = (k.procs p).kernelFrame)
    (hLive : (f (k.procs p)).state ≠ .unused → (f (k.procs p)).state ≠ .zombie → k.Live p)
    (hHeld : ∀ frame, (f (k.procs p)).task.held = some frame → Usable frame) :
    Tabled (k.setProc p f) where
  entries q hq s hs := by
    by_cases hqp : q = p
    · subst hqp
      simp only [KernelState.setProc, Live, Function.update_self] at hq ⊢
      rw [hFrame]
      exact h.entries q (hLive hq.1 hq.2) s hs
    · simp only [KernelState.setProc, Live, Function.update_of_ne hqp] at hq ⊢
      exact h.entries q hq s hs
  held q frame hSome := by
    by_cases hqp : q = p
    · subst hqp
      simp only [KernelState.setProc, Function.update_self] at hSome
      exact hHeld frame hSome
    · simp only [KernelState.setProc, Function.update_of_ne hqp] at hSome
      exact h.held q frame hSome

/-- A change of the memory that no page table shows. -/
theorem Tabled.repool (h : Tabled k) {pool : Pool}
    (hTable : ∀ p, k.Live p → ∀ s, s < pageTableSize →
      pool.entry (k.procs p).kernelFrame s = k.pool.entry (k.procs p).kernelFrame s) :
    Tabled { k with pool := pool } :=
  h.congr (fun p hp => ⟨hp, hTable p hp⟩) fun _ _ hSome => hSome

theorem live_current (hOwned : Owned k) (hRunning : k.running = true) : k.Live k.current := by
  have hState : (k.procs k.current).state = .running := hOwned.current hRunning
  exact ⟨by simp [hState], by simp [hState]⟩

theorem Tabled.suspend (h : Tabled k) (hOwned : Owned k) (hRunning : k.running = true)
    (state : ProcState) : Tabled (k.suspend state) := by
  have hSelf := h.setProc (p := k.current) (f := fun e => { e with state := state }) rfl
    (fun _ _ => live_current hOwned hRunning) fun frame hSome => h.held k.current frame hSome
  exact hSelf.congr (fun p hp => ⟨hp, fun _ _ => rfl⟩) fun _ _ hSome => hSome

/-- The current process goes on in a task that holds no page. -/
theorem Tabled.retask (h : Tabled k) (task : Task) (hNone : task.held = none) :
    Tabled (k.setSelf fun e => { e with task := task }) :=
  h.setProc rfl (fun hUsed hZombie => ⟨hUsed, hZombie⟩)
    fun _ hSome => absurd (hNone.symm.trans hSome) (Option.some_ne_none _).symm

/-- `sys_sbrk` and `sys_fork` take frames from the free stack. -/
theorem Owned.kalloc_handed (hOwned : Owned k) : Handed k.pool.kalloc.1 :=
  Pool.kalloc_handed hOwned.free

/-! ## §2 `sys_sbrk` -/

/-- The table that `sys_sbrk` commits to has no frame of the kernel. -/
theorem Tabled.commit (h : Tabled k) (hOwned : Owned k) (hRunning : k.running = true) (top : Word)
    {table : Nat → Frame} {pool : Pool} (hNew : ∀ s, s < pageTableSize → Handed (table s))
    (hMem : ∀ q, k.Live q → pool.mem (k.procs q).kernelFrame = k.pool.mem (k.procs q).kernelFrame) :
    Tabled { k.setSelf fun e => { e with top := top } with
      pool := pool.setTable k.self.kernelFrame table } := by
  have hSelf := live_current hOwned hRunning
  have hTop : Tabled (k.setSelf fun e => { e with top := top }) :=
    h.setProc rfl (fun _ _ => hSelf) fun frame hSome => h.held k.current frame hSome
  refine ⟨fun q hq s hs => ?_, fun q frame hSome => hTop.held q frame hSome⟩
  by_cases hqc : q = k.current
  · subst hqc
    simp only [setSelf, KernelState.setProc, Function.update_self]
    exact (Pool.entry_setTable hs).symm ▸ hNew s hs
  · simp only [setSelf, KernelState.setProc, Live, Function.update_of_ne hqc] at hq ⊢
    have hNe : (k.procs q).kernelFrame ≠ k.self.kernelFrame := hOwned.stack_ne hq.1 hSelf.1 hqc
    rw [Pool.entry, Pool.setTable_mem_of_ne hNe, hMem q hq]
    exact h.entries q hq s hs

theorem Tabled.sbrk (h : Tabled k) (hOwned : Owned k) (hRunning : k.running = true)
    (increment : Word) : Tabled (k.sbrk increment) := by
  have hSelf := live_current hOwned hRunning
  have hOld := segmentBelow_lt k.self.top
  have hNewTop := segmentBelow_lt (k.self.top + increment)
  have hTable : ∀ s, s < pageTableSize → Handed (k.pool.entry k.self.kernelFrame s) :=
    fun s hs => h.entries k.current hSelf s hs
  -- a kernel stack is neither free nor mapped
  have hPages : ∀ q, k.Live q → ∀ s, s < pageTableSize →
      k.pool.entry k.self.kernelFrame s ≠ (k.procs q).kernelFrame :=
    fun q hq s hs => hOwned.entry_ne_stack hSelf.1 hSelf.2 hq.1 hs
  unfold KernelState.sbrk
  dsimp only
  split
  · rcases hLoop : k.pool.growLoop (k.pool.entry k.self.kernelFrame) (segmentBelow k.self.top)
        (segmentBelow k.self.top)
        (segmentBelow (k.self.top + increment) + 1 - segmentBelow k.self.top) with ⟨- | table, pool⟩
    · refine h.repool fun q hq s _ => ?_
      exact congrFun (Pool.growLoop_mem hLoop (hOwned.stack q hq.1) (by omega)
        (hOwned.stack_not_free hq.1) (hPages q hq)) _
    · refine h.commit hOwned hRunning _ (Pool.growLoop_handed hOwned.free hTable hLoop) ?_
      exact fun q hq => Pool.growLoop_mem hLoop (hOwned.stack q hq.1) (by omega)
        (hOwned.stack_not_free hq.1) (hPages q hq)
  · split
    · have hFreed := Pool.freeDown_freed k.pool (k.pool.entry k.self.kernelFrame)
        (segmentBelow (k.self.top + increment)) (segmentBelow k.self.top)
      refine h.commit hOwned hRunning _ (Pool.freeDown_handed _ _ hTable) fun q hq => ?_
      exact hFreed.mem _ (by simp) fun s _ hs => hPages q hq s (by omega)
    · exact h.commit hOwned hRunning _ hTable fun _ _ => rfl

/-! ## §3 `sys_fork`, `sys_exit` and `sys_wait` -/

/-- The child of `sys_fork` begins with an empty page table. -/
theorem Tabled.forkStart (h : Tabled k) (hOwned : Owned k) (hRunning : k.running = true) :
    Tabled k.forkStart := by
  have hSelf := live_current hOwned hRunning
  unfold KernelState.forkStart
  split
  · exact h
  · next child hFound =>
    have hUnused : (k.procs child).state = .unused := by
      simpa using List.find?_some hFound
    have hNe : child ≠ k.current := by
      rintro rfl
      exact hSelf.1 hUnused
    by_cases hFrame : k.pool.kalloc.1 = frameUnused
    · rw [forkInto_none hFrame]
      refine h.congr (fun p hp => ?_) fun p frame hSome => ?_
      · have hOther : p ≠ child := by
          rintro rfl
          simp [Live, KernelState.setProc, hUnused] at hp
        simp only [Live, KernelState.setProc, Function.update_of_ne hOther] at hp ⊢
        exact ⟨hp, fun s _ => congrFun (congrFun Pool.kalloc_mem _) _⟩
      · by_cases hOther : p = child
        · subst hOther
          simpa [KernelState.setProc] using hSome
        · simpa [KernelState.setProc, hOther] using hSome
    · have hPool := forkInto_pool hFrame hNe
      have hChild := forkInto_child hFrame hNe
      have hParent := forkInto_self hFrame hNe
      have hFree := Pool.kalloc_mem_free hFrame
      -- the frame of the new kernel stack was nobody's
      have hMem : ∀ p, k.Live p → ∀ s, (k.forkInto child).pool.entry (k.procs p).kernelFrame s =
          k.pool.entry (k.procs p).kernelFrame s := by
        intro p hp s
        have hStack : (k.procs p).kernelFrame ≠ k.pool.kalloc.1 := by
          intro hEq
          exact hOwned.stack_not_free hp.1 (hEq ▸ hFree)
        rw [hPool, Pool.entry, Pool.setTable_mem_of_ne hStack]
        simp [Pool.copyFrame, Function.update_of_ne hStack, Pool.entry]
      constructor
      · intro p hp s hs
        by_cases hpChild : p = child
        · subst hpChild
          rw [hChild, hPool, Pool.entry_setTable hs]
          exact Pool.handed_unused
        · by_cases hpSelf : p = k.current
          · subst hpSelf
            rw [hParent, hMem k.current hSelf]
            exact h.entries k.current hSelf s hs
          · have hSame := forkInto_other hFrame hpChild hpSelf
            rw [Live, hSame] at hp
            rw [hSame, hMem p hp]
            exact h.entries p hp s hs
      · intro p frame hSome
        by_cases hpChild : p = child
        · subst hpChild
          rw [hChild] at hSome
          cases hSome
        · by_cases hpSelf : p = k.current
          · subst hpSelf
            rw [hParent] at hSome
            cases hSome
          · rw [forkInto_other hFrame hpChild hpSelf] at hSome
            exact h.held p frame hSome

/-- A slot is given back, and the memory of its process is freed. -/
theorem Tabled.release (h : Tabled k) (p : Slot) {pool : Pool}
    (hMem : ∀ q, q ≠ p → k.Live q →
      pool.mem (k.procs q).kernelFrame = k.pool.mem (k.procs q).kernelFrame) :
    Tabled ({ k with pool := pool }.setProc p fun e => { e with state := .unused }) := by
  have hUnused : Tabled (k.setProc p fun e => { e with state := .unused }) :=
    h.setProc rfl (fun hUsed => absurd rfl hUsed) fun frame hSome => h.held p frame hSome
  refine hUnused.repool fun q hq s _ => ?_
  have hqp : q ≠ p := by
    rintro rfl
    simp [Live, KernelState.setProc] at hq
  simp only [KernelState.setProc, Live, Function.update_of_ne hqp] at hq ⊢
  exact congrFun (hMem q hqp hq) _

/-- A turn of the page loop of `sys_fork`. -/
theorem Tabled.forkPage (h : Tabled k) (hOwned : Owned k) {child : Slot}
    {segment : Nat} {table : Nat → Frame} (hTask : k.self.task = .fork child segment table)
    (hClean : segment < pageTableSize → table segment ≠ frameUnused → k.pool.available = 0 →
      k.UndoesFork child segment) : Tabled (k.forkPage child segment table) := by
  have hForking : k.self.task.forking = some (child, segment) := by rw [hTask]; rfl
  have hBuilding := (hOwned.forking k.current child segment hForking).2.1
  have hChildLive : k.Live child := ⟨by simp [hBuilding], by simp [hBuilding]⟩
  have hTurn := forkPage_turn k child segment table
  generalize k.forkPage child segment table = k' at hTurn
  -- the child comes to life only behind the whole loop, with a complete table
  cases hTurn with
  | publish _ =>
    have hNew : Tabled (k.setProc child fun e => { e with state := .new }) :=
      h.setProc rfl (fun _ _ => hChildLive) fun frame hSome => h.held child frame hSome
    exact hNew.retask .user rfl
  | skip _ _ => exact h.retask _ rfl
  | fail hSegment hMapped hNone =>
    have hFreed := hOwned.rollback_freed hForking hSegment (hClean hSegment hMapped hNone)
    refine (h.release child fun q hq hLive => ?_).retask .user rfl
    -- the rollback frees the child's kernel stack, which is nobody else's
    have hStack : (k.procs q).kernelFrame ≠ (k.procs child).kernelFrame :=
      hOwned.stack_ne hLive.1 hChildLive.1 hq
    rw [undoFork, Pool.kfree_mem_of_ne hStack, hFreed.mem _ (by simp) fun s _ hs =>
      hOwned.entry_ne_stack hChildLive.1 hChildLive.2 hLive.1 hs, Pool.kalloc_mem]
  | hold hSegment _ hSome =>
    have hHolds : Tabled (k.setSelf fun e =>
        { e with task := .forkHolding child ⟨segment, hSegment⟩ table k.pool.kalloc.1 }) := by
      refine h.setProc rfl (fun hUsed hZombie => ⟨hUsed, hZombie⟩) fun frame hHeld => ?_
      obtain rfl : k.pool.kalloc.1 = frame := Option.some.inj hHeld
      exact ⟨hOwned.kalloc_handed, hSome⟩
    exact hHolds.repool fun q _ s _ => congrFun (congrFun Pool.kalloc_mem _) _

/-- The page that `sys_fork` has got is stored in the page table of the child. -/
theorem Tabled.forkStore (h : Tabled k) (hOwned : Owned k) (hRunning : k.running = true)
    {child : Slot} {segment : Fin pageTableSize} {table : Nat → Frame} {frame : Frame}
    (hTask : k.self.task = .forkHolding child segment table frame) :
    Tabled (k.forkStore child segment table frame) := by
  have hSelf := live_current hOwned hRunning
  have hHeld : (k.procs k.current).task.held = some frame := by
    show k.self.task.held = _
    rw [hTask]
    rfl
  have hForking : k.self.task.forking = some (child, segment.val) := by rw [hTask]; rfl
  have hBuilding := (hOwned.forking k.current child segment hForking).2.1
  have hChildUsed : (k.procs child).state ≠ .unused := by simp [hBuilding]
  let pool := (k.pool.setEntry (k.procs child).kernelFrame segment frame).copyFrame frame
    (table segment)
  -- the page is no kernel stack, so that only the entry of the child changes
  have hEntry : ∀ q, k.Live q → ∀ s, pool.entry (k.procs q).kernelFrame s =
      if q = child ∧ s = segment then frame else k.pool.entry (k.procs q).kernelFrame s := by
    intro q hq s
    have hPage : (k.procs q).kernelFrame ≠ frame :=
      (hOwned.held_ne_stack hSelf.1 hSelf.2 hq.1 hHeld).symm
    have hCopy : pool.entry (k.procs q).kernelFrame s =
        (k.pool.setEntry (k.procs child).kernelFrame segment frame).entry
          (k.procs q).kernelFrame s := by
      simp only [pool, Pool.copyFrame, Pool.entry, Function.update_of_ne hPage]
    rw [hCopy]
    by_cases hqc : q = child
    · subst hqc
      rw [Pool.entry_setEntry]
      by_cases hs : s = segment
      · rw [if_pos ⟨rfl, hs⟩, hs, Function.update_self]
      · rw [if_neg fun hBoth => hs hBoth.2, Function.update_of_ne hs]
    · rw [if_neg fun hBoth => hqc hBoth.1, Pool.entry,
        Pool.setEntry_mem_of_ne (hOwned.stack_ne hq.1 hChildUsed hqc), Pool.entry]
  have hPool : Tabled { k with pool := pool } := by
    refine ⟨fun q hq s hs => ?_, h.held⟩
    show Handed (pool.entry (k.procs q).kernelFrame s)
    rw [hEntry q hq s]
    split
    · exact (h.held k.current frame hHeld).1
    · exact h.entries q hq s hs
  have hTasked := hPool.retask (.fork child (segment + 1) table) rfl
  have hReady := hTasked.setProc (p := k.current) (f := fun e => { e with state := .ready }) rfl
    (fun _ _ => by simpa [Live, setSelf, KernelState.setProc] using hSelf)
    fun frame hSome => hTasked.held k.current frame hSome
  exact hReady.congr (fun p hp => ⟨hp, fun _ _ => rfl⟩) fun _ _ hSome => hSome

/-- `sys_exit` leaves a zombie, whose page table nobody uses. -/
theorem Tabled.exit (h : Tabled k) (hOwned : Owned k) (hRunning : k.running = true) :
    Tabled k.exit := by
  have hSelf := live_current hOwned hRunning
  have hEntry : ∀ p, p ≠ k.current →
      (k.exit.procs p).kernelFrame = (k.procs p).kernelFrame ∧
        (k.exit.procs p).state = (k.procs p).state ∧ (k.exit.procs p).task = (k.procs p).task := by
    intro p hp
    simp only [KernelState.exit, KernelState.suspend, setSelf, KernelState.setProc,
      Function.update_of_ne hp]
    split <;> exact ⟨rfl, rfl, rfl⟩
  have hOwn : ∀ s, 0 ≤ s → s < 0 + pageTableSize →
      k.pool.entry k.self.kernelFrame s ≠ k.self.kernelFrame :=
    fun s _ hs => hOwned.entry_ne_stack hSelf.1 hSelf.2 hSelf.1 (by omega)
  -- what is freed are pages and never another process's page table
  have hFreed := Pool.exitLoop_freed k.pool k.self.kernelFrame 0 pageTableSize hOwn
  have hPool : k.exit.pool = k.pool.exitLoop k.self.kernelFrame 0 pageTableSize := by
    simp only [KernelState.exit, KernelState.suspend, setSelf, KernelState.setProc]
  refine h.congr (fun p hp => ?_) fun p frame hSome => ?_
  · have hpc : p ≠ k.current := by
      rintro rfl
      simp [Live, KernelState.exit, KernelState.suspend, setSelf, KernelState.setProc] at hp
    obtain ⟨hFrame, hState, -⟩ := hEntry p hpc
    rw [Live, hState] at hp
    refine ⟨hp, fun s _ => ?_⟩
    -- one kernel stack has one owner
    have hStack : (k.procs p).kernelFrame ≠ k.self.kernelFrame := hOwned.stack_ne hp.1 hSelf.1 hpc
    rw [hFrame, hPool, Pool.entry, hFreed.mem _ (fun hEq => hStack (Option.some.inj hEq))
      fun s _ hs => hOwned.entry_ne_stack hSelf.1 hSelf.2 hp.1 (by omega), Pool.entry]
  · by_cases hpc : p = k.current
    · subst hpc
      simp only [KernelState.exit, KernelState.suspend, setSelf, KernelState.setProc,
        Function.update_self] at hSome
      split at hSome <;> exact hSome
    · rw [(hEntry p hpc).2.2] at hSome
      exact hSome

/-- `sys_wait` frees the kernel stack of a zombie. -/
theorem Tabled.waitTurn (h : Tabled k) (hOwned : Owned k) (hRunning : k.running = true) :
    Tabled k.waitTurn := by
  unfold KernelState.waitTurn
  split
  · next z hFound =>
    have hZombie := List.find?_some hFound
    simp only [decide_eq_true_eq] at hZombie
    refine (h.release z fun q hq hLive => ?_).retask .user rfl
    exact Pool.kfree_mem_of_ne (hOwned.stack_ne hLive.1 (by simp [hZombie.1]) hq)
  · exact h.suspend hOwned hRunning .sleeping

/-! ## §4 Runs -/

theorem Tabled.act (h : Tabled k) (hOwned : Owned k) (hRunning : k.running = true) {action : Action}
    (hStep : k.act action = some k') (hClean : k.Clean (.act action)) : Tabled k' := by
  have hSelf := live_current hOwned hRunning
  -- a store of the process goes to a page, and the page tables lie in kernel stacks
  have hStore : ∀ {address byte}, k.userStore address byte = some k' → Tabled k' := by
    intro address byte hSome
    obtain ⟨-, ⟨⟩⟩ := Option.ite_none_left_eq_some.mp hSome
    have hSegment : address.toNat / 0x1000 < pageTableSize := by
      have hAddress := address.isLt
      unfold pageTableSize
      omega
    refine h.repool fun q hq s _ => Pool.store_mem_of_ne (.inl ?_)
    exact (hOwned.entry_ne_stack hSelf.1 hSelf.2 hq.1 hSegment).symm
  unfold KernelState.act at hStep
  split at hStep
  · exact hStore hStep
  · exact hStore hStep
  · obtain rfl := Option.some.inj hStep
    exact h.suspend hOwned hRunning _
  · obtain rfl := Option.some.inj hStep
    exact h.suspend hOwned hRunning _
  · obtain rfl := Option.some.inj hStep
    exact h.forkStart hOwned hRunning
  · obtain rfl := Option.some.inj hStep
    exact h.sbrk hOwned hRunning _
  · obtain ⟨-, hSome⟩ := Option.ite_none_left_eq_some.mp hStep
    obtain rfl := Option.some.inj hSome
    exact h.exit hOwned hRunning
  · obtain rfl := Option.some.inj hStep
    exact h.retask .wait rfl
  · next p _ =>
    obtain ⟨-, hSome⟩ := Option.ite_none_left_eq_some.mp hStep
    obtain rfl := Option.some.inj hSome
    unfold KernelState.kill
    split
    · next hAsleep =>
      exact h.setProc rfl (fun _ _ => ⟨by simp [hAsleep], by simp [hAsleep]⟩)
        fun frame hSome => h.held p frame hSome
    · exact h
  · next hTask =>
    obtain rfl := Option.some.inj hStep
    exact h.forkPage hOwned hTask (hClean _ _ _ hTask)
  · next hTask =>
    obtain rfl := Option.some.inj hStep
    exact h.forkStore hOwned hRunning hTask
  · obtain rfl := Option.some.inj hStep
    exact h.waitTurn hOwned hRunning
  · obtain rfl := Option.some.inj hStep
    exact h.retask .user rfl
  · cases hStep

/-- **Step lemma.** -/
theorem Tabled.step (h : Tabled k) (hOwned : Owned k) {e : Occurrence} (hStep : k.Step e k')
    (hClean : k.Clean e) : Tabled k' := by
  unfold Step at hStep
  cases e with
  | dispatch p =>
    obtain ⟨⟨-, hRunnable⟩, hSome⟩ := Option.ite_none_right_eq_some.mp hStep
    obtain rfl := Option.some.inj hSome
    have hLive : k.Live p := by
      constructor <;> (intro hState; rw [hState] at hRunnable; cases hRunnable)
    have hSet : Tabled (k.setProc p fun e => { e with state := .running }) :=
      h.setProc rfl (fun _ _ => hLive) fun frame hSome => h.held p frame hSome
    exact hSet.congr (fun q hq => ⟨hq, fun _ _ => rfl⟩) fun _ _ hSome => hSome
  | wakeup p =>
    obtain ⟨hAsleep, hSome⟩ := Option.ite_none_right_eq_some.mp hStep
    obtain rfl := Option.some.inj hSome
    exact h.setProc rfl (fun _ _ => ⟨by simp [hAsleep], by simp [hAsleep]⟩)
      fun frame hSome => h.held p frame hSome
  | kernelStore p offset byte =>
    obtain ⟨⟨hUsed, hOffset⟩, hSome⟩ := Option.ite_none_right_eq_some.mp hStep
    obtain rfl := Option.some.inj hSome
    -- a store of the kernel outside the page tables
    refine h.repool fun q hq s hs => ?_
    exact Pool.store_mem_of_ne (.inr (by omega))
  | act action =>
    obtain ⟨hRunning, hAct⟩ := Option.ite_none_right_eq_some.mp hStep
    exact h.act hOwned hRunning hAct hClean

/-- At boot there is the page of "init" only. -/
theorem boot_tabled (mem : Frame → Nat → Byte) (top : Word) : Tabled (boot mem top) := by
  constructor
  · intro p hp s hs
    by_cases hInit : p = initSlot
    · rw [hInit, boot_init, boot_entry mem top hs]
      split
      · unfold Handed
        decide
      · exact Pool.handed_unused
    · exact absurd (by rw [boot_procs mem top hInit]) hp.1
  · intro p frame hSome
    by_cases hInit : p = initSlot
    · rw [hInit, boot_init] at hSome
      cases hSome
    · rw [boot_procs mem top hInit] at hSome
      cases hSome

/-- The states that a kernel reaches from boot without one of the rollbacks that go wrong. -/
theorem reachable_tabled {mem : Frame → Nat → Byte} {top : Word} {es : List Occurrence}
    (hRun : Run (Guarded Step Clean) (boot mem top) es k) : Owned k ∧ Tabled k := by
  refine @Run.invariant _ _ _ _ _ _ (fun k => Owned k ∧ Tabled k) ?_ hRun
    ⟨boot_owned mem top, boot_tabled mem top⟩
  rintro k e k' ⟨hOwned, hTabled⟩ ⟨hStep, hClean⟩
  exact ⟨hOwned.step_clean hStep hClean, hTabled.step hOwned hStep hClean⟩

end Steps

/-- What a process reaches through an entry of its page table: a page that it has for itself. -/
structure Private (k : KernelState) (p : Slot) (s : Nat) : Prop where
  usable : Usable (k.pool.entry (k.procs p).kernelFrame s)
  alone : ∀ q s', k.Live q → s' < pageTableSize →
    k.pool.entry (k.procs q).kernelFrame s' = k.pool.entry (k.procs p).kernelFrame s →
    q = p ∧ s' = s
  stack : ∀ q, (k.procs q).state ≠ .unused →
    (k.procs q).kernelFrame ≠ k.pool.entry (k.procs p).kernelFrame s
  free : k.pool.entry (k.procs p).kernelFrame s ∉ k.pool.free
  cache : k.pool.entry (k.procs p).kernelFrame s ∉ k.cache

section Private

variable {k : KernelState} {p : Slot} {s : Nat}

/-- An entry of a page table is one of the places of its frame. -/
theorem places_entry_pos (hp : k.Live p) (hs : s < pageTableSize) :
    0 < k.pool.places (k.procs p) (k.pool.entry (k.procs p).kernelFrame s) := by
  have hMapped := mappings_pos (Nat.zero_le s) hs
    (rfl : k.pool.entry (k.procs p).kernelFrame s = _)
  rw [places_live hp.1 hp.2]
  omega

/-- Two entries with the same frame are two places. -/
theorem mappings_two {table : Nat → Frame} {s s' : Nat} (hLt : s < s') (hs' : s' < pageTableSize)
    (hSame : table s' = table s) : 2 ≤ mappings table (table s) 0 pageTableSize := by
  have hSplit : mappings table (table s) 0 s' + mappings table (table s) s' pageTableSize = _ :=
    mappings_split (Nat.zero_le s') hs'.le
  have hFirst := mappings_pos (Nat.zero_le s) hLt (rfl : table s = _)
  have hSecond := mappings_pos (Nat.le_refl s') hs' hSame
  omega

theorem Owned.private (h : Owned k) (hp : k.Live p) (hs : s < pageTableSize)
    (hUsable : Usable (k.pool.entry (k.procs p).kernelFrame s)) : Private k p s := by
  have hPos := places_entry_pos hp hs
  obtain ⟨hFree, hOne, hAlone⟩ := h.alone hUsable hPos
  refine ⟨hUsable, fun q s' hq hs' hSame => ?_, fun q hq hEq => ?_, ?_, ?_⟩
  -- a second place in another table, or a second one in the same table, would be two places
  · have hqp : q = p := by
      by_contra hNe
      have hOther := places_entry_pos hq hs'
      rw [hSame, hAlone q hNe] at hOther
      omega
    subst hqp
    refine ⟨rfl, ?_⟩
    by_contra hNe
    rw [places_live hp.1 hp.2] at hOne
    rcases Nat.lt_or_gt_of_ne hNe with hLt | hLt
    · have hTwo := mappings_two hLt hs hSame.symm
      rw [hSame] at hTwo
      omega
    · have hTwo := mappings_two hLt hs' hSame
      omega
  · exact h.entry_ne_stack hp.1 hp.2 hq hs hEq.symm
  · exact List.count_eq_zero.mp hFree
  · have hTotal := h.partition _ hUsable
    unfold occurrences at hTotal
    rw [← Finset.add_sum_erase _ _ (Finset.mem_univ p)] at hTotal
    apply List.count_eq_zero.mp
    omega

/-- **Address spaces are private**: in every state that a kernel reaches from boot without one of
    the rollbacks that go wrong, an entry in the page table of a process is empty or names a page
    that this process has for itself, in this one segment. -/
theorem address_spaces_private {mem : Frame → Nat → Byte} {top : Word} {es : List Occurrence}
    (hRun : Run (Guarded Step Clean) (boot mem top) es k) (hp : k.Live p) (hs : s < pageTableSize) :
    k.pool.entry (k.procs p).kernelFrame s = frameUnused ∨ Private k p s := by
  obtain ⟨hOwned, hTabled⟩ := reachable_tabled hRun
  by_cases hUnused : k.pool.entry (k.procs p).kernelFrame s = frameUnused
  · exact .inl hUnused
  · exact .inr (hOwned.private hp hs ⟨hTabled.entries p hp s hs, hUnused⟩)

end Private

/-- "init" grows and forks, and the child has a page for its last segment. -/
theorem address_spaces_private_fork :
    ∃ k, Run (Guarded Step Clean) (boot (fun _ _ => 0) 0x0400)
        (.dispatch initSlot :: .act (.sbrk 0x3000) :: childRuns) k ∧
      k.running = true ∧ k.current = 1 ∧ Private k 1 3 := by
  have hRuns : (performAll performRoomy (firstDispatch.sbrk 0x3000) childRuns).any
      (fun k => k.running && decide (k.current = 1) && decide ((k.procs 1).state = .running) &&
        decide (k.pool.entry (k.procs 1).kernelFrame 3 ≠ frameUnused)) = true := by
    decide +kernel
  obtain ⟨k, hPerform, hLast⟩ := (Option.any_eq_true _ _).mp hRuns
  simp only [Bool.and_eq_true, decide_eq_true_eq] at hLast
  obtain ⟨⟨⟨hRunning, hCurrent⟩, hState⟩, hMapped⟩ := hLast
  have hLive : k.Live 1 := by
    unfold Live
    rw [hState]
    decide
  have hRun : Run (Guarded Step Clean) (boot (fun _ _ => 0) 0x0400)
      (.dispatch initSlot :: .act (.sbrk 0x3000) :: childRuns) k :=
    (roomy_run hPerform).mono fun _ _ _ hStep => ⟨hStep.1, hStep.2.clean⟩
  exact ⟨k, hRun, hRunning, hCurrent,
    (address_spaces_private (p := 1) (s := 3) hRun hLive (by decide)).resolve_left hMapped⟩

end KernelState

end Xv6502.Kernel
