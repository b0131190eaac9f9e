import Xv6502.Kernel.FrameRuns

/-!
# What the Rollback of `sys_fork` Frees

When memory runs out in the page loop, `sys_fork` goes down the child's page table from the segment
it has come to. It undoes what it has done in two cases (`UndoesFork`): the table has no frame for
segment 0, where the loop stops too early; or memory has run out at segment 0 itself and none of
the 240 bytes behind the table, which the loop takes for entries, is the number of a frame. The
ownership of the frames survives such a rollback (`Owned.step_clean`).
-/

namespace Xv6502.Kernel

open Xv6502.Emulator

/-! ## §1 The loop -/

section Loop

variable {pool : Pool} {frame pcb : Frame}

namespace Pool

/-- An entry that is no frame is not freed. -/
theorem freeEntry_of_not_usable {segment : Nat} (h : ¬ Usable (pool.entry pcb segment)) :
    pool.freeEntry pcb segment = pool := by
  unfold freeEntry
  split
  · next hMapped =>
    have hStatic : (pool.entry pcb segment).toNat < pageTableSize := by
      by_contra hHigh
      exact h ⟨Nat.le_of_not_lt hHigh, hMapped⟩
    exact if_pos (.inr hStatic)
  · rfl

theorem freeEntry_eq (segment : Nat) :
    pool.freeEntry pcb segment = pool.kfree (pool.entry pcb segment) := by
  unfold freeEntry
  split
  · rfl
  · next hUnused => exact (if_pos (.inl (not_not.mp hUnused))).symm

theorem freeEntry_count (segment : Nat) (hf : Usable frame) :
    (pool.freeEntry pcb segment).free.count frame =
      pool.free.count frame + if pool.entry pcb segment = frame then 1 else 0 := by
  rw [freeEntry_eq]
  exact kfree_count _ hf

/-- The turns for the segments from `segment` down to 1 free their frames, if none of these is the
    frame that the table lies in. -/
theorem rollbackLoop_freed (pool : Pool) (pcb : Frame) (segment : Nat)
    (hOwn : ∀ s, 1 ≤ s → s ≤ segment → pool.entry pcb s ≠ pcb) :
    Freed (pool.entry pcb) 1 (segment + 1) none pool (pool.rollbackLoop pcb segment) := by
  induction segment generalizing pool with
  | zero => exact Freed.refl _ le_rfl none pool
  | succ segment ih =>
    rw [rollbackLoop, freeEntry_eq]
    -- the table stays as it is
    have hTable : (pool.kfree (pool.entry pcb (segment + 1))).entry pcb = pool.entry pcb := by
      funext s
      exact congrFun (kfree_mem_of_ne (hOwn _ (by omega) le_rfl).symm) _
    have hRest := ih (pool.kfree (pool.entry pcb (segment + 1))) fun s hs hs' => by
      rw [hTable]
      exact hOwn s hs (by omega)
    rw [hTable] at hRest
    constructor
    · intro f hf
      have hTop : mappings (pool.entry pcb) f 1 (segment + 1 + 1) = _ := mappings_succ (by omega)
      rw [hRest.count f hf, kfree_count _ hf, hTop]
      omega
    · intro f hPcb hNot
      have hBelow : ∀ s, 1 ≤ s → s < segment + 1 → pool.entry pcb s ≠ f :=
        fun s hs hs' => hNot s hs (by omega)
      have hFirst : pool.entry pcb (segment + 1) ≠ f := hNot _ (by omega) (by omega)
      rw [hRest.mem f hPcb hBelow, kfree_mem_of_ne hFirst.symm]
    · intro f hMem
      rcases hRest.free f hMem with hFreed | hHigh
      · exact kfree_free hFreed
      · exact .inr hHigh

theorem rollbackLoop_of_not_usable (segment : Nat)
    (h : ∀ s, 1 ≤ s → s ≤ segment → ¬ Usable (pool.entry pcb s)) :
    pool.rollbackLoop pcb segment = pool := by
  induction segment with
  | zero => rfl
  | succ segment ih =>
    rw [rollbackLoop, freeEntry_of_not_usable (h _ (by omega) le_rfl)]
    exact ih fun s hs hs' => h s hs (by omega)

/-- The loop takes no frame from the free stack. -/
theorem count_le_rollbackLoop (pool : Pool) (pcb : Frame) (segment : Nat) (hf : Usable frame) :
    pool.free.count frame ≤ (pool.rollbackLoop pcb segment).free.count frame := by
  induction segment generalizing pool with
  | zero => exact le_rfl
  | succ segment ih =>
    have hTurn := @freeEntry_count pool frame pcb (segment + 1) hf
    have hRest := ih (pool.freeEntry pcb (segment + 1))
    rw [rollbackLoop]
    omega

/-- If one of the bytes that the loop comes to is the number of a frame, some frame is freed. -/
theorem rollbackLoop_frees (segment : Nat)
    (h : ∃ s, 1 ≤ s ∧ s ≤ segment ∧ Usable (pool.entry pcb s)) :
    ∃ f, Usable f ∧ pool.free.count f < (pool.rollbackLoop pcb segment).free.count f := by
  induction segment generalizing pool with
  | zero =>
    obtain ⟨s, hs, hs', -⟩ := h
    omega
  | succ segment ih =>
    rw [rollbackLoop]
    by_cases hFirst : Usable (pool.entry pcb (segment + 1))
    · refine ⟨_, hFirst, ?_⟩
      have hTurn := @freeEntry_count pool _ pcb (segment + 1) hFirst
      have hRest := count_le_rollbackLoop (pool.freeEntry pcb (segment + 1)) pcb segment hFirst
      rw [if_pos rfl] at hTurn
      omega
    · -- the loop has not come to the byte yet
      rw [freeEntry_of_not_usable hFirst]
      apply ih
      obtain ⟨s, hs, hs', hUsable⟩ := h
      have hNe : s ≠ segment + 1 := by
        rintro rfl
        exact hFirst hUsable
      exact ⟨s, hs, by omega, hUsable⟩

end Pool

end Loop

/-! ## §2 A rollback that undoes the call -/

namespace KernelState

/-- The rollback from a segment frees what the page loop has allocated for the child. -/
def UndoesFork (k : KernelState) (child : Slot) (segment : Nat) : Prop :=
  if segment = 0 then
    ∀ s, pageTableSize ≤ s → s < 256 → ¬ Usable (k.pool.entry (k.procs child).kernelFrame s)
  else k.pool.entry (k.procs child).kernelFrame 0 = frameUnused

/-- The memory behind the rollback and `proc_free`. -/
def undoFork (k : KernelState) (child : Slot) (segment : Nat) : Pool :=
  (k.pool.kalloc.2.forkRollback (k.procs child).kernelFrame segment).kfree
    (k.procs child).kernelFrame

/-- The end of a `sys_fork` without memory: the child's slot is `UNUSED` again. -/
def forkFail (k : KernelState) (child : Slot) (segment : Nat) : KernelState :=
  ({ k with pool := k.undoFork child segment }.setProc child fun e =>
    { e with state := .unused }).setSelf fun e => { e with task := .user }

theorem forkPage_eq_forkFail {k : KernelState} {child : Slot} {segment : Nat}
    {table : Nat → Frame} (hSegment : segment < pageTableSize)
    (hMapped : table segment ≠ frameUnused) (hNone : k.pool.available = 0) :
    k.forkPage child segment table = k.forkFail child segment := by
  have hFrame : k.pool.kalloc.1 = frameUnused := Pool.kalloc_eq_unused_iff.mpr hNone
  rw [forkPage, dif_pos hSegment, if_neg hMapped]
  simp only [hFrame, if_true]
  rfl

section Rollback

variable {k : KernelState} {child : Slot} {segment : Nat}

/-- The rollback frees the page table of the child. -/
theorem Owned.rollback_freed (h : Owned k) (hForking : k.self.task.forking = some (child, segment))
    (hSegment : segment < pageTableSize) (hUndoes : k.UndoesFork child segment) :
    Pool.Freed (k.pool.entry (k.procs child).kernelFrame) 0 pageTableSize none k.pool.kalloc.2
      (k.pool.kalloc.2.forkRollback (k.procs child).kernelFrame segment) := by
  obtain ⟨-, hBuilding, hEmpty⟩ := h.forking k.current child segment hForking
  set pcb := (k.procs child).kernelFrame with hPcb
  have hEntry : k.pool.kalloc.2.entry pcb = k.pool.entry pcb := by rw [Pool.kalloc_entry]
  unfold UndoesFork at hUndoes
  unfold Pool.forkRollback
  split
  · -- the loop goes round through 255 and finds nothing to free
    next hZero =>
    rw [if_pos hZero] at hUndoes
    have hNone : ∀ s, s ≤ 255 → ¬ Usable (k.pool.kalloc.2.entry pcb s) := by
      intro s hs hUsable
      rw [hEntry] at hUsable
      by_cases hTable : s < pageTableSize
      · exact hUsable.2 (hEmpty s (by omega) hTable)
      · exact hUndoes s (Nat.le_of_not_lt hTable) (by omega) hUsable
    have hFirst := Pool.freeEntry_of_not_usable (hNone 0 (by omega))
    rw [hFirst, Pool.rollbackLoop_of_not_usable 255 fun s _ hs => hNone s hs]
    have hUnmapped : ∀ s, 0 ≤ s → s < pageTableSize → k.pool.entry pcb s = frameUnused :=
      fun s _ hs => hEmpty s (by omega) hs
    refine ⟨fun f hf => ?_, fun _ _ _ => rfl, fun _ hMem => .inl hMem⟩
    rw [mappings_eq_zero fun s hs hs' => by rw [hUnmapped s hs hs']; exact hf.2.symm, Nat.add_zero]
  · next hPositive =>
    rw [if_neg hPositive] at hUndoes
    have hOwn : ∀ s, 1 ≤ s → s ≤ segment → k.pool.kalloc.2.entry pcb s ≠ pcb := by
      intro s _ hs
      rw [hEntry]
      exact h.entry_ne_stack (by simp [hBuilding]) (by simp [hBuilding]) (by simp [hBuilding])
        (by omega)
    have hFreed := Pool.rollbackLoop_freed k.pool.kalloc.2 pcb segment hOwn
    rw [hEntry] at hFreed
    -- segment 0 and the segments behind the loop have no frame
    have hUnmapped : ∀ s, s < 1 ∨ segment + 1 ≤ s → s < pageTableSize →
        k.pool.entry pcb s = frameUnused := by
      rintro s (hs | hs) hTable
      · rw [Nat.lt_one_iff.mp hs]
        exact hUndoes
      · exact hEmpty s (by omega) hTable
    refine ⟨fun f hf => ?_, fun f hNone hNot => ?_, hFreed.free⟩
    · have hLow : mappings (k.pool.entry pcb) f 0 1 = 0 := by
        apply mappings_eq_zero
        intro s _ hs
        rw [hUnmapped s (.inl hs) (by unfold pageTableSize; omega)]
        exact hf.2.symm
      have hHigh : mappings (k.pool.entry pcb) f (segment + 1) pageTableSize = 0 := by
        apply mappings_eq_zero
        intro s hs hs'
        rw [hUnmapped s (.inr hs) hs']
        exact hf.2.symm
      have hSplit : mappings (k.pool.entry pcb) f 1 (segment + 1) + _ = _ :=
        mappings_split (by omega) (by omega : segment + 1 ≤ pageTableSize)
      have hWhole : mappings (k.pool.entry pcb) f 0 1 + _ = _ :=
        mappings_split (by omega) (by unfold pageTableSize; omega : 1 ≤ pageTableSize)
      rw [hFreed.count f hf]
      omega
    · exact hFreed.mem f hNone fun s hs hs' => hNot s (Nat.zero_le s) (by omega)

/-- A clean rollback: the child's frames are free again, and nobody has lost one. -/
theorem Owned.forkFail (h : Owned k) (hRunning : k.running = true)
    (hForking : k.self.task.forking = some (child, segment)) (hHeld : k.self.task.held = none)
    (hSegment : segment < pageTableSize) (hNone : k.pool.available = 0)
    (hUndoes : k.UndoesFork child segment) : Owned (k.forkFail child segment) := by
  have hState : (k.procs k.current).state = .running := h.current hRunning
  obtain ⟨-, hBuilding, -⟩ := h.forking k.current child segment hForking
  have hNe : child ≠ k.current := h.not_building (by simp [hState]) hForking
  have hUsed : (k.procs child).state ≠ .unused := by simp [hBuilding]
  have hFreed := h.rollback_freed hForking hSegment hUndoes
  have hFrame : k.pool.kalloc.1 = frameUnused := Pool.kalloc_eq_unused_iff.mpr hNone
  have hSelf : (k.forkFail child segment).procs k.current =
      { k.procs k.current with task := .user } := by
    simp [KernelState.forkFail, setSelf, setProc, hNe.symm]
  have hChild : (k.forkFail child segment).procs child =
      { k.procs child with state := .unused } := by
    simp [KernelState.forkFail, setSelf, setProc, hNe]
  have hOther : ∀ q, q ≠ child → q ≠ k.current →
      (k.forkFail child segment).procs q = k.procs q := by
    intro q hq hq'
    simp [KernelState.forkFail, setSelf, setProc, hq, hq']
  -- the tables of the others lie in frames that are not freed
  have hTable : ∀ q, q ≠ child → (k.procs q).state ≠ .unused →
      (k.forkFail child segment).pool.entry (k.procs q).kernelFrame =
        k.pool.entry (k.procs q).kernelFrame := by
    intro q hq hUsedQ
    funext s
    have hPages : ∀ s, 0 ≤ s → s < pageTableSize →
        k.pool.entry (k.procs child).kernelFrame s ≠ (k.procs q).kernelFrame :=
      fun s _ hs => h.entry_ne_stack hUsed (by simp [hBuilding]) hUsedQ hs
    have hMem := hFreed.mem (k.procs q).kernelFrame (by simp) hPages
    rw [Pool.kalloc_mem] at hMem
    have hStack : (k.undoFork child segment).mem (k.procs q).kernelFrame =
        k.pool.mem (k.procs q).kernelFrame := by
      rw [undoFork, Pool.kfree_mem_of_ne (h.stack_ne hUsedQ hUsed hq), hMem]
    exact congrFun hStack _
  refine h.exchange {child, k.current} rfl ?_ ?_ ?_ ?_ ?_ ?_ ?_ ?_
  · intro f hMem
    rcases Pool.kfree_free hMem with hFree | hHigh
    · exact (hFreed.free f hFree).imp_left fun hf => Pool.kalloc_free_subset hf
    · exact .inr hHigh
  · intro q hq
    simp only [Finset.mem_insert, Finset.mem_singleton, not_or] at hq
    have hProc := hOther q hq.1 hq.2
    exact ⟨by rw [hProc], by rw [hProc], by rw [hProc], fun hUsedQ s _ => by
      rw [hTable q hq.1 hUsedQ]⟩
  · intro f hf
    have hKept : k.pool.kalloc.2.free.count f + _ = k.pool.free.count f := Pool.kalloc_count hf
    rw [hFrame, if_neg hf.2.symm] at hKept
    have hCount : (k.forkFail child segment).pool.free.count f = _ := Pool.kfree_count _ hf
    have hRolled := hFreed.count f hf
    have hOwn := hTable k.current hNe.symm (by simp [hState])
    have hHeld' : (k.procs k.current).task.held = none := hHeld
    have hNoChild : (k.procs child).task.held = none :=
      Task.held_of_not_forking (h.not_forking (by simp [hBuilding]) (by simp [hBuilding]))
    have hUser : Task.user.held = none := rfl
    rw [Finset.sum_pair hNe, Finset.sum_pair hNe, hChild, hSelf, hCount, hRolled]
    simp only [Pool.places, hState, hBuilding, hOwn, hHeld', hNoChild, hUser, reduceCtorEq, if_true,
      if_false]
    omega
  · intro q hq hUsedQ
    rcases Finset.mem_insert.mp hq with rfl | hq
    · rw [hChild] at hUsedQ
      exact absurd rfl hUsedQ
    · rw [Finset.mem_singleton.mp hq, hSelf]
      exact h.stack k.current (by simp [hState])
  · intro q hq c s hqs
    simp only [Finset.mem_insert, Finset.mem_singleton, not_or] at hq
    have hNotSelf : c ≠ k.current := h.not_building (by simp [hState]) hqs
    have hNotChild : c ≠ child := by
      rintro rfl
      exact hq.2 (h.distinct q k.current c s segment hqs hForking)
    simp [hNotChild, hNotSelf]
  · intro q hq c s hs
    have hIdle : ((k.forkFail child segment).procs q).task.forking = none := by
      rcases Finset.mem_insert.mp hq with rfl | hq
      · rw [hChild]
        exact h.not_forking (by simp [hBuilding]) (by simp [hBuilding])
      · rw [Finset.mem_singleton.mp hq, hSelf]
        rfl
    rw [hIdle] at hs
    cases hs
  · intro q hq r _ c s s' hqs _
    have hIdle : ((k.forkFail child segment).procs q).task.forking = none := by
      rcases Finset.mem_insert.mp hq with rfl | hq
      · rw [hChild]
        exact h.not_forking (by simp [hBuilding]) (by simp [hBuilding])
      · rw [Finset.mem_singleton.mp hq, hSelf]
        rfl
    rw [hIdle] at hqs
    cases hqs
  · intro _
    show ((k.forkFail child segment).procs k.current).state = .running
    rw [hSelf]
    exact hState

end Rollback

/-! ## §3 Steps -/

/-- The step does not enter a rollback that goes wrong. -/
def Clean (k : KernelState) : Occurrence → Prop
  | .act .proceed => ∀ child segment table, k.self.task = .fork child segment table →
      segment < pageTableSize → table segment ≠ frameUnused → k.pool.available = 0 →
        k.UndoesFork child segment
  | .act (.sbrk increment) => k.SbrkSafe increment
  | _ => True

theorem Safe.clean {k : KernelState} {e : Occurrence} (h : k.Safe e) : k.Clean e := by
  unfold Clean
  split
  · intro child segment table hTask hSegment hMapped hNone
    have hSome := h child segment table hTask hSegment hMapped
    omega
  · exact h
  · trivial

/-- **Step lemma**: every clean step keeps the invariant. -/
theorem Owned.step_clean {k k' : KernelState} {e : Occurrence} (h : Owned k) (hStep : k.Step e k')
    (hClean : k.Clean e) : Owned k' := by
  by_cases hSafe : k.Safe e
  · exact h.step hStep hSafe
  · -- the only step that is clean and not safe is a rollback of `sys_fork`
    unfold Safe at hSafe
    split at hSafe
    · push Not at hSafe
      obtain ⟨child, segment, table, hTask, hSegment, hMapped, hSome⟩ := hSafe
      have hNone : k.pool.available = 0 := by omega
      obtain ⟨hRunning, hAct⟩ := Option.ite_none_right_eq_some.mp hStep
      have hPage : k.act .proceed = some (k.forkPage child segment table) := by
        simp only [KernelState.act, hTask]
      rw [hPage, forkPage_eq_forkFail hSegment hMapped hNone] at hAct
      obtain rfl := Option.some.inj hAct
      exact h.forkFail hRunning (by rw [hTask]; rfl) (by rw [hTask]; rfl) hSegment hNone
        (hClean child segment table hTask hSegment hMapped hNone)
    · exact absurd hClean hSafe
    · exact absurd trivial hSafe

end KernelState

end Xv6502.Kernel
