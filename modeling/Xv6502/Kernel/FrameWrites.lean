import Xv6502.Kernel.ForkRollback

/-!
# Which Bytes a Step Writes

Every byte of a usable frame that an action of the running process changes lies in a frame that
was free, in one of its own pages, in the frame its `sys_fork` holds, in its page table or that of
the child it builds, or in a frame of a process whose slot it gives back (`act_writes`). With the
ownership of the frames this says what an action leaves alone: everything of a process that has
nothing to do with it (`Owned.bystander`), and all of a kernel stack but the page table
(`Owned.act_stack`).
-/

namespace Xv6502.Kernel

open Xv6502.Emulator

/-- The offset is one of the page table of the PCB. -/
def InTable (offset : Nat) : Prop := pcbOffset ≤ offset ∧ offset < pcbOffset + pageTableSize

namespace KernelState

/-! ## §1 The bytes -/

/-- Why an action of the running process from `k` to `k'` may have written a byte. -/
inductive Writes (k k' : KernelState) (frame : Frame) (offset : Nat) : Prop
  | free (h : frame ∈ k.pool.free)
  | page {s : Nat} (hs : s < pageTableSize) (h : k.pool.entry k.self.kernelFrame s = frame)
  | held (h : k.self.task.held = some frame)
  | table (hOffset : InTable offset) (h : k.self.kernelFrame = frame)
  | childTable {child : Slot} {s : Nat} (hForking : k.self.task.forking = some (child, s))
      (hOffset : InTable offset) (h : (k.procs child).kernelFrame = frame)
  | reclaimed {z : Slot} (hUsed : (k.procs z).state ≠ .unused)
      (hUnused : (k'.procs z).state = .unused) (h : 0 < k.pool.places (k.procs z) frame)

end KernelState

namespace Pool

variable {pool : Pool} {frame pcb : Frame} {offset : Nat}

theorem store_mem_of_ne {dst : Frame} {o : Nat} {byte : Byte} (h : frame ≠ dst ∨ offset ≠ o) :
    (pool.store dst o byte).mem frame offset = pool.mem frame offset := by
  unfold store
  by_cases hFrame : frame = dst
  · subst hFrame
    have hOffset : offset ≠ o := h.resolve_left fun hNe => hNe rfl
    simp only [Function.update_self, Function.update_of_ne hOffset]
  · simp only [Function.update_of_ne hFrame]

theorem setTable_mem {table : Nat → Frame} (h : frame ≠ pcb ∨ ¬ InTable offset) :
    (pool.setTable pcb table).mem frame offset = pool.mem frame offset := by
  unfold setTable
  by_cases hFrame : frame = pcb
  · subst hFrame
    have hOffset : ¬ InTable offset := h.resolve_left fun hNe => hNe rfl
    simp only [Function.update_self]
    exact if_neg hOffset
  · simp only [Function.update_of_ne hFrame]

/-- The loop of `sys_exit` stores to the page table and to the pages. -/
theorem exitLoop_mem {segment n : Nat} (hOwn : ∀ s, segment ≤ s → s < segment + n →
      pool.entry pcb s ≠ pcb) (hEnd : segment + n ≤ pageTableSize)
    (hPages : ∀ s, segment ≤ s → s < segment + n → pool.entry pcb s ≠ frame)
    (hTable : frame ≠ pcb ∨ ¬ InTable offset) :
    (pool.exitLoop pcb segment n).mem frame offset = pool.mem frame offset := by
  -- on the segments; the loop goes upwards and clears each entry behind it
  induction n generalizing pool segment with
  | zero => rfl
  | succ n ih =>
    rw [exitLoop]
    have hFirst := hOwn segment le_rfl (by omega)
    have hNotFreed := hPages segment le_rfl (by omega)
    split
    · -- the entry is freed and cleared, and the others stay as they are
      -- `kfree` fills the page and the store clears one entry, so the later entries are read as
      -- before
      have hNext : ∀ s, segment + 1 ≤ s →
          ((pool.kfree (pool.entry pcb segment)).setEntry pcb segment frameUnused).entry pcb s =
            pool.entry pcb s := by
        intro s hs
        rw [entry_setEntry, Function.update_of_ne (by omega)]
        exact congrFun (kfree_mem_of_ne hFirst.symm) _
      rw [ih (fun s hs hs' => by rw [hNext s hs]; exact hOwn s (by omega) (by omega)) (by omega)
        fun s hs hs' => by rw [hNext s hs]; exact hPages s (by omega) (by omega)]
      have hStore : frame ≠ pcb ∨ offset ≠ pcbOffset + segment := by
        apply hTable.imp_right
        intro hOut hOffset
        exact hOut ⟨by omega, by omega⟩
      rw [setEntry, store_mem_of_ne hStore, kfree_mem_of_ne hNotFreed.symm]
    · exact ih (fun s hs hs' => hOwn s (by omega) (by omega)) (by omega)
        fun s hs hs' => hPages s (by omega) (by omega)

/-- The growth of a heap that fails writes to frames that were free or mapped. -/
theorem growLoop_mem {table : Nat → Frame} {segment n : Nat} {result : Option (Nat → Frame) × Pool}
    (h : pool.growLoop table segment segment n = result) (hf : Usable frame)
    (hEnd : segment + n ≤ pageTableSize) (hFree : frame ∉ pool.free)
    (hPages : ∀ s, s < pageTableSize → table s ≠ frame) :
    result.2.mem frame = pool.mem frame := by
  rcases growLoop_cases pool table segment segment n with ⟨table', pool', hLoop, hGrown⟩ |
    ⟨stop, table', pool', hStop, -, hGrown, -, hLoop⟩
  · rw [← h, hLoop, hGrown.mem]
  · -- the frames in the table are those that were there and those that were free
    have hCount := hGrown.count frame hf 0 pageTableSize (Nat.zero_le _) (by omega)
    have hNone : mappings table frame 0 pageTableSize = 0 :=
      mappings_eq_zero fun s _ hs => hPages s hs
    have hZero := List.count_eq_zero.mpr hFree
    have hNot : ∀ s, segment + 1 ≤ s → s < stop + 1 → table' s ≠ frame := by
      intro s _ hs hEq
      have hPos := mappings_pos (Nat.zero_le s) (by omega : s < pageTableSize) hEq
      omega
    have hFreed := freeDown_freed pool'.kalloc.2 table' segment stop
    rw [← h, hLoop]
    show (freeDown _ _ _ _).2.mem frame = _
    rw [hFreed.mem frame (by simp) hNot, kalloc_mem, hGrown.mem]

end Pool

namespace KernelState

section Writes

variable {k k' : KernelState} {frame : Frame} {offset : Nat}

theorem sbrk_writes (increment : Word) (hf : Usable frame)
    (hByte : (k.sbrk increment).pool.mem frame offset ≠ k.pool.mem frame offset) :
    Writes k k' frame offset := by
  by_contra hNot
  have hFree : frame ∉ k.pool.free := fun hMem => hNot (.free hMem)
  have hPages : ∀ s, s < pageTableSize → k.pool.entry k.self.kernelFrame s ≠ frame :=
    fun s hs hEq => hNot (.page hs hEq)
  -- the byte is in no page table of the process
  have hTable : frame ≠ k.self.kernelFrame ∨ ¬ InTable offset := by
    by_contra hBoth
    push Not at hBoth
    exact hNot (.table hBoth.2 hBoth.1.symm)
  have hOld := segmentBelow_lt k.self.top
  have hNew := segmentBelow_lt (k.self.top + increment)
  apply hByte
  unfold KernelState.sbrk
  dsimp only
  split
  -- a frame that is taken comes from the free list, and it is not filled
  · -- growing
    rcases hLoop : k.pool.growLoop (k.pool.entry k.self.kernelFrame) (segmentBelow k.self.top)
        (segmentBelow k.self.top)
        (segmentBelow (k.self.top + increment) + 1 - segmentBelow k.self.top) with ⟨- | table, pool⟩
    · exact congrFun (Pool.growLoop_mem hLoop hf (by omega) hFree hPages) offset
    · refine (Pool.setTable_mem hTable).trans ?_
      exact congrFun (Pool.growLoop_mem hLoop hf (by omega) hFree hPages) offset
  · split
    · -- shrinking
      refine (Pool.setTable_mem hTable).trans ?_
      have hFreed := Pool.freeDown_freed k.pool (k.pool.entry k.self.kernelFrame)
        (segmentBelow (k.self.top + increment)) (segmentBelow k.self.top)
      exact congrFun (hFreed.mem frame (by simp) fun s _ hs => hPages s (by omega)) offset
    · exact Pool.setTable_mem hTable

theorem exit_writes (h : Owned k) (hRunning : k.running = true)
    (hByte : k.exit.pool.mem frame offset ≠ k.pool.mem frame offset) :
    Writes k k' frame offset := by
  have hState : (k.procs k.current).state = .running := h.current hRunning
  by_contra hNot
  have hOwn : ∀ s, 0 ≤ s → s < 0 + pageTableSize →
      k.pool.entry k.self.kernelFrame s ≠ k.self.kernelFrame := fun s _ hs =>
    h.entry_ne_stack (by simp [hState]) (by simp [hState]) (by simp [hState]) (by omega)
  have hTable : frame ≠ k.self.kernelFrame ∨ ¬ InTable offset := by
    by_contra hBoth
    push Not at hBoth
    exact hNot (.table hBoth.2 hBoth.1.symm)
  have hPool : k.exit.pool = k.pool.exitLoop k.self.kernelFrame 0 pageTableSize := by
    simp only [KernelState.exit, KernelState.suspend, setSelf, setProc]
  rw [hPool] at hByte
  exact hByte (Pool.exitLoop_mem hOwn (Nat.zero_add _).le
    (fun s _ hs hEq => hNot (.page (by omega) hEq)) hTable)

theorem forkStart_writes (hByte : k.forkStart.pool.mem frame offset ≠ k.pool.mem frame offset) :
    Writes k k' frame offset := by
  by_contra hNot
  apply hByte
  unfold KernelState.forkStart
  split
  · rfl
  · by_cases hFrame : k.pool.kalloc.1 = frameUnused
    · simp only [KernelState.forkInto, hFrame, if_true, Pool.kalloc_mem]
    · -- only the new kernel stack is written
      have hNe : frame ≠ k.pool.kalloc.1 := by
        rintro rfl
        exact hNot (.free (Pool.kalloc_mem_free hFrame))
      simp only [KernelState.forkInto, hFrame, if_false]
      simp [KernelState.suspend, setSelf, setProc, Pool.setTable, Pool.copyFrame, hNe]

theorem forkPage_writes (h : Owned k) {child : Slot} {segment : Nat} {table : Nat → Frame}
    (hTask : k.self.task = .fork child segment table)
    (hClean : segment < pageTableSize → table segment ≠ frameUnused → k.pool.available = 0 →
      k.UndoesFork child segment)
    (hByte : (k.forkPage child segment table).pool.mem frame offset ≠ k.pool.mem frame offset) :
    Writes k (k.forkPage child segment table) frame offset := by
  have hForking : k.self.task.forking = some (child, segment) := by rw [hTask]; rfl
  obtain ⟨-, hBuilding, -⟩ := h.forking k.current child segment hForking
  have hUsed : (k.procs child).state ≠ .unused := by simp [hBuilding]
  -- memory runs out in this turn, or it writes to the page table of the child at most
  by_cases hFails : segment < pageTableSize ∧ table segment ≠ frameUnused ∧ k.pool.available = 0
  · -- the rollback writes to the frames of the child
    obtain ⟨hSegment, hMapped, hNone⟩ := hFails
    rw [forkPage_eq_forkFail hSegment hMapped hNone] at hByte ⊢
    have hFreed := h.rollback_freed hForking hSegment (hClean hSegment hMapped hNone)
    have hUnused : ((k.forkFail child segment).procs child).state = .unused := by
      by_cases hSelf : child = k.current <;>
        simp [KernelState.forkFail, setSelf, setProc, hSelf]
    refine .reclaimed hUsed hUnused ?_
    by_contra hPlaces
    rw [places_live hUsed (by simp [hBuilding])] at hPlaces
    have hStack : (k.procs child).kernelFrame ≠ frame := by
      intro hEq
      rw [if_pos hEq] at hPlaces
      omega
    have hPages : ∀ s, 0 ≤ s → s < pageTableSize →
        k.pool.entry (k.procs child).kernelFrame s ≠ frame := by
      intro s _ hs hEq
      have hPos := mappings_pos (Nat.zero_le s) hs hEq
      omega
    apply hByte
    show (k.undoFork child segment).mem frame offset = _
    rw [undoFork, Pool.kfree_mem_of_ne hStack.symm, hFreed.mem frame (by simp) hPages,
      Pool.kalloc_mem]
  · -- without a rollback no memory is written
    exfalso
    apply hByte
    unfold KernelState.forkPage
    split
    · next hSegment =>
      split
      · rfl
      · next hMapped =>
        have hSome : k.pool.kalloc.1 ≠ frameUnused := fun hNone =>
          hFails ⟨hSegment, hMapped, Pool.kalloc_eq_unused_iff.mp hNone⟩
        dsimp only
        rw [if_neg hSome]
        show k.pool.kalloc.2.mem frame offset = _
        rw [Pool.kalloc_mem]
    · rfl

theorem forkStore_writes {child : Slot} {segment : Fin pageTableSize} {table : Nat → Frame}
    {page : Frame} (hTask : k.self.task = .forkHolding child segment table page)
    (hByte : (k.forkStore child segment table page).pool.mem frame offset ≠
      k.pool.mem frame offset) : Writes k k' frame offset := by
  by_contra hNot
  have hPage : frame ≠ page := by
    rintro rfl
    exact hNot (.held (by rw [hTask]; rfl))
  have hStore : frame ≠ (k.procs child).kernelFrame ∨ offset ≠ pcbOffset + segment := by
    by_contra hBoth
    push Not at hBoth
    have hSegment := segment.isLt
    exact hNot (.childTable (by rw [hTask]; rfl) ⟨by omega, by omega⟩ hBoth.1.symm)
  apply hByte
  refine (congrFun (Function.update_of_ne hPage _ _) offset).trans ?_
  exact Pool.store_mem_of_ne hStore

theorem waitTurn_writes (hByte : k.waitTurn.pool.mem frame offset ≠ k.pool.mem frame offset) :
    Writes k k.waitTurn frame offset := by
  unfold KernelState.waitTurn at hByte ⊢
  split at hByte
  · next z hFound =>
    have hZombie := List.find?_some hFound
    simp only [decide_eq_true_eq] at hZombie
    have hUsed : (k.procs z).state ≠ .unused := by simp [hZombie.1]
    have hEq : (k.procs z).kernelFrame = frame := by
      by_contra hNe
      apply hByte
      exact congrFun (Pool.kfree_mem_of_ne (Ne.symm hNe)) offset
    refine .reclaimed hUsed ?_ (hEq ▸ places_stack_pos hUsed)
    by_cases hSelf : z = k.current <;> simp [procFree, setSelf, setProc, hSelf]
  · exact absurd rfl hByte

/-- **What an action writes.** -/
theorem act_writes (h : Owned k) (hRunning : k.running = true) {action : Action}
    (hStep : k.act action = some k') (hClean : k.Clean (.act action)) (hf : Usable frame)
    (hByte : k'.pool.mem frame offset ≠ k.pool.mem frame offset) : Writes k k' frame offset := by
  -- a store of the process
  have hStore : ∀ {address byte}, k.userStore address byte = some k' →
      Writes k k' frame offset := by
    intro address byte hSome
    obtain ⟨-, ⟨⟩⟩ := Option.ite_none_left_eq_some.mp hSome
    have hSegment : address.toNat / 0x1000 < pageTableSize := by
      have hAddress := address.isLt
      unfold pageTableSize
      omega
    refine .page hSegment ?_
    by_contra hNe
    exact hByte (Pool.store_mem_of_ne (.inl (Ne.symm hNe)))
  unfold KernelState.act at hStep
  split at hStep
  · exact hStore hStep
  · exact hStore hStep
  · obtain rfl := Option.some.inj hStep
    exact absurd rfl hByte
  · obtain rfl := Option.some.inj hStep
    exact absurd rfl hByte
  · obtain rfl := Option.some.inj hStep
    exact forkStart_writes hByte
  · obtain rfl := Option.some.inj hStep
    exact sbrk_writes _ hf hByte
  · obtain ⟨-, hSome⟩ := Option.ite_none_left_eq_some.mp hStep
    obtain rfl := Option.some.inj hSome
    exact exit_writes h hRunning hByte
  · obtain rfl := Option.some.inj hStep
    exact absurd rfl hByte
  · obtain ⟨-, hSome⟩ := Option.ite_none_left_eq_some.mp hStep
    obtain rfl := Option.some.inj hSome
    apply absurd _ hByte
    unfold KernelState.kill
    split <;> rfl
  · next hTask =>
    obtain rfl := Option.some.inj hStep
    exact forkPage_writes h hTask (fun hSegment hMapped hNone =>
      hClean _ _ _ hTask hSegment hMapped hNone) hByte
  · next hTask =>
    obtain rfl := Option.some.inj hStep
    exact forkStore_writes hTask hByte
  · obtain rfl := Option.some.inj hStep
    exact waitTurn_writes hByte
  · obtain rfl := Option.some.inj hStep
    exact absurd rfl hByte
  · cases hStep

end Writes

/-! ## §2 What is left alone -/

section Untouched

variable {k k' : KernelState} {x : Slot} {frame : Frame}

/-- **Frame rule**: what a process owns stays as it is while another one acts, unless that one
    builds it or gives its slot back. -/
theorem Owned.bystander (h : Owned k) (hRunning : k.running = true) {action : Action}
    (hStep : k.act action = some k') (hClean : k.Clean (.act action)) (hx : x ≠ k.current)
    (hChild : ∀ child s, k.self.task.forking = some (child, s) → x ≠ child)
    (hUsed : (k'.procs x).state ≠ .unused) (hf : Usable frame)
    (hOwns : 0 < k.pool.places (k.procs x) frame) : k'.pool.mem frame = k.pool.mem frame := by
  have hState : (k.procs k.current).state = .running := h.current hRunning
  obtain ⟨-, -, hAlone⟩ := h.alone hf hOwns
  have hSelf : k.pool.places (k.procs k.current) frame = 0 := hAlone k.current hx.symm
  rw [places_live (by simp [hState]) (by simp [hState])] at hSelf
  unfold self at hChild
  funext offset
  by_contra hByte
  -- every byte the action may write lies in a frame with a place elsewhere; `x` has the only
  -- place of this one
  cases act_writes h hRunning hStep hClean hf hByte with
  | free hMem =>
    rw [h.free_alone hf hMem x] at hOwns
    omega
  | page hs hEq =>
    have hPos := mappings_pos (Nat.zero_le _) hs hEq
    simp only [self] at hPos
    omega
  | held hHeld =>
    unfold self at hHeld
    rw [if_pos hHeld] at hSelf
    omega
  | table _ hEq =>
    unfold self at hEq
    rw [if_pos hEq] at hSelf
    omega
  | @childTable child s hForking _ hEq =>
    have hBuilding := (h.forking k.current child s hForking).2.1
    have hPos := places_stack_pos (show (k.procs child).state ≠ .unused by simp [hBuilding])
    rw [hEq, hAlone child (hChild child s hForking).symm] at hPos
    omega
  | @reclaimed z _ hUnused hPos =>
    have hz : z ≠ x := by
      rintro rfl
      exact hUsed hUnused
    rw [hAlone z hz] at hPos
    omega

/-- **Frame rule**: an action stores to no kernel stack that stays in use, beside the page
    table. -/
theorem Owned.act_stack (h : Owned k) (hRunning : k.running = true) {action : Action}
    (hStep : k.act action = some k') (hClean : k.Clean (.act action))
    (hUsed : (k.procs x).state ≠ .unused) (hUsed' : (k'.procs x).state ≠ .unused) {offset : Nat}
    (hOffset : ¬ InTable offset) :
    k'.pool.mem (k.procs x).kernelFrame offset = k.pool.mem (k.procs x).kernelFrame offset := by
  have hState : (k.procs k.current).state = .running := h.current hRunning
  by_contra hByte
  cases act_writes h hRunning hStep hClean (h.stack x hUsed) hByte with
  | free hMem => exact h.stack_not_free hUsed hMem
  | page hs hEq => exact h.entry_ne_stack (by simp [hState]) (by simp [hState]) hUsed hs hEq
  | held hHeld => exact h.held_ne_stack (by simp [hState]) (by simp [hState]) hUsed hHeld rfl
  | table hIn => exact hOffset hIn
  | childTable _ hIn => exact hOffset hIn
  | @reclaimed z _ hUnused hPos =>
    have hz : z ≠ x := by
      rintro rfl
      exact hUsed' hUnused
    obtain ⟨-, -, hAlone⟩ := h.alone (h.stack x hUsed) (places_stack_pos hUsed)
    rw [hAlone z hz] at hPos
    omega

theorem setProc_kernelFrame (p : Slot) {f : ProcEntry → ProcEntry}
    (hf : ∀ e, (f e).kernelFrame = e.kernelFrame) :
    ((k.setProc p f).procs x).kernelFrame = (k.procs x).kernelFrame := by
  unfold setProc
  by_cases hx : x = p
  · subst hx
    simp only [Function.update_self, hf]
  · simp only [Function.update_of_ne hx]

theorem setSelf_kernelFrame {f : ProcEntry → ProcEntry}
    (hf : ∀ e, (f e).kernelFrame = e.kernelFrame) :
    ((k.setSelf f).procs x).kernelFrame = (k.procs x).kernelFrame :=
  setProc_kernelFrame k.current hf

@[simp] theorem suspend_kernelFrame (state : ProcState) :
    ((k.suspend state).procs x).kernelFrame = (k.procs x).kernelFrame := by
  unfold KernelState.suspend
  dsimp only
  apply setSelf_kernelFrame
  exact fun _ => rfl

theorem forkStart_kernelFrame (hUsed : (k.procs x).state ≠ .unused) :
    (k.forkStart.procs x).kernelFrame = (k.procs x).kernelFrame := by
  unfold KernelState.forkStart
  split
  · rfl
  · next child hFound =>
    have hUnused := List.find?_some hFound
    simp only [decide_eq_true_eq] at hUnused
    have hx : x ≠ child := by
      rintro rfl
      exact hUsed hUnused
    by_cases hFrame : k.pool.kalloc.1 = frameUnused
    · simp only [KernelState.forkInto, hFrame, if_true]
      exact congrArg ProcEntry.kernelFrame (Function.update_of_ne hx _ _)
    · simp only [KernelState.forkInto, hFrame, if_false]
      by_cases hSelf : x = k.current
      · subst hSelf
        simp [KernelState.suspend, setSelf, setProc, hx]
      · simp [KernelState.suspend, setSelf, setProc, hx, hSelf]

/-- `sys_sbrk` changes the top of the process at most. -/
theorem sbrk_entry (increment : Word) :
    ∃ top, (k.sbrk increment).procs x = { k.procs x with top := top } := by
  have hSame : ∃ top, k.procs x = { k.procs x with top := top } := ⟨(k.procs x).top, rfl⟩
  have hTop : ∀ newTop, ∃ top, (k.setSelf fun e => { e with top := newTop }).procs x =
      { k.procs x with top := top } := by
    intro newTop
    by_cases hx : x = k.current
    · subst hx
      exact ⟨newTop, Function.update_self ..⟩
    · obtain ⟨top, hTop⟩ := hSame
      exact ⟨top, (Function.update_of_ne hx _ _).trans hTop⟩
  unfold KernelState.sbrk
  dsimp only
  split
  · split
    · exact hTop _
    · exact hSame
  · split <;> exact hTop _

theorem sbrk_kernelFrame (increment : Word) :
    ((k.sbrk increment).procs x).kernelFrame = (k.procs x).kernelFrame := by
  obtain ⟨top, hEntry⟩ := @sbrk_entry k x increment
  rw [hEntry]

theorem forkPage_kernelFrame (child : Slot) (segment : Nat) (table : Nat → Frame) :
    ((k.forkPage child segment table).procs x).kernelFrame = (k.procs x).kernelFrame := by
  unfold KernelState.forkPage
  split
  · split
    · apply setSelf_kernelFrame
      exact fun _ => rfl
    · dsimp only
      split
      · rw [setSelf_kernelFrame, setProc_kernelFrame] <;> exact fun _ => rfl
      · dsimp only
        apply setSelf_kernelFrame
        exact fun _ => rfl
  · rw [setSelf_kernelFrame, setProc_kernelFrame] <;> exact fun _ => rfl

/-- Who has a slot keeps its kernel stack. -/
theorem act_kernelFrame {action : Action} (hStep : k.act action = some k')
    (hUsed : (k.procs x).state ≠ .unused) :
    (k'.procs x).kernelFrame = (k.procs x).kernelFrame := by
  -- in the order of the actions; only a fork that takes a slot gives a process a kernel stack,
  -- and `hUsed` shuts it out
  unfold KernelState.act at hStep
  split at hStep
  · obtain ⟨-, ⟨⟩⟩ := Option.ite_none_left_eq_some.mp hStep
    rfl
  · obtain ⟨-, ⟨⟩⟩ := Option.ite_none_left_eq_some.mp hStep
    rfl
  · obtain rfl := Option.some.inj hStep
    exact suspend_kernelFrame _
  · obtain rfl := Option.some.inj hStep
    exact suspend_kernelFrame _
  · obtain rfl := Option.some.inj hStep
    exact forkStart_kernelFrame hUsed
  · obtain rfl := Option.some.inj hStep
    exact sbrk_kernelFrame _
  · obtain ⟨-, hSome⟩ := Option.ite_none_left_eq_some.mp hStep
    obtain rfl := Option.some.inj hSome
    refine (suspend_kernelFrame _).trans ?_
    dsimp only
    split <;> rfl
  · obtain rfl := Option.some.inj hStep
    rw [setSelf_kernelFrame]
    exact fun _ => rfl
  · obtain ⟨-, hSome⟩ := Option.ite_none_left_eq_some.mp hStep
    obtain rfl := Option.some.inj hSome
    unfold KernelState.kill
    split
    · rw [setProc_kernelFrame]
      exact fun _ => rfl
    · rfl
  · obtain rfl := Option.some.inj hStep
    exact forkPage_kernelFrame _ _ _
  · obtain rfl := Option.some.inj hStep
    refine (suspend_kernelFrame _).trans ?_
    rw [setSelf_kernelFrame]
    exact fun _ => rfl
  · obtain rfl := Option.some.inj hStep
    unfold KernelState.waitTurn
    split
    · unfold procFree
      rw [setSelf_kernelFrame]
      · dsimp only
        apply setProc_kernelFrame
        exact fun _ => rfl
      · exact fun _ => rfl
    · exact suspend_kernelFrame _
  · obtain rfl := Option.some.inj hStep
    rw [setSelf_kernelFrame]
    exact fun _ => rfl
  · cases hStep

theorem sbrk_current (increment : Word) : (k.sbrk increment).current = k.current := by
  unfold KernelState.sbrk
  dsimp only
  split
  · split <;> rfl
  · split <;> rfl

/-- Nobody else is `current_process` after an action. -/
theorem act_current {action : Action} (hStep : k.act action = some k') :
    k'.current = k.current := by
  -- in the order of the actions; none of them is the scheduler
  unfold KernelState.act at hStep
  split at hStep
  · obtain ⟨-, ⟨⟩⟩ := Option.ite_none_left_eq_some.mp hStep
    rfl
  · obtain ⟨-, ⟨⟩⟩ := Option.ite_none_left_eq_some.mp hStep
    rfl
  · obtain rfl := Option.some.inj hStep
    rfl
  · obtain rfl := Option.some.inj hStep
    rfl
  · obtain rfl := Option.some.inj hStep
    unfold KernelState.forkStart
    split
    · rfl
    · unfold KernelState.forkInto
      dsimp only
      split <;> rfl
  · obtain rfl := Option.some.inj hStep
    exact sbrk_current _
  · obtain ⟨-, hSome⟩ := Option.ite_none_left_eq_some.mp hStep
    obtain rfl := Option.some.inj hSome
    simp only [KernelState.exit, KernelState.suspend, setSelf, setProc]
  · obtain rfl := Option.some.inj hStep
    rfl
  · obtain ⟨-, hSome⟩ := Option.ite_none_left_eq_some.mp hStep
    obtain rfl := Option.some.inj hSome
    unfold KernelState.kill
    split <;> rfl
  · obtain rfl := Option.some.inj hStep
    unfold KernelState.forkPage
    split
    · split
      · rfl
      · dsimp only
        split <;> rfl
    · rfl
  · obtain rfl := Option.some.inj hStep
    rfl
  · obtain rfl := Option.some.inj hStep
    unfold KernelState.waitTurn
    split <;> rfl
  · obtain rfl := Option.some.inj hStep
    rfl
  · cases hStep

/-- What an action of `current_process` leaves of the entry of another process. -/
structure EntryKept (k : KernelState) (a b : ProcEntry) : Prop where
  top : b.top = a.top
  task : b.task = a.task
  /-- `sys_exit` gives its children to "init". -/
  parent : a.parent ≠ k.current → b.parent = a.parent

theorem EntryKept.refl (k : KernelState) (a : ProcEntry) : EntryKept k a a :=
  ⟨rfl, rfl, fun _ => rfl⟩

theorem EntryKept.update {procs : Slot → ProcEntry} {p : Slot} {e : ProcEntry}
    (h : EntryKept k (procs p) e) : EntryKept k (procs x) (Function.update procs p e x) := by
  by_cases hx : x = p
  · subst hx
    rw [Function.update_self]
    exact h
  · rw [Function.update_of_ne hx]
    exact .refl k _

theorem setSelf_procs_of_ne (f : ProcEntry → ProcEntry) (hx : x ≠ k.current) :
    (k.setSelf f).procs x = k.procs x :=
  Function.update_of_ne hx _ _

theorem suspend_procs_of_ne (state : ProcState) (hx : x ≠ k.current) :
    (k.suspend state).procs x = k.procs x :=
  Function.update_of_ne hx _ _

theorem forkStart_procs_of_ne (hUsed : (k.procs x).state ≠ .unused) (hx : x ≠ k.current) :
    k.forkStart.procs x = k.procs x := by
  unfold KernelState.forkStart
  split
  · rfl
  · next child hFound =>
    have hUnused := List.find?_some hFound
    simp only [decide_eq_true_eq] at hUnused
    have hNe : x ≠ child := by
      rintro rfl
      exact hUsed hUnused
    by_cases hFrame : k.pool.kalloc.1 = frameUnused
    · simp only [KernelState.forkInto, hFrame, if_true]
      exact Function.update_of_ne hNe _ _
    · simp only [KernelState.forkInto, hFrame, if_false]
      simp [KernelState.suspend, setSelf, setProc, hNe, hx]

/-- An action changes the state of another process at most, and its parent if that exits. -/
theorem act_entry {action : Action} (hStep : k.act action = some k')
    (hUsed : (k.procs x).state ≠ .unused) (hx : x ≠ k.current) :
    EntryKept k (k.procs x) (k'.procs x) := by
  have hSame : ∀ {e : ProcEntry}, e = k.procs x → EntryKept k (k.procs x) e := by
    rintro e rfl
    exact .refl k _
  -- in the order of the actions: `sys_exit` wakes its parent up, `sys_kill` its victim, the
  -- others stay with their own process
  unfold KernelState.act at hStep
  split at hStep
  · obtain ⟨-, ⟨⟩⟩ := Option.ite_none_left_eq_some.mp hStep
    exact .refl k _
  · obtain ⟨-, ⟨⟩⟩ := Option.ite_none_left_eq_some.mp hStep
    exact .refl k _
  · obtain rfl := Option.some.inj hStep
    exact hSame (suspend_procs_of_ne _ hx)
  · obtain rfl := Option.some.inj hStep
    exact hSame (suspend_procs_of_ne _ hx)
  · obtain rfl := Option.some.inj hStep
    exact hSame (forkStart_procs_of_ne hUsed hx)
  · obtain rfl := Option.some.inj hStep
    exact hSame (sbrk_procs_of_ne _ hx)
  · obtain ⟨-, hSome⟩ := Option.ite_none_left_eq_some.mp hStep
    obtain rfl := Option.some.inj hSome
    simp only [KernelState.exit, KernelState.suspend, setSelf, setProc, Function.update_of_ne hx]
    split
    · next hChild => exact ⟨rfl, rfl, fun hNe => absurd hChild.2 hNe⟩
    · exact .refl k _
  · obtain rfl := Option.some.inj hStep
    exact hSame (setSelf_procs_of_ne _ hx)
  · obtain ⟨-, hSome⟩ := Option.ite_none_left_eq_some.mp hStep
    obtain rfl := Option.some.inj hSome
    unfold KernelState.kill
    split
    · exact .update ⟨rfl, rfl, fun _ => rfl⟩
    · exact .refl k _
  · obtain rfl := Option.some.inj hStep
    simp only [KernelState.forkPage, setSelf, setProc]
    split
    · split
      · exact hSame (Function.update_of_ne hx _ _)
      · split
        · simp only [Function.update_of_ne hx]
          exact .update ⟨rfl, rfl, fun _ => rfl⟩
        · exact hSame (Function.update_of_ne hx _ _)
    · simp only [Function.update_of_ne hx]
      exact .update ⟨rfl, rfl, fun _ => rfl⟩
  · obtain rfl := Option.some.inj hStep
    simp only [KernelState.forkStore, KernelState.suspend, setSelf, setProc,
      Function.update_of_ne hx]
    exact .refl k _
  · obtain rfl := Option.some.inj hStep
    unfold KernelState.waitTurn
    split
    · simp only [procFree, setSelf, setProc, Function.update_of_ne hx]
      exact .update ⟨rfl, rfl, fun _ => rfl⟩
    · exact hSame (suspend_procs_of_ne _ hx)
  · obtain rfl := Option.some.inj hStep
    exact hSame (setSelf_procs_of_ne _ hx)
  · cases hStep

end Untouched

end KernelState

end Xv6502.Kernel
