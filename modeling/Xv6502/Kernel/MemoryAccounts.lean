import Xv6502.Kernel.PageTables
import Mathlib.Data.List.TakeWhile

/-!
# The Accounts of the Memory

Every frame that the kernel does not keep for itself is free or in use by a process: as its kernel
stack, as a page, or as the page that `sys_fork` is about to copy. So the process table alone says
how many frames are left (`memory_accounts`), and `kalloc` fails exactly when the processes have all
of the 222 frames behind the caches.

The free stack ends with the frame 255, which is `FRAME_UNUSED`: `kalloc_init` pushes it first, and
nothing is ever pushed below it.
-/

namespace Xv6502.Kernel

open Xv6502.Emulator
open Xv6502.Lib

/-! ## §1 The free stack -/

namespace Pool

/-- `P` is about the free stack, and `kalloc` and `kfree` keep it. -/
structure KeptByFrames (P : Pool → Prop) : Prop where
  kalloc : ∀ pool, P pool → P pool.kalloc.2
  kfree : ∀ pool frame, P pool → P (pool.kfree frame)
  mem : ∀ (pool : Pool) mem, P pool → P { pool with mem := mem }

section Loops

variable {P : Pool → Prop} {pool : Pool}

theorem KeptByFrames.exitLoop (hP : KeptByFrames P) (kernelFrame : Frame) (segment n : Nat)
    (h : P pool) : P (pool.exitLoop kernelFrame segment n) := by
  induction n generalizing pool segment with
  | zero => exact h
  | succ n ih =>
    unfold Pool.exitLoop
    refine ih _ ?_
    split
    · exact hP.mem _ _ (hP.kfree _ _ h)
    · exact h

theorem KeptByFrames.freeEntry (hP : KeptByFrames P) (kernelFrame : Frame) (segment : Nat)
    (h : P pool) : P (pool.freeEntry kernelFrame segment) := by
  unfold Pool.freeEntry
  split
  · exact hP.kfree _ _ h
  · exact h

theorem KeptByFrames.rollbackLoop (hP : KeptByFrames P) (kernelFrame : Frame) (segment : Nat)
    (h : P pool) : P (pool.rollbackLoop kernelFrame segment) := by
  induction segment generalizing pool with
  | zero => exact h
  | succ segment ih =>
    unfold Pool.rollbackLoop
    exact ih (hP.freeEntry _ _ h)

theorem KeptByFrames.forkRollback (hP : KeptByFrames P) (kernelFrame : Frame) (segment : Nat)
    (h : P pool) : P (pool.forkRollback kernelFrame segment) := by
  unfold Pool.forkRollback
  split
  · exact hP.rollbackLoop _ _ (hP.freeEntry _ _ h)
  · exact hP.rollbackLoop _ _ h

theorem KeptByFrames.freeDown (hP : KeptByFrames P) (table : Nat → Frame) (low segment : Nat)
    (h : P pool) : P (pool.freeDown table low segment).2 := by
  induction segment generalizing pool table with
  | zero => exact h
  | succ segment ih =>
    unfold Pool.freeDown
    split
    · split
      · exact ih _ (hP.kfree _ _ h)
      · exact ih _ h
    · exact h

theorem KeptByFrames.growLoop (hP : KeptByFrames P) (table : Nat → Frame) (old segment n : Nat)
    (h : P pool) : P (pool.growLoop table old segment n).2 := by
  induction n generalizing pool table segment with
  | zero => exact h
  | succ n ih =>
    unfold Pool.growLoop
    split
    · dsimp only
      split
      · exact hP.freeDown _ _ _ (hP.kalloc _ h)
      · exact ih _ _ (hP.kalloc _ h)
    · exact ih _ _ h

end Loops

/-- `FRAME_UNUSED` is on the free stack at its bottom, if at all. -/
def Bottomed (pool : Pool) : Prop :=
  ∃ pages, frameUnused ∉ pages ∧ (pool.free = pages ∨ pool.free = pages ++ [frameUnused])

theorem bottomed_kept : KeptByFrames Bottomed where
  kalloc pool h := by
    obtain ⟨pages, hUsed, hFree⟩ := h
    -- the bottom of the list is never handed out: `kalloc` stops above it
    cases pages with
    | nil =>
      refine ⟨[], hUsed, .inl ?_⟩
      rcases hFree with hEmpty | hUnused
      · simp [Pool.kalloc, hEmpty]
      · simp [Pool.kalloc, hUnused]
    | cons page pages =>
      refine ⟨pages, fun hMem => hUsed (List.mem_cons_of_mem _ hMem), ?_⟩
      rcases hFree with hPages | hPages
      · exact .inl (by simp [Pool.kalloc, hPages])
      · exact .inr (by simp [Pool.kalloc, hPages])
  kfree pool frame h := by
    obtain ⟨pages, hUsed, hFree⟩ := h
    unfold Pool.kfree
    split
    · exact ⟨pages, hUsed, hFree⟩
    · next hGuard =>
      refine ⟨frame :: pages, ?_, ?_⟩
      · simp only [List.mem_cons, not_or]
        exact ⟨fun hEq => hGuard (.inl hEq.symm), hUsed⟩
      · rcases hFree with hPages | hPages
        · exact .inl (congrArg _ hPages)
        · exact .inr (congrArg _ hPages)
  mem _ _ h := h

/-- So `kalloc` finds every page that is free. -/
theorem Bottomed.available {pool : Pool} (h : Bottomed pool) :
    ∃ pages : List Frame, frameUnused ∉ pages ∧ pool.available = pages.length ∧
      ∀ frame, frame ≠ frameUnused → pool.free.count frame = pages.count frame ∧
        (frame ∈ pages → frame ∈ pool.free) := by
  obtain ⟨pages, hUsed, hFree⟩ := h
  have hAll : ∀ frame ∈ pages, decide (frame ≠ frameUnused) = true :=
    fun frame hMem => decide_eq_true fun hEq => hUsed (hEq ▸ hMem)
  refine ⟨pages, hUsed, ?_, fun frame hFrame => ?_⟩
  · unfold Pool.available
    rcases hFree with hPages | hPages
    · rw [hPages, List.takeWhile_eq_self_iff.mpr hAll]
    · rw [hPages, List.takeWhile_append_of_pos hAll]
      simp
  · rcases hFree with hPages | hPages
    · rw [hPages]
      exact ⟨rfl, id⟩
    · rw [hPages, List.count_append, List.count_singleton]
      exact ⟨by simp [hFrame.symm], List.mem_append_left _⟩

end Pool

namespace KernelState

section Steps

variable {P : Pool → Prop} {k k' : KernelState}

theorem sbrk_frames (hP : Pool.KeptByFrames P) (increment : Word) (h : P k.pool) :
    P (k.sbrk increment).pool ∧ (k.sbrk increment).cache = k.cache := by
  unfold KernelState.sbrk
  dsimp only
  split
  · have hGrow := hP.growLoop (k.pool.entry k.self.kernelFrame) (segmentBelow k.self.top)
      (segmentBelow k.self.top)
      (segmentBelow (k.self.top + increment) + 1 - segmentBelow k.self.top) h
    generalize k.pool.growLoop _ _ _ _ = grown at hGrow
    obtain ⟨- | table, pool⟩ := grown
    · exact ⟨hGrow, rfl⟩
    · exact ⟨hP.mem _ _ hGrow, rfl⟩
  · split
    · exact ⟨hP.mem _ _ (hP.freeDown _ _ _ h), rfl⟩
    · exact ⟨hP.mem _ _ h, rfl⟩

theorem forkStart_frames (hP : Pool.KeptByFrames P) (h : P k.pool) :
    P k.forkStart.pool ∧ k.forkStart.cache = k.cache := by
  unfold KernelState.forkStart
  split
  · exact ⟨h, rfl⟩
  · unfold KernelState.forkInto
    dsimp only
    split
    · exact ⟨hP.kalloc _ h, rfl⟩
    · exact ⟨hP.mem _ _ (hP.mem _ _ (hP.kalloc _ h)), rfl⟩

theorem forkPage_frames (hP : Pool.KeptByFrames P) (child : Slot) (segment : Nat)
    (table : Nat → Frame) (h : P k.pool) :
    P (k.forkPage child segment table).pool ∧ (k.forkPage child segment table).cache = k.cache := by
  unfold KernelState.forkPage
  split
  · split
    · exact ⟨h, rfl⟩
    · dsimp only
      split
      · exact ⟨hP.kfree _ _ (hP.forkRollback _ _ (hP.kalloc _ h)), rfl⟩
      · exact ⟨hP.kalloc _ h, rfl⟩
  · exact ⟨h, rfl⟩

theorem exit_frames (hP : Pool.KeptByFrames P) (h : P k.pool) :
    P k.exit.pool ∧ k.exit.cache = k.cache := by
  have hPool : k.exit.pool = k.pool.exitLoop k.self.kernelFrame 0 pageTableSize := by
    simp only [KernelState.exit, KernelState.suspend, setSelf, KernelState.setProc]
  have hCache : k.exit.cache = k.cache := by
    simp only [KernelState.exit, KernelState.suspend, setSelf, KernelState.setProc]
  rw [hPool]
  exact ⟨hP.exitLoop _ _ _ h, hCache⟩

theorem waitTurn_frames (hP : Pool.KeptByFrames P) (h : P k.pool) :
    P k.waitTurn.pool ∧ k.waitTurn.cache = k.cache := by
  unfold KernelState.waitTurn
  split
  · exact ⟨hP.kfree _ _ h, rfl⟩
  · exact ⟨h, rfl⟩

/-- What `kalloc` and `kfree` keep, every action keeps; and the caches keep their frames. -/
theorem act_frames (hP : Pool.KeptByFrames P) {action : Action} (hStep : k.act action = some k')
    (h : P k.pool) : P k'.pool ∧ k'.cache = k.cache := by
  have hStore : ∀ {address byte}, k.userStore address byte = some k' →
      P k'.pool ∧ k'.cache = k.cache := by
    intro address byte hSome
    obtain ⟨-, ⟨⟩⟩ := Option.ite_none_left_eq_some.mp hSome
    exact ⟨hP.mem _ _ h, rfl⟩
  -- in the order of the actions; what an action does to the pool is made of `kalloc`, `kfree` and
  -- stores
  unfold KernelState.act at hStep
  split at hStep
  · exact hStore hStep
  · exact hStore hStep
  · obtain rfl := Option.some.inj hStep
    exact ⟨h, rfl⟩
  · obtain rfl := Option.some.inj hStep
    exact ⟨h, rfl⟩
  · obtain rfl := Option.some.inj hStep
    exact forkStart_frames hP h
  · obtain rfl := Option.some.inj hStep
    exact sbrk_frames hP _ h
  · obtain ⟨-, hSome⟩ := Option.ite_none_left_eq_some.mp hStep
    obtain rfl := Option.some.inj hSome
    exact exit_frames hP h
  · obtain rfl := Option.some.inj hStep
    exact ⟨h, rfl⟩
  · obtain ⟨-, hSome⟩ := Option.ite_none_left_eq_some.mp hStep
    obtain rfl := Option.some.inj hSome
    unfold KernelState.kill
    split
    · exact ⟨h, rfl⟩
    · exact ⟨h, rfl⟩
  · obtain rfl := Option.some.inj hStep
    exact forkPage_frames hP _ _ _ h
  · obtain rfl := Option.some.inj hStep
    exact ⟨hP.mem _ _ (hP.mem _ _ h), rfl⟩
  · obtain rfl := Option.some.inj hStep
    exact waitTurn_frames hP h
  · obtain rfl := Option.some.inj hStep
    exact ⟨h, rfl⟩
  · cases hStep

theorem Step.frames (hP : Pool.KeptByFrames P) {e : Occurrence} (hStep : k.Step e k')
    (h : P k.pool) : P k'.pool ∧ k'.cache = k.cache := by
  unfold Step at hStep
  cases e with
  | dispatch p =>
    obtain ⟨-, hSome⟩ := Option.ite_none_right_eq_some.mp hStep
    obtain rfl := Option.some.inj hSome
    exact ⟨h, rfl⟩
  | wakeup p =>
    obtain ⟨-, hSome⟩ := Option.ite_none_right_eq_some.mp hStep
    obtain rfl := Option.some.inj hSome
    exact ⟨h, rfl⟩
  | kernelStore p offset byte =>
    obtain ⟨-, hSome⟩ := Option.ite_none_right_eq_some.mp hStep
    obtain rfl := Option.some.inj hSome
    exact ⟨hP.mem _ _ h, rfl⟩
  | act action => exact act_frames hP (Option.ite_none_right_eq_some.mp hStep).2 h

/-- In every run the free stack ends in `FRAME_UNUSED`, and the caches have the frames of boot. -/
theorem reachable_frames {mem : Frame → Nat → Byte} {top : Word} {es : List Occurrence}
    (hRun : Run (Guarded Step Clean) (boot mem top) es k) :
    k.pool.Bottomed ∧ k.cache = (boot mem top).cache := by
  refine @Run.invariant _ _ _ _ _ _
    (fun k => k.pool.Bottomed ∧ k.cache = (boot mem top).cache) ?_ hRun ⟨?_, rfl⟩
  · rintro k e k' ⟨hBottomed, hCache⟩ ⟨hStep, -⟩
    obtain ⟨hNext, hSame⟩ := hStep.frames Pool.bottomed_kept hBottomed
    exact ⟨hNext, hSame.trans hCache⟩
  · refine ⟨(List.range 220).map fun i => BitVec.ofNat 8 (35 + i), by decide, .inr ?_⟩
    rw [boot_free, List.range_succ, List.map_append]
    rfl

end Steps

/-! ## §2 What the processes have -/

/-- The usable frames. -/
def pages : Finset Frame := (Finset.range 239).image fun i => BitVec.ofNat 8 (pageTableSize + i)

theorem mem_pages {frame : Frame} : frame ∈ pages ↔ Usable frame := by
  have hFrame := frame.isLt
  simp only [pages, Finset.mem_image, Finset.mem_range, Usable, pageTableSize]
  constructor
  · rintro ⟨i, hi, rfl⟩
    refine ⟨?_, fun hEq => ?_⟩
    · rw [BitVec.toNat_ofNat]
      omega
    · have hNat := congrArg BitVec.toNat hEq
      have hUnused : frameUnused.toNat = 255 := rfl
      rw [BitVec.toNat_ofNat, hUnused] at hNat
      omega
  · rintro ⟨hLow, hUsed⟩
    have hNe : frame.toNat ≠ 255 := fun hEq => hUsed (BitVec.eq_of_toNat_eq hEq)
    refine ⟨frame.toNat - 16, by omega, BitVec.eq_of_toNat_eq ?_⟩
    rw [BitVec.toNat_ofNat]
    omega

theorem card_pages : pages.card = 239 := by
  rw [pages, Finset.card_image_of_injOn, Finset.card_range]
  intro i hi j hj hEq
  simp only [Finset.coe_range, Set.mem_Iio] at hi hj
  have hNat := congrArg BitVec.toNat hEq
  simp only [BitVec.toNat_ofNat, pageTableSize] at hNat
  omega

theorem sum_count {frames : List Frame} (h : ∀ frame ∈ frames, Usable frame) :
    ∑ frame ∈ pages, frames.count frame = frames.length := by
  have hMem : ∀ frame ∈ (frames : Multiset Frame), frame ∈ pages :=
    fun frame hMem => mem_pages.mpr (h frame hMem)
  rw [← Multiset.coe_card, ← Multiset.sum_count_eq_card hMem]
  exact Finset.sum_congr rfl fun frame _ => (Multiset.coe_count frame frames).symm

/-- The number of segments that a page table maps. -/
def mapped (table : Nat → Frame) : Nat :=
  ((Finset.range pageTableSize).filter fun s => table s ≠ frameUnused).card

/-- The number of frames that a process has. -/
def footprint (k : KernelState) (p : Slot) : Nat :=
  if (k.procs p).state = .unused then 0
  else if (k.procs p).state = .zombie then 1
  else 1 + mapped (k.pool.entry (k.procs p).kernelFrame) +
    if (k.procs p).task.held.isSome then 1 else 0

section Accounts

variable {k : KernelState} {mem : Frame → Nat → Byte} {top : Word} {es : List Occurrence}

/-- Counted frame by frame, the entries of a page table are its mapped segments. -/
theorem sum_mappings {table : Nat → Frame} (h : ∀ s, s < pageTableSize → Handed (table s)) :
    ∑ frame ∈ pages, mappings table frame 0 pageTableSize = mapped table := by
  unfold mappings mapped
  rw [Finset.sum_comm, Finset.card_filter, Nat.Ico_zero_eq_range]
  refine Finset.sum_congr rfl fun s hs => ?_
  have hEntry := h s (Finset.mem_range.mp hs)
  rw [Finset.sum_ite_eq]
  by_cases hUsed : table s = frameUnused
  · rw [if_neg fun hMem => (mem_pages.mp hMem).2 hUsed, if_neg (not_not.mpr hUsed)]
  · rw [if_pos (mem_pages.mpr ⟨hEntry, hUsed⟩), if_pos hUsed]

/-- Counted frame by frame, the places of a process are its footprint. -/
theorem sum_places (hOwned : Owned k) (hTabled : Tabled k) (p : Slot) :
    ∑ frame ∈ pages, k.pool.places (k.procs p) frame = k.footprint p := by
  unfold footprint
  by_cases hUnused : (k.procs p).state = .unused
  · simp [Pool.places, hUnused]
  · have hStack : ∑ frame ∈ pages, (if (k.procs p).kernelFrame = frame then 1 else 0) = 1 := by
      rw [Finset.sum_ite_eq, if_pos (mem_pages.mpr (hOwned.stack p hUnused))]
    by_cases hZombie : (k.procs p).state = .zombie
    · simp only [Pool.places, hZombie, reduceCtorEq, if_false, if_true]
      exact hStack
    · have hHeld : ∑ frame ∈ pages, (if (k.procs p).task.held = some frame then 1 else 0) =
          if (k.procs p).task.held.isSome then 1 else 0 := by
        cases hSome : (k.procs p).task.held with
        | none => simp
        | some frame =>
          simp only [Option.some.injEq, Option.isSome_some, if_true]
          rw [Finset.sum_ite_eq, if_pos (mem_pages.mpr (hTabled.held p frame hSome))]
      simp only [places_live hUnused hZombie, Finset.sum_add_distrib]
      rw [hStack, sum_mappings (hTabled.entries p ⟨hUnused, hZombie⟩), hHeld, if_neg hUnused,
        if_neg hZombie]

/-- **The memory is conserved**: in every state that a kernel reaches from boot without one of the
    rollbacks that go wrong, the free pages and the frames of the processes are 222, those behind
    the caches. So `kalloc` fails exactly when the processes have all of them. -/
theorem memory_accounts (hRun : Run (Guarded Step Clean) (boot mem top) es k) :
    k.pool.available + ∑ p, k.footprint p = 222 ∧
      (k.pool.kalloc.1 = frameUnused ↔ ∑ p, k.footprint p = 222) := by
  obtain ⟨hOwned, hTabled⟩ := reachable_tabled hRun
  obtain ⟨hBottomed, hCache⟩ := reachable_frames hRun
  obtain ⟨free, hUsed, hAvailable, hCount⟩ := hBottomed.available
  have hFree : ∑ frame ∈ pages, k.pool.free.count frame = k.pool.available := by
    have hUsable : ∀ frame ∈ free, Usable frame := by
      intro frame hMem
      have hNe : frame ≠ frameUnused := fun hEq => hUsed (hEq ▸ hMem)
      exact ⟨hOwned.free frame ((hCount frame hNe).2 hMem), hNe⟩
    rw [hAvailable, ← sum_count hUsable]
    exact Finset.sum_congr rfl fun frame hPage => (hCount frame (mem_pages.mp hPage).2).1
  -- boot has given seventeen frames to the caches, and nobody gives one back
  have hCaches : ∑ frame ∈ pages, k.cache.count frame = 17 := by
    have hUsable : ∀ frame ∈ (boot mem top).cache, Usable frame := by
      rw [boot_cache]
      unfold Usable
      decide
    rw [hCache, sum_count hUsable, boot_cache]
    rfl
  -- every usable frame has exactly one place
  have hAll : ∑ frame ∈ pages, k.occurrences frame = 239 := by
    rw [Finset.sum_congr rfl fun frame hPage => hOwned.partition frame (mem_pages.mp hPage),
      Finset.sum_const, card_pages]
    rfl
  have hTotal : k.pool.available + ∑ p, k.footprint p = 222 := by
    have hProcs : ∑ p, ∑ frame ∈ pages, k.pool.places (k.procs p) frame = ∑ p, k.footprint p :=
      Finset.sum_congr rfl fun p _ => sum_places hOwned hTabled p
    unfold occurrences at hAll
    rw [Finset.sum_add_distrib, Finset.sum_add_distrib, hFree, hCaches, Finset.sum_comm,
      hProcs] at hAll
    omega
  refine ⟨hTotal, ?_⟩
  rw [Pool.kalloc_eq_unused_iff]
  omega

end Accounts

/-- "init" has been dispatched and has begun to fork. -/
theorem memory_accounts_fork :
    ∃ k, Run (Guarded Step Clean) (boot (fun _ _ => 0) 0x0400) [.dispatch initSlot, .act .fork] k ∧
      k.pool.available + ∑ p, k.footprint p = 222 := by
  have hRun : Run (Guarded Step Clean) (boot (fun _ _ => 0) 0x0400)
      [.dispatch initSlot, .act .fork] _ :=
    .cons ⟨rfl, trivial⟩ (.cons ⟨rfl, trivial⟩ (.nil _))
  exact ⟨_, hRun, (memory_accounts hRun).1⟩

end KernelState

end Xv6502.Kernel
