import Xv6502.Kernel.FrameRuns

/-!
# `sys_sbrk` Moves the Break Exactly

`sys_sbrk` adds a signed increment to the top of a process, maps the segments that are missing
and frees those that are left behind. The sum `old_top + increment` is one of 16 bits under cc65,
widened to `int32_t` only when it is stored, so that the test of `overflow_check` never fires: a
break below 0 or above `0xFFFF` wraps around and is taken for a good one.

`sbrk_exact_iff` says that this is the only thing that goes wrong, for a process whose page table
fits its top: as long as the sum stays in range, the call moves the break exactly, or reports that
memory has run out and leaves everything as it was.
-/

namespace Xv6502.Kernel.KernelState

open Xv6502.Emulator
open Xv6502.Lib

/-! ## §1 The call with its result -/

/-- The page table of the current process. -/
def table (k : KernelState) : Nat → Frame := k.pool.entry k.self.kernelFrame

/-- `proc_set_page_table` and `proc_set_top` at the end of the call. -/
def commitBreak (k : KernelState) (newTop : Word) (table : Nat → Frame) (pool : Pool) :
    KernelState :=
  { k.setSelf fun e => { e with top := newTop } with
    pool := pool.setTable k.self.kernelFrame table }

/-- `sys_sbrk`, with the value it returns in AX. -/
def sysSbrk (k : KernelState) (increment : Word) : Word × KernelState :=
  let oldTop := k.self.top
  -- an `unsigned int` and an `int` add up to an `unsigned int`, of 16 bits
  let overflowCheck : Int := (oldTop + increment).toNat
  if overflowCheck ≥ 0x10000 ∨ overflowCheck < 0 then (-1, k)
  else
    let newTop := BitVec.ofInt 16 overflowCheck
    let oldSegment := segmentBelow oldTop
    let newSegment := segmentBelow newTop
    if 0 < increment.toInt then
      match k.pool.growLoop k.table oldSegment oldSegment (newSegment + 1 - oldSegment) with
      | (some table, pool) => (oldTop, k.commitBreak newTop table pool)
      | (none, pool) => (-1, { k with pool := pool })
    else if increment.toInt < 0 then
      let (table, pool) := k.pool.freeDown k.table newSegment oldSegment
      (oldTop, k.commitBreak newTop table pool)
    else (oldTop, k.commitBreak newTop k.table k.pool)

/-! ## §2 What the call promises -/

/-- The process maps segment 0 and the segments below its top, and no others. -/
def Fits (k : KernelState) : Prop :=
  ∀ s, s < pageTableSize → (k.table s ≠ frameUnused ↔ s = 0 ∨ s * 0x1000 < k.self.top.toNat)

/-- The number of segments below a new top that are not mapped. -/
def missing (k : KernelState) (newTop : Int) : Nat :=
  ((Finset.range pageTableSize).filter fun s : Nat =>
    (s * 0x1000 : Int) < newTop ∧ k.table s = frameUnused).card

/-- How often a frame is in the first page table at a segment that the second leaves unmapped. -/
def onlyIn (table table' : Nat → Frame) (frame : Frame) : Nat :=
  ((Finset.range pageTableSize).filter fun s => table s = frame ∧ table' s = frameUnused).card

/-- The break has moved: the new segments have got frames of the pool, the frames of the dropped
    ones are back in it, and the other segments keep theirs. -/
structure Moved (k : KernelState) (newTop : Int) (result : Word) (k' : KernelState) : Prop where
  result : result = k.self.top
  top : (k'.self.top.toNat : Int) = newTop
  mapped : k'.Fits
  kept : ∀ s, s < pageTableSize → k.table s ≠ frameUnused → k'.table s ≠ frameUnused →
    k'.table s = k.table s
  frames : ∀ frame, Usable frame →
    k'.pool.free.count frame + onlyIn k'.table k.table frame =
      k.pool.free.count frame + onlyIn k.table k'.table frame

/-- The call has failed: it returns -1, and nothing has changed. -/
structure Refused (k : KernelState) (result : Word) (k' : KernelState) : Prop where
  result : result = -1
  top : k'.self.top = k.self.top
  table : ∀ s, s < pageTableSize → k'.table s = k.table s
  frames : ∀ frame, Usable frame → k'.pool.free.count frame = k.pool.free.count frame

/-- The break moves exactly or not at all. -/
def Exact (k : KernelState) (increment : Word) : Prop :=
  let newTop : Int := k.self.top.toNat + increment.toInt
  let (result, k') := k.sysSbrk increment
  if 0 ≤ newTop ∧ newTop ≤ 0xFFFF ∧ k.missing newTop ≤ k.pool.available then
    Moved k newTop result k'
  else Refused k result k'

/-! ## §3 The arithmetic -/

/-- The test of the overflow never fires. -/
theorem sysSbrk_eq (k : KernelState) (increment : Word) :
    k.sysSbrk increment =
      if 0 < increment.toInt then
        match k.pool.growLoop k.table (segmentBelow k.self.top) (segmentBelow k.self.top)
            (segmentBelow (k.self.top + increment) + 1 - segmentBelow k.self.top) with
        | (some table, pool) => (k.self.top, k.commitBreak (k.self.top + increment) table pool)
        | (none, pool) => (-1, { k with pool := pool })
      else if increment.toInt < 0 then
        let (table, pool) := k.pool.freeDown k.table (segmentBelow (k.self.top + increment))
          (segmentBelow k.self.top)
        (k.self.top, k.commitBreak (k.self.top + increment) table pool)
      else (k.self.top, k.commitBreak (k.self.top + increment) k.table k.pool) := by
  have hRange := (k.self.top + increment).isLt
  unfold sysSbrk
  dsimp only
  rw [if_neg (by omega), BitVec.ofInt_natCast, BitVec.ofNat_toNat, BitVec.setWidth_eq]

/-- The call does to the kernel what the model of the frames says. -/
theorem sysSbrk_state (k : KernelState) (increment : Word) :
    (k.sysSbrk increment).2 = k.sbrk increment := by
  rw [sysSbrk_eq]
  unfold KernelState.sbrk table
  dsimp only
  split
  · generalize k.pool.growLoop _ _ _ _ = grown
    rcases grown with ⟨- | table, pool⟩ <;> rfl
  · split <;> rfl

theorem segmentBelow_eq (top : Word) : segmentBelow top = (top.toNat - 1) / 0x1000 := by
  unfold segmentBelow
  split
  · next hZero => rw [hZero]; rfl
  · next hNe =>
    have hPos : top.toNat ≠ 0 := fun hZero => hNe (BitVec.eq_of_toNat_eq hZero)
    have hTop := top.isLt
    rw [BitVec.toNat_sub, show (1 : Word).toNat = 1 from rfl]
    congr 1
    omega

/-- The 16-bit sum is the sum of the integers, or it is off by the whole address space. -/
theorem toNat_add_toInt (top increment : Word) :
    ((top + increment).toNat : Int) = top.toNat + increment.toInt ∨
      ((top + increment).toNat : Int) = top.toNat + increment.toInt - 0x10000 ∨
      ((top + increment).toNat : Int) = top.toNat + increment.toInt + 0x10000 := by
  have hTop := top.isLt
  have hIncrement := increment.isLt
  rw [BitVec.toNat_add, BitVec.toInt_eq_toNat_cond]
  split <;> omega

theorem toInt_range (increment : Word) :
    -0x8000 ≤ increment.toInt ∧ increment.toInt < 0x8000 := by
  have hIncrement := increment.isLt
  rw [BitVec.toInt_eq_toNat_cond]
  split <;> omega

/-! ## §4 Frames that change hands -/

section Account

variable {k : KernelState} {increment : Word}

theorem onlyIn_balance {table table' : Nat → Frame} {frame : Frame} (hf : Usable frame)
    (hKept : ∀ s, s < pageTableSize → table s ≠ frameUnused → table' s ≠ frameUnused →
      table' s = table s) :
    mappings table' frame 0 pageTableSize + onlyIn table table' frame =
      mappings table frame 0 pageTableSize + onlyIn table' table frame := by
  unfold onlyIn mappings
  rw [Finset.card_filter, Finset.card_filter, ← Nat.Ico_zero_eq_range, ← Finset.sum_add_distrib,
    ← Finset.sum_add_distrib]
  apply Finset.sum_congr rfl
  intro s hs
  have hLt := (Finset.mem_Ico.mp hs).2
  have hNe := hf.2
  by_cases hOld : table s = frameUnused
  · by_cases hNew : table' s = frameUnused
    · simp [hOld, hNew, hNe.symm]
    · simp [hOld, hNew, hNe.symm]
  · by_cases hNew : table' s = frameUnused
    · simp [hOld, hNew, hNe.symm]
    · rw [hKept s hLt hOld hNew]

theorem commitBreak_table {newTop : Word} {table : Nat → Frame} {pool : Pool} {s : Nat}
    (hs : s < pageTableSize) : (k.commitBreak newTop table pool).table s = table s := by
  have hFrame : (k.commitBreak newTop table pool).self.kernelFrame = k.self.kernelFrame := by
    simp [commitBreak, self, setSelf, setProc]
  unfold KernelState.table
  rw [hFrame]
  exact Pool.entry_setTable hs

theorem commitBreak_top (newTop : Word) (table : Nat → Frame) (pool : Pool) :
    (k.commitBreak newTop table pool).self.top = newTop := by
  simp [commitBreak, self, setSelf, setProc]

/-- **Commit**: a table that fits the new top, keeps what it can and balances the pool. -/
theorem moved_of_commit {newTop : Word} {table : Nat → Frame} {pool : Pool}
    (hMapped : ∀ s, s < pageTableSize →
      (table s ≠ frameUnused ↔ s = 0 ∨ s * 0x1000 < newTop.toNat))
    (hKept : ∀ s, s < pageTableSize → k.table s ≠ frameUnused → table s ≠ frameUnused →
      table s = k.table s)
    (hCount : ∀ frame, Usable frame →
      pool.free.count frame + mappings table frame 0 pageTableSize =
        k.pool.free.count frame + mappings k.table frame 0 pageTableSize) :
    Moved k newTop.toNat k.self.top (k.commitBreak newTop table pool) where
  result := rfl
  top := by rw [commitBreak_top]
  mapped := by
    intro s hs
    rw [commitBreak_table hs, commitBreak_top]
    exact hMapped s hs
  kept := by
    intro s hs hOld hNew
    rw [commitBreak_table hs] at hNew ⊢
    exact hKept s hs hOld hNew
  frames := by
    intro frame hf
    have hSame : ∀ s, s ∈ Finset.range pageTableSize →
        (k.commitBreak newTop table pool).table s = table s :=
      fun s hs => commitBreak_table (Finset.mem_range.mp hs)
    -- the table stored is the one that the loop has left
    have hGained : onlyIn (k.commitBreak newTop table pool).table k.table frame =
        onlyIn table k.table frame := by
      unfold onlyIn
      rw [Finset.filter_congr fun s hs => by rw [hSame s hs]]
    have hDropped : onlyIn k.table (k.commitBreak newTop table pool).table frame =
        onlyIn k.table table frame := by
      unfold onlyIn
      rw [Finset.filter_congr fun s hs => by rw [hSame s hs]]
    have hBalance := onlyIn_balance hf hKept
    have hFree := hCount frame hf
    rw [hGained, hDropped]
    show pool.free.count frame + _ = _
    omega

/-- The segments that are missing for a higher top are those the growing loop meets. -/
theorem missing_eq (h : k.Fits) {newTop : Word} (hUp : k.self.top.toNat ≤ newTop.toNat) :
    k.missing newTop.toNat =
      mappings k.table frameUnused (segmentBelow k.self.top) (segmentBelow newTop + 1) := by
  have hNew := segmentBelow_lt newTop
  rw [segmentBelow_eq] at hNew
  unfold missing mappings
  rw [← Finset.card_filter, segmentBelow_eq, segmentBelow_eq]
  congr 1
  ext s
  simp only [Finset.mem_filter, Finset.mem_range, Finset.mem_Ico]
  constructor
  · rintro ⟨hs, hBelow, hUnused⟩
    have hNot := mt (h s hs).mpr (not_not.mpr hUnused)
    refine ⟨?_, hUnused⟩
    omega
  · rintro ⟨hs, hUnused⟩
    have hLt : s < pageTableSize := by omega
    have hNot := mt (h s hLt).mpr (not_not.mpr hUnused)
    refine ⟨hLt, ?_, hUnused⟩
    omega

/-- Nothing is missing for a lower top. -/
theorem missing_eq_zero (h : k.Fits) {newTop : Int} (hDown : newTop ≤ k.self.top.toNat) :
    k.missing newTop = 0 := by
  unfold missing
  rw [Finset.card_eq_zero, Finset.filter_eq_empty_iff]
  rintro s hs ⟨hBelow, hUnused⟩
  have hNot := mt (h s (Finset.mem_range.mp hs)).mpr (not_not.mpr hUnused)
  omega

/-! ## §5 The three ways through the call -/

/-- The break goes up. -/
theorem grow_exact (h : k.Fits) (hStack : Usable k.self.kernelFrame)
    (hFree : k.self.kernelFrame ∉ k.pool.free)
    (hTop : ((k.self.top + increment).toNat : Int) = k.self.top.toNat + increment.toInt)
    (hGrow : 0 < increment.toInt) : k.Exact increment := by
  have hUp : k.self.top.toNat ≤ (k.self.top + increment).toNat := by omega
  have hNew := segmentBelow_lt (k.self.top + increment)
  have hRange := (k.self.top + increment).isLt
  have hOld : segmentBelow k.self.top ≤ segmentBelow (k.self.top + increment) := by
    rw [segmentBelow_eq, segmentBelow_eq]
    omega
  have hTurns : segmentBelow k.self.top +
      (segmentBelow (k.self.top + increment) + 1 - segmentBelow k.self.top) =
        segmentBelow (k.self.top + increment) + 1 := by omega
  unfold Exact
  rw [sysSbrk_eq, if_pos hGrow, ← hTop]
  dsimp only
  rw [missing_eq h hUp]
  cases hLoop : k.pool.growLoop k.table (segmentBelow k.self.top) (segmentBelow k.self.top)
      (segmentBelow (k.self.top + increment) + 1 - segmentBelow k.self.top) with
  | mk result pool =>
    cases result with
    | some table =>
      obtain ⟨hMapped, hEnough⟩ := Pool.growLoop_mapped hLoop
      have hGrown := Pool.growLoop_grown hLoop
      rw [hTurns] at hMapped hEnough hGrown
      rw [if_pos ⟨by omega, by omega, hEnough⟩]
      apply moved_of_commit
      · intro s hs
        have hFits := h s hs
        rw [segmentBelow_eq] at hMapped hGrown
        rw [segmentBelow_eq] at hMapped hGrown
        -- below the old segment and above the new one the table is what it was
        by_cases hIn : (k.self.top.toNat - 1) / 0x1000 ≤ s ∧
            s < ((k.self.top + increment).toNat - 1) / 0x1000 + 1
        · have := hMapped s hIn.1 hIn.2
          refine iff_of_true this ?_
          omega
        · rw [hGrown.entry s (by omega), hFits]
          omega
      · exact fun s _ hMap _ => hGrown.entry s (.inr (.inr hMap))
      · exact fun frame hf => hGrown.count frame hf 0 pageTableSize (Nat.zero_le _) (by omega)
    | none =>
      have hShort := Pool.growLoop_short hLoop
      rw [hTurns] at hShort
      rw [if_neg (by omega)]
      -- the old segment is mapped, and no segment above it is
      have hEmpty : ∀ s, segmentBelow k.self.top < s → s ≤ segmentBelow (k.self.top + increment) →
          k.table s = frameUnused := by
        intro s hs hs'
        by_contra hMapped
        have hBelow := (h s (by omega)).mp hMapped
        rw [segmentBelow_eq] at hs
        omega
      have hFirst : k.table (segmentBelow k.self.top) ≠ frameUnused := by
        rw [h _ (by omega), segmentBelow_eq]
        omega
      rcases Pool.growLoop_cases k.pool k.table (segmentBelow k.self.top)
          (segmentBelow k.self.top)
          (segmentBelow (k.self.top + increment) + 1 - segmentBelow k.self.top) with
        ⟨_, _, hOther, _⟩ | ⟨stop, table', pool', hStop, ⟨hLe, -⟩, hGrown, hNone, hOther⟩
      · rw [hLoop] at hOther
        cases hOther
      · rw [hLoop] at hOther
        cases hOther
        have hBack : ∀ frame, Usable frame → _ := fun frame hf =>
          hGrown.rollback hLe (hGrown.entry _ (.inr (.inr hFirst)))
            (fun s hs hs' => hEmpty s hs (by omega)) hNone hf
        refine ⟨rfl, rfl, ?_, fun frame hf => (hBack frame hf).1⟩
        intro s _
        show (Pool.freeDown _ _ _ _).2.mem k.self.kernelFrame _ = _
        rw [(hBack _ hStack).2 hFree]
        rfl

/-- The break goes down. -/
theorem shrink_exact (h : k.Fits)
    (hTop : ((k.self.top + increment).toNat : Int) = k.self.top.toNat + increment.toInt)
    (hShrink : increment.toInt < 0) : k.Exact increment := by
  have hRange := (k.self.top + increment).isLt
  have hOld := segmentBelow_lt k.self.top
  unfold Exact
  rw [sysSbrk_eq, if_neg (by omega), if_pos hShrink, ← hTop]
  dsimp only
  rw [if_pos ⟨by omega, by omega, by rw [missing_eq_zero h (by omega)]; exact Nat.zero_le _⟩]
  have hTable := Pool.freeDown_table k.pool k.table (segmentBelow (k.self.top + increment))
    (segmentBelow k.self.top)
  apply moved_of_commit
  · intro s hs
    have hFits := h s hs
    rw [hTable s, segmentBelow_eq, segmentBelow_eq]
    -- a segment above the new top, or one that both tables have
    by_cases hDropped : ((k.self.top + increment).toNat - 1) / 0x1000 < s ∧
        s ≤ (k.self.top.toNat - 1) / 0x1000
    · rw [if_pos hDropped]
      refine iff_of_false (not_not.mpr rfl) ?_
      omega
    · rw [if_neg hDropped, hFits]
      omega
  · intro s _ _ hMapped
    rw [hTable s] at hMapped ⊢
    split
    · next hDropped =>
      rw [if_pos hDropped] at hMapped
      exact absurd rfl hMapped
    · rfl
  · exact fun frame hf => Pool.freeDown_balance _ _ hOld hf

/-- The break stays. -/
theorem stay_exact (h : k.Fits)
    (hTop : ((k.self.top + increment).toNat : Int) = k.self.top.toNat + increment.toInt)
    (hStay : increment.toInt = 0) : k.Exact increment := by
  have hRange := (k.self.top + increment).isLt
  unfold Exact
  rw [sysSbrk_eq, if_neg (by omega), if_neg (by omega), ← hTop]
  dsimp only
  rw [if_pos ⟨by omega, by omega, by rw [missing_eq_zero h (by omega)]; exact Nat.zero_le _⟩]
  apply moved_of_commit
  · intro s hs
    rw [show (k.self.top + increment).toNat = k.self.top.toNat by omega]
    exact h s hs
  · exact fun _ _ _ _ => rfl
  · exact fun _ _ => rfl

/-- A break out of range is taken for a good one: the call changes the top. -/
theorem wrapped_top (hWrap : ((k.self.top + increment).toNat : Int) ≠
      k.self.top.toNat + increment.toInt) :
    (k.sysSbrk increment).2.self.top ≠ k.self.top := by
  have hRange := toInt_range increment
  have hTop := k.self.top.isLt
  have hNewTop := (k.self.top + increment).isLt
  have hSum := toNat_add_toInt k.self.top increment
  -- the increment is not 0, so the 16-bit sum is another address
  have hMoved : k.self.top + increment ≠ k.self.top := by
    intro hEq
    rw [hEq] at hSum hWrap
    omega
  rw [sysSbrk_eq]
  by_cases hGrow : 0 < increment.toInt
  · -- the new segment is below the old one, so the loop does not even start
    have hTurns : segmentBelow (k.self.top + increment) + 1 - segmentBelow k.self.top = 0 := by
      rw [segmentBelow_eq, segmentBelow_eq]
      omega
    rw [if_pos hGrow, hTurns]
    show (k.commitBreak _ _ _).self.top ≠ _
    rw [commitBreak_top]
    exact hMoved
  · rw [if_neg hGrow]
    split
    · show (k.commitBreak _ _ _).self.top ≠ _
      rw [commitBreak_top]
      exact hMoved
    · show (k.commitBreak _ _ _).self.top ≠ _
      rw [commitBreak_top]
      exact hMoved

end Account

/-! ## §6 The call -/

/-- A break out of range is not refused. -/
theorem wrapped_not_exact {k : KernelState} {increment : Word}
    (hOut : (k.self.top.toNat : Int) + increment.toInt < 0 ∨
      0xFFFF < (k.self.top.toNat : Int) + increment.toInt) : ¬ k.Exact increment := by
  have hNewTop := (k.self.top + increment).isLt
  have hWrap : ((k.self.top + increment).toNat : Int) ≠ k.self.top.toNat + increment.toInt := by
    omega
  intro hExact
  unfold Exact at hExact
  dsimp only at hExact
  rw [if_neg (by omega)] at hExact
  exact wrapped_top hWrap hExact.top

/-- **For a process whose page table fits its top, `sys_sbrk` moves the break exactly or not at
    all if and only if the new top, over the integers, is an address.** A sum that wraps around is
    a smaller top than the old one for a growth, or a larger one for a shrinking, which the loops
    take for the other direction. -/
theorem sbrk_exact_iff (k : KernelState) (increment : Word) (h : k.Fits)
    (hStack : Usable k.self.kernelFrame) (hFree : k.self.kernelFrame ∉ k.pool.free) :
    k.Exact increment ↔
      0 ≤ (k.self.top.toNat : Int) + increment.toInt ∧
        (k.self.top.toNat : Int) + increment.toInt ≤ 0xFFFF := by
  have hSum := toNat_add_toInt k.self.top increment
  have hNewTop := (k.self.top + increment).isLt
  constructor
  · intro hExact
    by_contra hOut
    exact wrapped_not_exact (by omega) hExact
  · intro hIn
    have hTop : ((k.self.top + increment).toNat : Int) = k.self.top.toNat + increment.toInt := by
      omega
    rcases lt_trichotomy increment.toInt 0 with hShrink | hStay | hGrow
    · exact shrink_exact h hTop hShrink
    · exact stay_exact h hTop hStay
    · exact grow_exact h hStack hFree hTop hGrow

theorem firstDispatch_top : firstDispatch.self.top = 0x0400 := by
  rfl

/-- The page table of "init" fits its top. -/
theorem firstDispatch_fits : firstDispatch.Fits := by
  intro s hs
  have hEntry : firstDispatch.table s = if s = 0 then 34 else frameUnused :=
    boot_entry (fun _ _ => 0) 0x0400 hs
  rw [hEntry, firstDispatch_top, show (0x0400 : Word).toNat = 0x0400 from rfl]
  by_cases hZero : s = 0
  · rw [if_pos hZero]
    exact iff_of_true (by decide) (.inl hZero)
  · rw [if_neg hZero]
    exact iff_of_false (not_not.mpr rfl) (by omega)

theorem firstDispatch_stack :
    Usable firstDispatch.self.kernelFrame ∧
      firstDispatch.self.kernelFrame ∉ firstDispatch.pool.free := by
  have hFrame : firstDispatch.self.kernelFrame = 33 := by rfl
  have hPool : firstDispatch.pool.free = (List.range 221).map fun i => BitVec.ofNat 8 (35 + i) :=
    boot_free (fun _ _ => 0) 0x0400
  rw [hFrame, hPool]
  exact ⟨⟨by decide, by decide⟩, by decide⟩

/-- "init" gets three more segments. -/
theorem init_grows :
    firstDispatch.Fits ∧ firstDispatch.Exact 0x3000 := by
  refine ⟨firstDispatch_fits, ?_⟩
  rw [sbrk_exact_iff firstDispatch 0x3000 firstDispatch_fits firstDispatch_stack.1
    firstDispatch_stack.2, firstDispatch_top]
  decide

/-- "init" gives back more than it has: its top wraps around, and the call returns the old one. -/
theorem init_break_wraps :
    firstDispatch.Fits ∧ Usable firstDispatch.self.kernelFrame ∧
      firstDispatch.self.kernelFrame ∉ firstDispatch.pool.free ∧
      (firstDispatch.sysSbrk (-0x1000)).1 = 0x0400 ∧
      (firstDispatch.sysSbrk (-0x1000)).2.self.top = 0xF400 ∧
      ¬ firstDispatch.Exact (-0x1000) := by
  refine ⟨firstDispatch_fits, firstDispatch_stack.1, firstDispatch_stack.2, ?_, ?_, ?_⟩
  · rw [sysSbrk_eq, if_neg (by decide), if_pos (by decide)]
    exact firstDispatch_top
  · rw [sysSbrk_eq, if_neg (by decide), if_pos (by decide)]
    dsimp only
    rw [commitBreak_top, firstDispatch_top]
    decide
  · apply wrapped_not_exact
    rw [firstDispatch_top]
    decide

end Xv6502.Kernel.KernelState
