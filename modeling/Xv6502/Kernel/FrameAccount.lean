import Xv6502.Kernel.Frames
import Mathlib.Algebra.BigOperators.Intervals
import Mathlib.Tactic.Linarith

/-!
# The Accounts of the Frame Loops

What `kalloc`, `kfree` and the loops of `sys_exit` and `sys_sbrk` do to the number of times a
usable frame is on the free stack and in a page table, and which frames of memory they write
to. The accounts need no invariant: they hold of every pool and every page table.
-/

namespace Xv6502.Kernel

open Xv6502.Emulator

/-- The frames 16..254, which `kalloc` hands out. -/
def Usable (frame : Frame) : Prop := pageTableSize ≤ frame.toNat ∧ frame ≠ frameUnused

/-! ## §1 Entries of a page table -/

/-- The number of segments in `[low, high)` that a table maps to a frame. -/
def mappings (table : Nat → Frame) (frame : Frame) (low high : Nat) : Nat :=
  ∑ segment ∈ Finset.Ico low high, if table segment = frame then 1 else 0

section Mappings

variable {table table' : Nat → Frame} {frame : Frame} {low mid high segment : Nat}

@[simp] theorem mappings_self : mappings table frame low low = 0 := by
  simp [mappings]

theorem mappings_succ (h : low ≤ high) :
    mappings table frame low (high + 1) =
      mappings table frame low high + if table high = frame then 1 else 0 :=
  Finset.sum_Ico_succ_top h _

theorem mappings_first (h : low < high) :
    mappings table frame low high =
      (if table low = frame then 1 else 0) + mappings table frame (low + 1) high :=
  Finset.sum_eq_sum_Ico_succ_bot h _

theorem mappings_split (h : low ≤ mid) (h' : mid ≤ high) :
    mappings table frame low mid + mappings table frame mid high =
      mappings table frame low high :=
  Finset.sum_Ico_consecutive _ h h'

theorem mappings_congr (h : ∀ s, low ≤ s → s < high → table' s = table s) :
    mappings table' frame low high = mappings table frame low high := by
  apply Finset.sum_congr rfl
  intro s hs
  rw [h s (Finset.mem_Ico.mp hs).1 (Finset.mem_Ico.mp hs).2]

theorem mappings_eq_zero (h : ∀ s, low ≤ s → s < high → table s ≠ frame) :
    mappings table frame low high = 0 := by
  apply Finset.sum_eq_zero
  intro s hs
  simp [h s (Finset.mem_Ico.mp hs).1 (Finset.mem_Ico.mp hs).2]

theorem mappings_pos (hLow : low ≤ segment) (hHigh : segment < high)
    (h : table segment = frame) : 0 < mappings table frame low high := by
  rw [← mappings_split hLow hHigh.le, mappings_first hHigh]
  simp [h]

/-- Storing an entry moves one mapping from the old frame to the new one. -/
theorem mappings_update (g : Frame) (hLow : low ≤ segment) (hHigh : segment < high) :
    mappings (Function.update table segment g) frame low high +
        (if table segment = frame then 1 else 0) =
      mappings table frame low high + if g = frame then 1 else 0 := by
  have hBelow : mappings (Function.update table segment g) frame low segment =
      mappings table frame low segment :=
    mappings_congr fun s _ hs => Function.update_of_ne hs.ne _ _
  have hAbove : mappings (Function.update table segment g) frame (segment + 1) high =
      mappings table frame (segment + 1) high :=
    mappings_congr fun s hs _ => Function.update_of_ne (by omega) _ _
  rw [← mappings_split hLow hHigh.le, ← mappings_split hLow hHigh.le,
    mappings_first hHigh, mappings_first hHigh, hBelow, hAbove, Function.update_self]
  omega

end Mappings

namespace Pool

variable {pool : Pool} {frame : Frame}

/-! ## §2 `kalloc` and `kfree` -/

/-- How many calls of `kalloc` succeed before memory runs out. -/
def available (pool : Pool) : Nat := (pool.free.takeWhile (· ≠ frameUnused)).length

@[simp] theorem kalloc_mem : pool.kalloc.2.mem = pool.mem := by
  unfold kalloc
  split <;> rfl

@[simp] theorem kalloc_entry : pool.kalloc.2.entry = pool.entry := by
  funext pcb s
  simp [entry]

theorem kalloc_free_subset : pool.kalloc.2.free ⊆ pool.free := by
  unfold kalloc
  split
  · exact fun _ h => h
  · next h =>
    rw [h]
    exact List.subset_cons_self _ _

theorem kalloc_mem_free (h : pool.kalloc.1 ≠ frameUnused) : pool.kalloc.1 ∈ pool.free := by
  unfold kalloc at h ⊢
  split at h
  · exact absurd rfl h
  · next hFree => simp [hFree]

theorem kalloc_eq_unused_iff : pool.kalloc.1 = frameUnused ↔ pool.available = 0 := by
  unfold kalloc available
  split
  · next hFree => simp [hFree]
  · next f rest hFree =>
    simp only [hFree, List.takeWhile_cons]
    by_cases hf : f = frameUnused <;> simp [hf]

theorem kalloc_available (h : pool.kalloc.1 ≠ frameUnused) :
    pool.kalloc.2.available + 1 = pool.available := by
  unfold kalloc available at *
  split at h
  · exact absurd rfl h
  · next f rest hFree => simp_all

/-- `kalloc` takes the frame it returns from the free stack. -/
theorem kalloc_count (hf : Usable frame) :
    pool.kalloc.2.free.count frame + (if pool.kalloc.1 = frame then 1 else 0) =
      pool.free.count frame := by
  unfold kalloc
  split
  · next hFree => simp [hFree, hf.2.symm]
  · next hFree => simp [hFree, List.count_cons]

/-- `kfree` puts the frame on the free stack; what it ignores is not usable. -/
theorem kfree_count (g : Frame) (hf : Usable frame) :
    (pool.kfree g).free.count frame = pool.free.count frame + if g = frame then 1 else 0 := by
  unfold kfree
  split
  · next hIgnored =>
    have hNe : g ≠ frame := by
      rintro rfl
      rcases hIgnored with hUnused | hStatic
      · exact hf.2 hUnused
      · exact absurd hf.1 (by omega)
    simp [hNe]
  · simp [List.count_cons]

theorem kfree_mem_of_ne {g : Frame} (h : frame ≠ g) : (pool.kfree g).mem frame = pool.mem frame := by
  unfold kfree
  split
  · rfl
  · exact Function.update_of_ne h _ _

theorem kfree_free {g : Frame} (h : frame ∈ (pool.kfree g).free) :
    frame ∈ pool.free ∨ pageTableSize ≤ frame.toNat := by
  unfold kfree at h
  split at h
  · exact .inl h
  · next hGuard =>
    rcases List.mem_cons.mp h with rfl | hMem
    · exact .inr (by omega)
    · exact .inl hMem

/-! ## §3 Freeing a part of a page table -/

/-- `pool'` is `pool` after the frames of the segments `[low, high)` of a table were freed:
    their count goes up, and only their memory and that of the frame `pcb` is written to. -/
structure Freed (table : Nat → Frame) (low high : Nat) (pcb : Option Frame)
    (pool pool' : Pool) : Prop where
  count : ∀ frame, Usable frame →
    pool'.free.count frame = pool.free.count frame + mappings table frame low high
  mem : ∀ frame, some frame ≠ pcb → (∀ s, low ≤ s → s < high → table s ≠ frame) →
    pool'.mem frame = pool.mem frame
  free : ∀ frame ∈ pool'.free, frame ∈ pool.free ∨ pageTableSize ≤ frame.toNat

theorem Freed.refl (table : Nat → Frame) {low high : Nat} (h : high ≤ low) (pcb : Option Frame)
    (pool : Pool) : Freed table low high pcb pool pool where
  count := by simp [mappings, Finset.Ico_eq_empty_of_le h]
  mem _ _ _ := rfl
  free _ h := .inl h

/-- The table after `freeDown`: the segments above `low` are unmapped. -/
theorem freeDown_table (pool : Pool) (table : Nat → Frame) (low n s : Nat) :
    (pool.freeDown table low n).1 s = if low < s ∧ s ≤ n then frameUnused else table s := by
  induction n generalizing pool table with
  | zero =>
    unfold freeDown
    rw [if_neg (by omega)]
  | succ n ih =>
    unfold freeDown
    by_cases hLow : low < n + 1
    · rw [if_pos hLow]
      -- whether the entry is cleared or was empty, it is empty when the loop goes on
      have hEmpty : ∀ table' : Nat → Frame, table' (n + 1) = frameUnused →
          (∀ s, s ≠ n + 1 → table' s = table s) →
          (if low < s ∧ s ≤ n then frameUnused else table' s) =
            if low < s ∧ s ≤ n + 1 then frameUnused else table s := by
        intro table' hTop hRest
        by_cases hs : s = n + 1
        · subst hs
          simp [hTop, hLow]
        · rw [hRest s hs]
          congr 1
          simp only [eq_iff_iff]
          omega
      split
      · rw [ih]
        exact hEmpty _ (Function.update_self ..) fun s hs => Function.update_of_ne hs _ _
      · next hUnused =>
        rw [ih]
        exact hEmpty _ (not_not.mp hUnused) fun _ _ => rfl
    · rw [if_neg hLow, if_neg (by omega)]

theorem freeDown_freed (pool : Pool) (table : Nat → Frame) (low n : Nat) :
    Freed table (low + 1) (n + 1) none pool (pool.freeDown table low n).2 := by
  -- on the segment; the loop goes down, so the rest is below it
  induction n generalizing pool table with
  | zero => exact Freed.refl table (by omega) none pool
  | succ n ih =>
    unfold freeDown
    by_cases hLow : low < n + 1
    · rw [if_pos hLow]
      split
      · -- the frame is freed, and the rest is freed from a table that differs only there
        have hRest := ih (pool.kfree (table (n + 1)))
          (Function.update table (n + 1) frameUnused)
        have hSame : ∀ s, low + 1 ≤ s → s < n + 1 →
            Function.update table (n + 1) frameUnused s = table s :=
          fun s _ hs => Function.update_of_ne (by omega) _ _
        constructor
        · intro frame hf
          have hTop : mappings table frame (low + 1) (n + 1 + 1) = _ := mappings_succ (by omega)
          rw [hRest.count frame hf, kfree_count _ hf, hTop, mappings_congr hSame]
          omega
        · intro frame hPcb hNot
          rw [hRest.mem frame hPcb fun s hs hs' => by
              rw [hSame s hs hs']
              exact hNot s hs (by omega),
            kfree_mem_of_ne (hNot (n + 1) (by omega) (by omega)).symm]
        · intro frame hMem
          rcases hRest.free frame hMem with hFreed | hHigh
          · exact kfree_free hFreed
          · exact .inr hHigh
      -- an unmapped segment has nothing to free
      · next hUnused =>
        have hRest := ih pool table
        constructor
        · intro frame hf
          have hNe : table (n + 1) ≠ frame := by
            rw [not_not.mp hUnused]
            exact hf.2.symm
          have hTop : mappings table frame (low + 1) (n + 1 + 1) = _ := mappings_succ (by omega)
          rw [hRest.count frame hf, hTop, if_neg hNe]
          omega
        · exact fun frame hPcb hNot => hRest.mem frame hPcb fun s hs hs' => hNot s hs (by omega)
        · exact hRest.free
    · rw [if_neg hLow]
      exact Freed.refl table (by omega) none pool

/-- What `freeDown` frees it takes out of the table. -/
theorem freeDown_balance (pool : Pool) (table : Nat → Frame) {low n high : Nat} (hn : n < high)
    (hf : Usable frame) :
    (pool.freeDown table low n).2.free.count frame +
        mappings (pool.freeDown table low n).1 frame 0 high =
      pool.free.count frame + mappings table frame 0 high := by
  rw [(freeDown_freed pool table low n).count frame hf]
  have hTable := freeDown_table pool table low n
  rcases Nat.le_total n low with hLe | hLe
  · rw [mappings_eq_zero fun s hs hs' => absurd hs (by omega),
      mappings_congr fun s _ _ => by rw [hTable s, if_neg (by omega)]]
    rfl
  -- the table splits in three: below the freed segments, these, and above them
  · have hBelow : mappings (pool.freeDown table low n).1 frame 0 (low + 1) =
        mappings table frame 0 (low + 1) :=
      mappings_congr fun s _ hs => by rw [hTable s, if_neg (by omega)]
    have hFreed : mappings (pool.freeDown table low n).1 frame (low + 1) (n + 1) = 0 := by
      apply mappings_eq_zero
      intro s hs hs'
      rw [hTable s, if_pos (by omega)]
      exact hf.2.symm
    have hAbove : mappings (pool.freeDown table low n).1 frame (n + 1) high =
        mappings table frame (n + 1) high :=
      mappings_congr fun s hs _ => by rw [hTable s, if_neg (by omega)]
    have hSplit : ∀ t : Nat → Frame, mappings t frame 0 high =
        mappings t frame 0 (low + 1) + mappings t frame (low + 1) (n + 1) +
          mappings t frame (n + 1) high := by
      intro t
      rw [mappings_split (Nat.zero_le _) (by omega), mappings_split (Nat.zero_le _) (by omega)]
    rw [hSplit, hSplit table, hBelow, hFreed, hAbove]
    omega

/-! ## §4 Stores to a page table -/

theorem entry_setEntry (pool : Pool) (pcb g : Frame) (segment : Nat) :
    (pool.setEntry pcb segment g).entry pcb = Function.update (pool.entry pcb) segment g := by
  funext s
  by_cases hs : s = segment
  · subst hs
    simp [setEntry, store, entry]
  · rw [Function.update_of_ne hs]
    simp [setEntry, store, entry, Function.update_of_ne, hs]

theorem setEntry_mem_of_ne {pcb g : Frame} {segment : Nat} (h : frame ≠ pcb) :
    (pool.setEntry pcb segment g).mem frame = pool.mem frame :=
  Function.update_of_ne h _ _

theorem entry_setTable {pcb : Frame} {table : Nat → Frame} {s : Nat} (hs : s < pageTableSize) :
    (pool.setTable pcb table).entry pcb s = table s := by
  simp [setTable, entry, hs]

theorem setTable_mem_of_ne {pcb : Frame} {table : Nat → Frame} (h : frame ≠ pcb) :
    (pool.setTable pcb table).mem frame = pool.mem frame :=
  Function.update_of_ne h _ _

/-- The loop of `sys_exit` frees what the table maps, if the table does not map its own
    frame. -/
theorem exitLoop_freed (pool : Pool) (pcb : Frame) (segment n : Nat)
    (hOwn : ∀ s, segment ≤ s → s < segment + n → pool.entry pcb s ≠ pcb) :
    Freed (pool.entry pcb) segment (segment + n) (some pcb) pool
      (pool.exitLoop pcb segment n) := by
  induction n generalizing pool segment with
  | zero => exact Freed.refl _ le_rfl (some pcb) pool
  | succ n ih =>
    unfold exitLoop
    -- one turn frees the first frame and leaves the other entries alone
    set next := if pool.entry pcb segment ≠ frameUnused then
        (pool.kfree (pool.entry pcb segment)).setEntry pcb segment frameUnused
      else pool with hNext
    have hTable : ∀ s, segment + 1 ≤ s → next.entry pcb s = pool.entry pcb s := by
      intro s hs
      rw [hNext]
      split
      · rw [entry_setEntry, Function.update_of_ne (by omega)]
        exact congrFun (kfree_mem_of_ne (hOwn segment (by omega) (by omega)).symm) _
      · rfl
    have hRest := ih next (segment + 1) fun s hs hs' => by
      rw [hTable s hs]
      exact hOwn s (by omega) (by omega)
    have hEnd : segment + 1 + n = segment + (n + 1) := by omega
    rw [hEnd] at hRest
    have hCount : ∀ f, Usable f → next.free.count f =
        pool.free.count f + if pool.entry pcb segment = f then 1 else 0 := by
      intro f hf
      rw [hNext]
      split
      · exact kfree_count _ hf
      · next hUnused =>
        rw [not_not.mp hUnused]
        simp [hf.2.symm]
    constructor
    · intro f hf
      have hFirst : mappings (pool.entry pcb) f segment (segment + (n + 1)) = _ :=
        mappings_first (by omega)
      rw [hRest.count f hf, hCount f hf, hFirst, mappings_congr fun s hs _ => hTable s hs]
      omega
    · intro f hPcb hNot
      rw [hRest.mem f hPcb fun s hs hs' => by
        rw [hTable s hs]
        exact hNot s (by omega) hs']
      rw [hNext]
      split
      · rw [setEntry_mem_of_ne fun h => hPcb (by rw [h]),
          kfree_mem_of_ne (hNot segment (by omega) (by omega)).symm]
      · rfl
    · intro f hMem
      rcases hRest.free f hMem with hFreed | hHigh
      · rw [hNext] at hFreed
        split at hFreed
        · exact kfree_free hFreed
        · exact .inl hFreed
      · exact .inr hHigh

/-! ## §5 Growing a page table -/

/-- `(table', pool')` is `(table, pool)` after some segments of `[low, high)` that were
    unmapped have got a frame of the free stack each. -/
structure Grown (table table' : Nat → Frame) (low high : Nat) (pool pool' : Pool) : Prop where
  mem : pool'.mem = pool.mem
  free : pool'.free ⊆ pool.free
  entry : ∀ s, s < low ∨ high ≤ s ∨ table s ≠ frameUnused → table' s = table s
  count : ∀ frame, Usable frame → ∀ a b, a ≤ low → high ≤ b →
    pool'.free.count frame + mappings table' frame a b =
      pool.free.count frame + mappings table frame a b

theorem Grown.refl (table : Nat → Frame) (low high : Nat) (pool : Pool) :
    Grown table table low high pool pool where
  mem := rfl
  free _ h := h
  entry _ _ := rfl
  count _ _ _ _ _ _ := rfl

/-- A turn that maps `segment`, and the turns after it. -/
theorem Grown.cons {table table' : Nat → Frame} {segment high : Nat} {pool' : Pool}
    (hUnused : table segment = frameUnused) (hHigh : segment < high)
    (h : Grown (Function.update table segment pool.kalloc.1) table' (segment + 1) high
      pool.kalloc.2 pool') : Grown table table' segment high pool pool' where
  mem := h.mem.trans kalloc_mem
  free := fun _ hMem => kalloc_free_subset (h.free hMem)
  entry := by
    intro s hs
    have hNe : s ≠ segment := by
      rintro rfl
      rcases hs with hLt | hLe | hMapped
      · omega
      · omega
      · exact hMapped hUnused
    have hUpdate : Function.update table segment pool.kalloc.1 s = table s :=
      Function.update_of_ne hNe _ _
    rw [h.entry s, hUpdate]
    rw [hUpdate]
    rcases hs with hLt | hRest
    · exact .inl (by omega)
    · exact .inr hRest
  count := by
    intro frame hf a b ha hb
    -- the frame leaves the list and enters the table
    have hOne : mappings (Function.update table segment pool.kalloc.1) frame a b + _ = _ :=
      mappings_update pool.kalloc.1 ha (hHigh.trans_le hb)
    have hRest := h.count frame hf a b (by omega) hb
    have hTaken : pool.kalloc.2.free.count frame + _ = _ := kalloc_count hf
    rw [hUnused, if_neg hf.2.symm] at hOne
    omega

/-- If `old` is not among the segments that got a frame, and the segments behind it were all
    unmapped, then what they map now is what the free stack has lost. -/
theorem Grown.balance {table table' : Nat → Frame} {old stop : Nat} {pool' : Pool}
    (h : Grown table table' old stop pool pool') (hLe : old ≤ stop)
    (hOld : table' old = table old) (hEmpty : ∀ s, old < s → s ≤ stop → table s = frameUnused)
    (hf : Usable frame) :
    pool'.free.count frame + mappings table' frame (old + 1) (stop + 1) =
      pool.free.count frame := by
  have hCount := h.count frame hf old (stop + 1) le_rfl (by omega)
  have hZero : mappings table frame (old + 1) (stop + 1) = 0 := by
    apply mappings_eq_zero
    intro s hs hs'
    rw [hEmpty s (by omega) (by omega)]
    exact hf.2.symm
  have hFirst : ∀ t : Nat → Frame, mappings t frame old (stop + 1) = _ :=
    fun t => mappings_first (by omega)
  rw [hFirst, hFirst, hOld, hZero] at hCount
  omega

/-- The rollback of `sys_sbrk` behind such a growth: the free stack has the frames it had, and
    the memory of a frame that was not free is as it was. -/
theorem Grown.rollback {table table' : Nat → Frame} {old stop : Nat} {pool' : Pool}
    (h : Grown table table' old stop pool pool') (hLe : old ≤ stop)
    (hOld : table' old = table old) (hEmpty : ∀ s, old < s → s ≤ stop → table s = frameUnused)
    (hNone : pool'.kalloc.1 = frameUnused) (hf : Usable frame) :
    (pool'.kalloc.2.freeDown table' old stop).2.free.count frame = pool.free.count frame ∧
      (frame ∉ pool.free →
        (pool'.kalloc.2.freeDown table' old stop).2.mem frame = pool.mem frame) := by
  have hFreed := freeDown_freed pool'.kalloc.2 table' old stop
  have hBalance := h.balance hLe hOld hEmpty hf
  constructor
  · have hKept : pool'.kalloc.2.free.count frame + _ = pool'.free.count frame := kalloc_count hf
    rw [hNone, if_neg hf.2.symm] at hKept
    rw [hFreed.count frame hf]
    omega
  · -- a freed frame came from the free stack
    intro hFree
    have hNot : ∀ t, old + 1 ≤ t → t < stop + 1 → table' t ≠ frame := by
      intro t ht ht' hEq
      have hPos := mappings_pos ht ht' hEq
      have hZero := List.count_eq_zero.mpr hFree
      omega
    rw [hFreed.mem _ (by simp) hNot, kalloc_mem, h.mem]

/-- Memory runs out at a segment: it is unmapped, and the unmapped segments before it have
    taken all the frames there are. -/
def RunsOutAt (pool : Pool) (table : Nat → Frame) (low segment : Nat) : Prop :=
  low ≤ segment ∧ table segment = frameUnused ∧
    mappings table frameUnused low segment = pool.available

/-- What the growing loop of `sys_sbrk` does: it maps the segments, or it maps those before
    the segment where memory runs out and then frees down to the old segment. -/
theorem growLoop_cases (pool : Pool) (table : Nat → Frame) (old segment n : Nat) :
    (∃ table' pool', pool.growLoop table old segment n = (some table', pool') ∧
      Grown table table' segment (segment + n) pool pool') ∨
    ∃ stop table' pool', stop < segment + n ∧ pool.RunsOutAt table segment stop ∧
      Grown table table' segment stop pool pool' ∧ pool'.kalloc.1 = frameUnused ∧
      pool.growLoop table old segment n = (none, (pool'.kalloc.2.freeDown table' old stop).2) := by
  -- on the segments that are left; `Grown` says what the turns before have done
  induction n generalizing pool table segment with
  | zero => exact .inl ⟨table, pool, rfl, Grown.refl ..⟩
  | succ n ih =>
    have hEnd : segment + 1 + n = segment + (n + 1) := by omega
    unfold growLoop
    by_cases hUnused : table segment = frameUnused
    · rw [if_pos hUnused]
      by_cases hOut : pool.kalloc.1 = frameUnused
      · -- out of memory in this very turn
        refine .inr ⟨segment, table, pool, by omega, ⟨le_rfl, hUnused, ?_⟩, Grown.refl .., hOut, ?_⟩
        · rw [mappings_self, kalloc_eq_unused_iff.mp hOut]
        · simp only [hOut, if_true]
      -- the segment gets a frame and the loop goes on from there
      · simp only [hOut, if_false]
        rcases ih pool.kalloc.2 (Function.update table segment pool.kalloc.1) (segment + 1) with
          ⟨table', pool', hLoop, hGrown⟩ | ⟨stop, table', pool', hStop, hRuns, hGrown, hNone, hLoop⟩
        · rw [hEnd] at hGrown
          exact .inl ⟨table', pool', hLoop, hGrown.cons hUnused (by omega)⟩
        · rw [hEnd] at hStop
          obtain ⟨hLe, hEntry, hTaken⟩ := hRuns
          have hSame : ∀ s, segment + 1 ≤ s →
              Function.update table segment pool.kalloc.1 s = table s :=
            fun s hs => Function.update_of_ne (by omega) _ _
          refine .inr ⟨stop, table', pool', hStop, ⟨by omega, ?_, ?_⟩,
            hGrown.cons hUnused (by omega), hNone, hLoop⟩
          · rw [← hSame stop hLe, hEntry]
          · rw [mappings_first (by omega), if_pos hUnused,
              ← mappings_congr fun s hs _ => hSame s hs, hTaken, ← kalloc_available hOut]
            omega
    · -- a mapped segment is passed over
      rw [if_neg hUnused]
      have hPass : ∀ {table' : Nat → Frame} {high : Nat} {pool' : Pool}, segment < high →
          Grown table table' (segment + 1) high pool pool' →
          Grown table table' segment high pool pool' := by
        intro table' high pool' hHigh hGrown
        refine ⟨hGrown.mem, hGrown.free, fun s hs => hGrown.entry s ?_,
          fun f hf a b ha hb => hGrown.count f hf a b (by omega) hb⟩
        rcases hs with hLt | hRest
        · exact .inl (by omega)
        · exact .inr hRest
      rcases ih pool table (segment + 1) with
        ⟨table', pool', hLoop, hGrown⟩ | ⟨stop, table', pool', hStop, hRuns, hGrown, hNone, hLoop⟩
      · rw [hEnd] at hGrown
        exact .inl ⟨table', pool', hLoop, hPass (by omega) hGrown⟩
      · rw [hEnd] at hStop
        obtain ⟨hLe, hEntry, hTaken⟩ := hRuns
        refine .inr ⟨stop, table', pool', hStop, ⟨by omega, hEntry, ?_⟩,
          hPass (by omega) hGrown, hNone, hLoop⟩
        rw [mappings_first (by omega), if_neg hUnused, hTaken, Nat.zero_add]

theorem growLoop_grown {table table' : Nat → Frame} {old segment n : Nat} {pool' : Pool}
    (h : pool.growLoop table old segment n = (some table', pool')) :
    Grown table table' segment (segment + n) pool pool' := by
  rcases growLoop_cases pool table old segment n with ⟨_, _, hLoop, hGrown⟩ |
    ⟨_, _, _, _, _, _, _, hLoop⟩
  · rw [h] at hLoop
    cases hLoop
    exact hGrown
  · rw [h] at hLoop
    cases hLoop

/-- A growing loop that ends has mapped every segment, and there was a frame for each. -/
theorem growLoop_mapped {table table' : Nat → Frame} {old segment n : Nat} {pool' : Pool}
    (h : pool.growLoop table old segment n = (some table', pool')) :
    (∀ s, segment ≤ s → s < segment + n → table' s ≠ frameUnused) ∧
      mappings table frameUnused segment (segment + n) ≤ pool.available := by
  -- as `growLoop_cases`; each turn that maps takes one frame of those available
  induction n generalizing pool table segment with
  | zero => exact ⟨fun s hs hs' => by omega, by simp⟩
  | succ n ih =>
    have hEnd : segment + 1 + n = segment + (n + 1) := by omega
    unfold growLoop at h
    by_cases hUnused : table segment = frameUnused
    · rw [if_pos hUnused] at h
      by_cases hOut : pool.kalloc.1 = frameUnused
      · simp only [hOut, if_true] at h
        cases h
      · simp only [hOut, if_false] at h
        obtain ⟨hMapped, hEnough⟩ := ih h
        rw [hEnd] at hMapped hEnough
        refine ⟨fun s hs hs' => ?_, ?_⟩
        · rcases Nat.eq_or_lt_of_le hs with rfl | hLater
          · -- the turns after this one leave its entry alone
            rw [(growLoop_grown h).entry segment (.inl (by omega)), Function.update_self]
            exact hOut
          · exact hMapped s hLater hs'
        -- the segment itself is not counted again behind it
        · have hRest : mappings (Function.update table segment pool.kalloc.1) frameUnused
              (segment + 1) (segment + (n + 1)) =
                mappings table frameUnused (segment + 1) (segment + (n + 1)) :=
            mappings_congr fun s hs _ => Function.update_of_ne (by omega) _ _
          rw [mappings_first (by omega), if_pos hUnused, ← hRest, ← kalloc_available hOut]
          omega
    · rw [if_neg hUnused] at h
      obtain ⟨hMapped, hEnough⟩ := ih h
      rw [hEnd] at hMapped hEnough
      refine ⟨fun s hs hs' => ?_, ?_⟩
      · rcases Nat.eq_or_lt_of_le hs with rfl | hLater
        · rw [(growLoop_grown h).entry segment (.inl (by omega))]
          exact hUnused
        · exact hMapped s hLater hs'
      · rw [mappings_first (by omega), if_neg hUnused, Nat.zero_add]
        exact hEnough

/-- A growing loop that fails has met more unmapped segments than there are frames. -/
theorem growLoop_short {table : Nat → Frame} {old segment n : Nat} {pool' : Pool}
    (h : pool.growLoop table old segment n = (none, pool')) :
    pool.available < mappings table frameUnused segment (segment + n) := by
  rcases growLoop_cases pool table old segment n with ⟨_, _, hLoop, _⟩ |
    ⟨stop, _, _, hStop, ⟨hLe, hUnused, hTaken⟩, _, _, _⟩
  · rw [h] at hLoop
    cases hLoop
  · have hSplit : mappings table frameUnused segment stop +
        mappings table frameUnused stop (segment + n) = _ := mappings_split hLe hStop.le
    have hPos := mappings_pos (Nat.le_refl stop) hStop hUnused
    omega

end Pool

end Xv6502.Kernel
