import Xv6502.Kernel.FrameWrites

/-!
# The Steps of `sys_fork`

What `sys_fork` does between two points where the kernel may switch, in the terms of the two
processes: the child behind `proc_alloc` and the copy of the kernel frame, and the turns of the page
loop.
-/

namespace Xv6502.Kernel.KernelState

open Xv6502.Emulator

section Start

variable {k : KernelState} {child q : Slot}

/-! ## §1 `proc_alloc` and the copy of the kernel frame -/

theorem firstUnused_unused (h : k.firstUnused = some child) :
    (k.procs child).state = .unused := by
  have hUnused := List.find?_some h
  simpa using hUnused

theorem forkStart_of_found (h : k.firstUnused = some child) : k.forkStart = k.forkInto child := by
  unfold KernelState.forkStart
  split
  · next hNone => simp only [hNone, reduceCtorEq] at h
  · next c hFound => rw [Option.some.inj (hFound.symm.trans h)]

theorem forkInto_child (hFrame : k.pool.kalloc.1 ≠ frameUnused) (hNe : child ≠ k.current) :
    (k.forkInto child).procs child =
      ⟨.building, k.pool.kalloc.1, k.current, k.self.top, .user⟩ := by
  simp only [KernelState.forkInto, hFrame, if_false]
  simp [KernelState.suspend, setSelf, setProc, hNe, self, hNe.symm]

theorem forkInto_self (hFrame : k.pool.kalloc.1 ≠ frameUnused) (hNe : child ≠ k.current) :
    (k.forkInto child).procs k.current =
      { k.procs k.current with
        state := .ready, task := .fork child 0 (k.pool.entry k.self.kernelFrame) } := by
  simp only [KernelState.forkInto, hFrame, if_false]
  simp [KernelState.suspend, setSelf, setProc, self, hNe.symm]

theorem forkInto_other (hFrame : k.pool.kalloc.1 ≠ frameUnused) (hChild : q ≠ child)
    (hSelf : q ≠ k.current) : (k.forkInto child).procs q = k.procs q := by
  simp only [KernelState.forkInto, hFrame, if_false]
  simp [KernelState.suspend, setSelf, setProc, hChild, hSelf]

theorem forkInto_pool (hFrame : k.pool.kalloc.1 ≠ frameUnused) (hNe : child ≠ k.current) :
    (k.forkInto child).pool =
      (k.pool.kalloc.2.copyFrame k.pool.kalloc.1 k.self.kernelFrame).setTable k.pool.kalloc.1
        fun _ => frameUnused := by
  simp only [KernelState.forkInto, hFrame, if_false]
  simp [KernelState.suspend, setSelf, setProc, self, hNe.symm]

/-- `proc_alloc` without memory touches the slot alone. -/
theorem forkInto_none (hFrame : k.pool.kalloc.1 = frameUnused) :
    k.forkInto child =
      { k.setProc child fun e => { e with kernelFrame := frameUnused } with
        pool := k.pool.kalloc.2 } := by
  simp only [KernelState.forkInto, hFrame, if_true]

end Start

/-! ## §2 The page loop -/

section Loop

variable {k : KernelState} {child : Slot} {segment : Nat} {table : Nat → Frame}

/-- Behind the last segment the child is published. -/
def forkPublish (k : KernelState) (child : Slot) : KernelState :=
  (k.setProc child fun e => { e with state := .new }).setSelf fun e => { e with task := .user }

/-- The page loop has got a frame. -/
def forkHold (k : KernelState) (child : Slot) (segment : Fin pageTableSize)
    (table : Nat → Frame) : KernelState :=
  { k.setSelf fun e => { e with task := .forkHolding child segment table k.pool.kalloc.1 } with
    pool := k.pool.kalloc.2 }

/-- What a turn of the page loop does. -/
inductive ForkTurn (k : KernelState) (child : Slot) (segment : Nat) (table : Nat → Frame) :
    KernelState → Prop
  | publish (h : pageTableSize ≤ segment) : ForkTurn k child segment table (k.forkPublish child)
  | skip (hSegment : segment < pageTableSize) (hUnmapped : table segment = frameUnused) :
      ForkTurn k child segment table
        (k.setSelf fun e => { e with task := .fork child (segment + 1) table })
  | fail (hSegment : segment < pageTableSize) (hMapped : table segment ≠ frameUnused)
      (hNone : k.pool.available = 0) : ForkTurn k child segment table (k.forkFail child segment)
  | hold (hSegment : segment < pageTableSize) (hMapped : table segment ≠ frameUnused)
      (hFrame : k.pool.kalloc.1 ≠ frameUnused) :
      ForkTurn k child segment table (k.forkHold child ⟨segment, hSegment⟩ table)

theorem forkPage_turn (k : KernelState) (child : Slot) (segment : Nat) (table : Nat → Frame) :
    ForkTurn k child segment table (k.forkPage child segment table) := by
  by_cases hSegment : segment < pageTableSize
  · by_cases hMapped : table segment = frameUnused
    · rw [forkPage, dif_pos hSegment, if_pos hMapped]
      exact .skip hSegment hMapped
    · by_cases hFrame : k.pool.kalloc.1 = frameUnused
      · have hNone := Pool.kalloc_eq_unused_iff.mp hFrame
        rw [forkPage_eq_forkFail hSegment hMapped hNone]
        exact .fail hSegment hMapped hNone
      · have hHold : k.forkPage child segment table = k.forkHold child ⟨segment, hSegment⟩ table := by
          rw [forkPage, dif_pos hSegment, if_neg hMapped]
          simp only [hFrame, if_false]
          rfl
        rw [hHold]
        exact .hold hSegment hMapped hFrame
  · rw [forkPage, dif_neg hSegment]
    exact .publish (Nat.le_of_not_lt hSegment)

end Loop

end Xv6502.Kernel.KernelState
