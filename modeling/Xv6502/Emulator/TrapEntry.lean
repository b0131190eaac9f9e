import Xv6502.Emulator.Privilege

/-!
# What a Trap Entry Preserves

A trap from user mode is resumable when, at the first instruction of the handler that
runs to completion, `prev` holds the user's frame of the last segment and the return
address on the stack is the user's program counter. The three blocks of `MMU_pre_exec`
each save `prev` on their own, so this holds exactly when one of them has fired, and if it
is the intercept of a `BRK`, when the core's own fetch finds the `BRK` again
(`trapEntry_preserved_iff`).
-/

namespace Xv6502.Emulator

/-! ## §1 The handler that runs to completion -/

/-- The machine at the first instruction of the handler that runs to completion. An IRQ
    taken by `MMU_pre_exec` is there before the core's step, unless an NMI is queued
    behind it: then the step enters the NMI handler first. `BRK` enters in the step. -/
def handlerEntry (m : Machine) : Machine :=
  if 0 < (mmuPreExec m).cpu.pendingTiming ∧ (mmuPreExec m).cpu.nmiPending = false then
    mmuPreExec m
  else cpuStepIteration m

/-- A handler is entered at all: the core has been interrupted, or it executes a `BRK`. -/
def EntersHandler (m : Machine) : Prop :=
  0 < (mmuPreExec m).cpu.pendingTiming ∨ opcodeAtPc (mmuPreExec m) = opcodeBrk

/-- Where the program is to be resumed: behind a `BRK` if it was executed, else where it was
    interrupted. -/
def resumeAddress (m : Machine) : Word :=
  if takesIrq m = false ∧ opcodeAtPc m = opcodeBrk then m.cpu.pc + 2 else m.cpu.pc

/-- The entry of the kernel preserves what it needs to resume the user. -/
structure EntryPreserved (m : Machine) : Prop where
  handler : EntersHandler m
  prev : (handlerEntry m).bus.mmu.prev = m.bus.mmu.pageTable mmuLastSegment
  returnPC : returnAddress (handlerEntry m) = resumeAddress m

/-- With the kernel mapped, the program counter still shows a `BRK`. -/
def ShowsBrkAgain (m : Machine) : Prop :=
  (machineRead m.cpu.pc (m.setMmu Mmu.enterKernel).bus).1 = opcodeBrk

instance (m : Machine) : Decidable (ShowsBrkAgain m) := inferInstanceAs (Decidable (_ = _))

/-! ## §2 By the number of blocks -/

/-- A read through a valid entry returns the byte at the physical address. -/
theorem machineRead_fst {b : Board} {va : Word} (h : ¬ b.mmu.faults va) :
    (machineRead va b).1 = readPhysical b (physicalAddress b.mmu va) := by
  show readPhysical { b with mmu := mmuTranslate b.mmu va } _ = _
  rw [mmuTranslate_of_not_faults h]

/-- The latches of the opcode fetch are not on the bus. -/
theorem opcodeAtPc_behind_brk {m : Machine} (h : UserMachine m)
    (hBrk : opcodeAtPc m = opcodeBrk) :
    opcodeAtPc ((preExecFetch m).setMmu Mmu.enterKernel) = opcodeBrk ↔ ShowsBrkAgain m := by
  have hTranslate : mmuTranslate m.bus.mmu m.cpu.pc = m.bus.mmu :=
    mmuTranslate_of_not_faults (not_faults_of_brk h hBrk)
  have hMapped : ¬ m.bus.mmu.enterKernel.faults m.cpu.pc := by
    show Function.update m.bus.mmu.pageTable mmuLastSegment kernelFrame (segmentOf m.cpu.pc)
      ≠ mmuFrameInvalid
    -- the kernel frame is mapped behind segment 15 and every frame of the program elsewhere
    by_cases hSegment : segmentOf m.cpu.pc = mmuLastSegment
    · rw [hSegment, Function.update_self]
      decide
    · rw [Function.update_of_ne hSegment]
      exact not_faults_of_brk h hBrk
  have hFetch := preExecFetch_user h
  simp only [Ctx.setMmu, hTranslate] at hFetch
  rw [hFetch, ShowsBrkAgain, opcodeAtPc, machineRead_fst hMapped, machineRead_fst hMapped]
  exact Iff.rfl

theorem user_frame_ne_kernelFrame {m : Machine} (h : UserMachine m) :
    kernelFrame ≠ m.bus.mmu.pageTable mmuLastSegment := by
  intro hEq
  have hEntry := h.entries mmuLastSegment
  rw [← hEq] at hEntry
  exact absurd hEntry (by decide)

/-- A core interrupted by the only block that fired is not about to execute a `BRK`. -/
theorem not_brk_of_trapped {m : Machine} {n : Nat} (h : UserMachine m)
    (hTrapped : Trapped m (mmuPreExec m) n) (hOne : blocksFired m = 1) :
    ¬ (takesIrq m = false ∧ opcodeAtPc m = opcodeBrk) := by
  rintro ⟨hIrq, hBrk⟩
  have hPre := mmuPreExec_of_brk h hIrq hBrk (pendingNmi_of_brk_alone hBrk hOne)
  have hPending := hTrapped.pending
  rw [hPre] at hPending
  have hTiming : (preExecFetch m).cpu.pendingTiming = 0 := by
    rw [preExecFetch_cpu h, h.idle.pendingTiming]
  exact absurd (hTiming.symm.trans hPending) (by decide)

/-- Behind a block that has interrupted the core, `prev` decides. -/
theorem entryPreserved_trapped_iff {m : Machine} (h : UserMachine m)
    (hTrapped : Trapped m (mmuPreExec m) (blocksFired m)) :
    EntryPreserved m ↔ blocksFired m = 1 := by
  have hTaken : 0 < (mmuPreExec m).cpu.pendingTiming := by rw [hTrapped.pending]; decide
  -- `prev` is what the last block that fired has written
  have hPrev : (handlerEntry m).bus.mmu.prev = (mmuPreExec m).bus.mmu.prev := by
    unfold handlerEntry
    split
    case isTrue => rfl
    case isFalse hQueued =>
      have hNmi : (mmuPreExec m).cpu.nmiPending = true := by
        by_contra hNone
        exact hQueued ⟨hTaken, Bool.eq_false_of_not_eq_true hNone⟩
      rw [(cpuStepIteration_queued hTrapped hNmi).2]
  constructor
  -- a second block reads the kernel's mapping as that of the program
  · intro hPreserved
    by_contra hMany
    have hSaved := hPreserved.prev
    rw [hPrev, hTrapped.prev, if_neg hMany] at hSaved
    exact user_frame_ne_kernelFrame h hSaved
  · intro hOne
    obtain ⟨hNmi, hReturn⟩ := hTrapped.first hOne
    refine ⟨.inl hTaken, ?_, ?_⟩
    · rw [hPrev, hTrapped.prev, if_pos hOne]
    · have hNotBrk := not_brk_of_trapped h hTrapped hOne
      rw [handlerEntry, if_pos ⟨hTaken, hNmi⟩, hReturn, resumeAddress, if_neg hNotBrk]

/-- Behind the intercept of a `BRK`, the core's own fetch decides. -/
theorem entryPreserved_brk_iff {m : Machine} (h : UserMachine m)
    (hPre : mmuPreExec m = (preExecFetch m).setMmu Mmu.enterKernel) (hIrq : takesIrq m = false)
    (hBrk : opcodeAtPc m = opcodeBrk) : EntryPreserved m ↔ ShowsBrkAgain m := by
  have hTiming : (mmuPreExec m).cpu.pendingTiming = 0 := by
    rw [hPre]
    show (preExecFetch m).cpu.pendingTiming = 0
    rw [preExecFetch_cpu h, h.idle.pendingTiming]
  rw [← opcodeAtPc_behind_brk h hBrk]
  constructor
  · intro hPreserved
    -- the kernel is entered only if the core's own fetch finds a `BRK` too
    obtain hTaken | hAgain := hPreserved.handler
    · omega
    · exact hPre ▸ hAgain
  · intro hAgain
    obtain ⟨-, hMmu, hReturn⟩ := cpuStepIteration_brk h hPre rfl hAgain
    have hEntry : handlerEntry m = cpuStepIteration m :=
      if_neg fun hTaken => by have := hTaken.1; omega
    refine ⟨.inr (hPre ▸ hAgain), ?_, ?_⟩
    · rw [hEntry, hMmu, mmuTranslate_prev]
      show (preExecFetch m).bus.mmu.pageTable mmuLastSegment = _
      rw [preExecFetch_pageTable h]
    · rw [hEntry, hReturn, resumeAddress, if_pos ⟨hIrq, hBrk⟩]

/-! ## §3 When the entry is preserved -/

/-- The iteration enters the kernel as soon as one block fires. -/
theorem kernel_mapped_of_fired {m : Machine} (h : UserMachine m) (hFires : 0 < blocksFired m) :
    (mmuPreExec m).bus.mmu.pageTable mmuLastSegment = kernelFrame := by
  have hStage := mmuPreExec_stage h
  generalize mmuPreExec m = s at hStage
  generalize blocksFired m = n at hFires hStage
  cases hStage with
  | user => exact absurd hFires (Nat.lt_irrefl 0)
  | brk => exact (switchesToKernel_enterKernel.entryMapped (inPreExec_fetch h).stack).kernel
  | trapped hTrapped => exact hTrapped.kernel

/-- Two blocks that fire together lose `prev`. -/
theorem not_entryPreserved_of_blocks {m : Machine} (h : UserMachine m)
    (hMany : 1 < blocksFired m) : ¬ EntryPreserved m := by
  have hStage := mmuPreExec_stage h
  generalize hEq : mmuPreExec m = s at hStage
  generalize hFired : blocksFired m = n at hMany hStage
  cases hStage with
  | user => exact absurd hMany (by decide)
  | brk => exact absurd hMany (by decide)
  | trapped hTrapped =>
    rw [entryPreserved_trapped_iff h (hFired ▸ hEq ▸ hTrapped), hFired]
    exact Nat.ne_of_gt hMany

/-- **A trap entry is preserved exactly when one block of `MMU_pre_exec` fires alone**, and a
    `BRK` is still shown at the program counter with the kernel mapped: for every user
    machine whose next iteration enters the kernel. -/
theorem trapEntry_preserved_iff (m : Machine) (h : UserMachine m)
    (hEnters : (mmuPreExec m).bus.mmu.pageTable mmuLastSegment = kernelFrame) :
    EntryPreserved m ↔ blocksFired m = 1 ∧
      (takesIrq m = false ∧ opcodeAtPc m = opcodeBrk → ShowsBrkAgain m) := by
  have hStage := mmuPreExec_stage h
  generalize hEq : mmuPreExec m = s at hStage
  generalize hFired : blocksFired m = n at hStage
  -- the three ways through the blocks: nothing fired, a `BRK` alone, at least one interrupt
  cases hStage with
  | user =>
    rw [hEq, preExecFetch_pageTable h] at hEnters
    exact absurd hEnters.symm (user_frame_ne_kernelFrame h)
  | brk hIrq hBrk =>
    rw [entryPreserved_brk_iff h hEq hIrq hBrk]
    exact ⟨fun hAgain => ⟨rfl, fun _ => hAgain⟩, fun hBoth => hBoth.2 ⟨hIrq, hBrk⟩⟩
  | trapped hTrapped =>
    rw [entryPreserved_trapped_iff h (hFired ▸ hEq ▸ hTrapped), hFired]
    refine ⟨fun hOne => ⟨hOne, ?_⟩, And.left⟩
    rintro ⟨hIrq, hBrk⟩
    exact absurd ⟨hIrq, hBrk⟩ (not_brk_of_trapped h (hEq ▸ hTrapped) (hFired.trans hOne))

/-- A `BRK` alone, in the first page behind the stack, is preserved. -/
theorem zeroedMachine_entryPreserved :
    UserMachine (zeroedMachine 0x0200) ∧
      (mmuPreExec (zeroedMachine 0x0200)).bus.mmu.pageTable mmuLastSegment = kernelFrame ∧
      EntryPreserved (zeroedMachine 0x0200) :=
  have hUser := userMachine_zeroed 0x0200
  have hEnters := kernel_mapped_of_fired hUser (by decide)
  ⟨hUser, hEnters, (trapEntry_preserved_iff _ hUser hEnters).mpr (by decide)⟩

/-- The program has just stored through an unmapped segment, and its next instruction is a
    `BRK`. -/
def violationAtBrk : Machine := (zeroedMachine 0x0200).setMmu fun u => { u with pendingNmi := true }

/-- A `BRK` behind a violation is not preserved: `prev` is the kernel's own frame. -/
theorem violationAtBrk_not_entryPreserved :
    UserMachine violationAtBrk ∧
      (mmuPreExec violationAtBrk).bus.mmu.pageTable mmuLastSegment = kernelFrame ∧
      ¬ EntryPreserved violationAtBrk :=
  have hZeroed := userMachine_zeroed 0x0200
  have hUser : UserMachine violationAtBrk := ⟨hZeroed.entries, hZeroed.stack, hZeroed.idle⟩
  ⟨hUser, kernel_mapped_of_fired hUser (by decide),
    not_entryPreserved_of_blocks hUser (by decide)⟩

end Xv6502.Emulator
