import Xv6502.Emulator.BusMemory
import Xv6502.Emulator.VectorEntry
import Xv6502.Emulator.Assembly

/-!
# The Zero Page and the Stack of the Kernel

Segment 0 as a memory of its own, in whatever frame it is, and the entries of the core that push
their frames there. A program's entry needs one of the frames that are handed out
(`Mmu.StackMapped`); the kernel takes its interrupts also before the first process, on the frame it
was loaded with.
-/

namespace Xv6502.Emulator

open Xv6502.Lib

/-! ## §1 Segment 0 -/

/-- The kernel runs: its frame is in the last segment, and segment 0 is in another one. -/
structure Mmu.KernelMapped (u : Mmu) : Prop where
  low : u.pageTable 0 ≠ kernelFrame
  valid : u.pageTable 0 ≠ mmuFrameInvalid
  kernel : u.pageTable mmuLastSegment = kernelFrame

/-- The physical address of a byte of segment 0. -/
def lowPhysical (u : Mmu) (offset : Nat) : Nat := (u.pageTable 0).toNat * 0x1000 + offset

/-- A byte of segment 0. -/
def Board.low (b : Board) (offset : Nat) : Byte := b.ram (lowPhysical b.mmu offset)

/-- A byte of segment 0 is stored. -/
def Board.setLow (b : Board) (offset : Nat) (byte : Byte) : Board :=
  { b with ram := Function.update b.ram (lowPhysical b.mmu offset) byte }

section Low

variable {b : Board} {addr : Word}

theorem physicalAddress_low {u : Mmu} (h : u.KernelMapped) (hLow : addr.toNat < 0x1000) :
    physicalAddress u addr = lowPhysical u addr.toNat := by
  have hSegment : segmentOf addr = 0 := Fin.ext (Nat.div_eq_of_lt hLow)
  have hOffset : offsetOf addr = addr.toNat := Nat.mod_eq_of_lt hLow
  rw [physicalAddress, hSegment, if_neg h.valid, hOffset, lowPhysical]

theorem not_faults_low {u : Mmu} (h : u.KernelMapped) (hLow : addr.toNat < 0x1000) :
    ¬ u.faults addr := by
  have hSegment : segmentOf addr = 0 := Fin.ext (Nat.div_eq_of_lt hLow)
  rw [Mmu.faults, hSegment]
  exact h.valid

/-- Segment 0 is not in the last of the first sixteen frames. -/
theorem lowPhysical_outside {u : Mmu} (h : u.KernelMapped) {offset : Nat} (hOffset : offset < 0x1000) :
    lowPhysical u offset < 0xf000 ∨ 0x10000 ≤ lowPhysical u offset := by
  have hFrame : (u.pageTable 0).toNat ≠ 15 := fun hEq => h.low (BitVec.eq_of_toNat_eq hEq)
  unfold lowPhysical
  omega

theorem not_inDevicePage_low {u : Mmu} (h : u.KernelMapped) {offset : Nat}
    (hOffset : offset < 0x1000) : ¬ InDevicePage (lowPhysical u offset) := by
  have hOutside := lowPhysical_outside h hOffset
  unfold InDevicePage
  omega

theorem machineRead_low (h : b.mmu.KernelMapped) (hLow : addr.toNat < 0x1000) :
    machineRead addr b = (b.low addr.toNat, b) := by
  have hDevice := not_inDevicePage_low h hLow
  have hRam : lowPhysical b.mmu addr.toNat < ramSize := by
    rw [← physicalAddress_low h hLow]
    exact physicalAddress_lt (not_faults_low h hLow)
  rw [machineRead, physicalAddress_low h hLow, translate_of_not_faults (not_faults_low h hLow),
    readPhysical_of_not_device b hDevice, if_pos hRam, readEffect_of_not_device b hDevice, Board.low]

theorem machineWrite_low (h : b.mmu.KernelMapped) (hLow : addr.toNat < 0x1000) (byte : Byte) :
    machineWrite addr byte b = b.setLow addr.toNat byte := by
  have hDevice : ¬ InDevicePage (physicalAddress b.mmu addr) := by
    rw [physicalAddress_low h hLow]
    exact not_inDevicePage_low h hLow
  rw [machineWrite_mapped byte (not_faults_low h hLow) hDevice, physicalAddress_low h hLow,
    Board.setLow]

end Low

theorem stackAddress_low (sp : Byte) : (stackAddress sp).toNat < 0x1000 := by
  have hSp := sp.isLt
  rw [stackAddress_toNat]
  omega

/-- A byte of segment 0 after another one is stored there. -/
theorem low_setLow (b : Board) (offset : Nat) (byte : Byte) (offset' : Nat) :
    (b.setLow offset byte).low offset' = if offset' = offset then byte else b.low offset' := by
  unfold Board.low Board.setLow lowPhysical
  dsimp only
  rw [Function.update_apply]
  apply if_congr _ rfl rfl
  omega

theorem push_eq_setLow (b : Board) (sp byte : Byte) :
    b.push sp byte = b.setLow (0x100 + sp.toNat) byte := rfl

/-! ## §2 Entries of the kernel -/

section Entries

variable {m : Machine}

theorem pushByte_kernel (h : m.bus.mmu.KernelMapped) (byte : Byte) :
    (pushByte machineBus byte).run m =
      ((), ⟨{ m.cpu with sp := m.cpu.sp - 1 }, m.bus.push m.cpu.sp byte⟩) := by
  have hWrite := machineWrite_low h (stackAddress_low m.cpu.sp) byte
  rw [stackAddress_toNat] at hWrite
  show ((), (⟨{ m.cpu with sp := m.cpu.sp - 1 },
    machineWrite (stackAddress m.cpu.sp) byte m.bus⟩ : Machine)) = _
  rw [hWrite, push_eq_setLow]

/-- A push does not reach the vectors. -/
theorem vectorAt_push {b : Board} (h : b.mmu.KernelMapped) (sp byte : Byte) {vector : Word}
    (hVector : IsVector vector) : vectorAt (b.push sp byte) vector = vectorAt b vector := by
  obtain ⟨hBase, hTop⟩ := hVector.bounds
  have hSp := sp.isLt
  have hOutside := lowPhysical_outside h (show 0x100 + sp.toNat < 0x1000 by omega)
  have hRead : ∀ addr, romBase ≤ addr → addr < romBase + romSize →
      readPhysical (b.push sp byte) addr = readPhysical b addr := by
    intro addr hLo hHi
    rw [readPhysical_romPage _ hLo hHi, readPhysical_romPage b hLo hHi]
    -- the stack is in the low frame and the vectors are in the last page
    have hRam : (b.push sp byte).ram addr = b.ram addr := by
      apply Function.update_of_ne
      show addr ≠ lowPhysical b.mmu (0x100 + sp.toNat)
      unfold romBase romSize at *
      omega
    rw [hRam]
    rfl
  rw [vectorAt, vectorAt, hRead _ hBase (by omega), hRead _ (by omega) hTop]

/-- What an entry does to the machine, as for the entries from a program. -/
theorem enterVector_kernel (h : m.bus.mmu.KernelMapped) (returnPC : Word) (b : Bool) {vector : Word}
    (hVector : IsVector vector) :
    (enterVector machineBus returnPC b vector).run m = ((), entered m returnPC b vector) := by
  -- the machine behind each of the three pushes, and behind the mask
  let m₁ : Machine := ⟨{ m.cpu with sp := m.cpu.sp - 1 }, m.bus.push m.cpu.sp (highByte returnPC)⟩
  let m₂ : Machine := ⟨{ m₁.cpu with sp := m₁.cpu.sp - 1 },
    m₁.bus.push m₁.cpu.sp (lowByte returnPC)⟩
  let m₃ : Machine := ⟨{ m₂.cpu with sp := m₂.cpu.sp - 1 },
    m₂.bus.push m₂.cpu.sp (pushedFlags b m₂.cpu.p)⟩
  have h₁ : (pushByte machineBus (highByte returnPC)).run m = ((), m₁) := pushByte_kernel h _
  have h₂ : (pushByte machineBus (lowByte returnPC)).run m₁ = ((), m₂) :=
    pushByte_kernel (m := m₁) h _
  have h₃ : (pushFlags machineBus b).run m₂ = ((), m₃) :=
    pushByte_kernel (m := m₂) h (pushedFlags b m₂.cpu.p)
  let m₄ : Machine := ⟨m₃.cpu.setFlag statusI true, m₃.bus⟩
  have hMask : (modifyCpu (Cpu.setFlag statusI true) : CoreM Board Unit).run m₃ = ((), m₄) := rfl
  have h₄ : (readWordAtAddress machineBus vector).run m₄ = (vectorAt m₄.bus vector, m₄) :=
    readWordAtAddress_vector (m := m₄) h.kernel hVector
  have hRun : (enterVector machineBus returnPC b vector).run m =
      ((), ⟨{ m₄.cpu with pc := vectorAt m₄.bus vector }, m₄.bus⟩) := by
    refine (run_bind_eq h₁).trans ?_
    refine (run_bind_eq h₂).trans ?_
    refine (run_bind_eq h₃).trans ?_
    refine (run_bind_eq hMask).trans ?_
    exact run_bind_eq h₄
  -- the pushes are below the last page, so the vector is the one from before
  have hTarget : vectorAt m₄.bus vector = vectorAt m.bus vector := by
    refine (vectorAt_push (b := m₂.bus) h _ _ hVector).trans ?_
    refine (vectorAt_push (b := m₁.bus) h _ _ hVector).trans ?_
    exact vectorAt_push h _ _ hVector
  rw [hRun, hTarget]
  rfl

/-- `MCS6502IRQ` in the kernel. -/
theorem mcs6502IRQ_kernel (hIdle : m.cpu.Idle) (hMask : m.cpu.isSet statusI = false)
    (h : m.bus.mmu.KernelMapped) :
    ((mcs6502IRQ machineBus).run m).2 = interrupted m irqVectorAddress := by
  have hClear : ({ m.cpu with irqPending := false } : Cpu) = m.cpu := by
    have hQueue : m.cpu.irqPending = false := congrArg InterruptQueue.irqPending hIdle
    exact congrArg (fun b => ({ m.cpu with irqPending := b } : Cpu)) hQueue.symm
  have hFree : ¬ m.cpu.pendingTiming > 0 := by
    rw [hIdle.pendingTiming]
    exact Nat.lt_irrefl 0
  -- no timing is pending, so the interrupt is taken and not queued
  have hRun : (mcs6502IRQ machineBus).run m = (
      if m.cpu.isSet statusI then return ()
      else if m.cpu.pendingTiming > 0 then modifyCpu fun c => { c with irqPending := true }
      else do
        handleIRQ machineBus
        modifyCpu fun c => { c with pendingTiming := c.timingForLastOperation } :
      CoreM Board Unit).run m := rfl
  have hStart : (modifyCpu fun c => { c with irqPending := false } : CoreM Board Unit).run m =
      ((), m) := congrArg (fun c => ((), (⟨c, m.bus⟩ : Machine))) hClear
  have hGet : (getCpu : CoreM Board Cpu).run m = (m.cpu, m) := rfl
  have hEnter := enterVector_kernel h m.cpu.pc false (.inl rfl)
  have hHandle : (handleIRQ machineBus).run m = ((), ⟨{ (entered m m.cpu.pc false
      irqVectorAddress).cpu with timingForLastOperation := 7 },
        (entered m m.cpu.pc false irqVectorAddress).bus⟩) := by
    refine (run_bind_eq hStart).trans ?_
    refine (run_bind_eq hGet).trans ?_
    exact run_bind_eq hEnter
  rw [hRun, if_neg (by simp [hMask]), if_neg hFree, run_bind_eq hHandle]
  rfl

/-- `BRK` in the kernel. -/
theorem exec_brk_kernel (h : m.bus.mmu.KernelMapped) :
    exec machineBus (.brk, implied) m = entered m (m.cpu.pc + 2) true irqVectorAddress := by
  have hGet : (getCpu : CoreM Board Cpu).run m = (m.cpu, m) := rfl
  have hEnter := enterVector_kernel h (m.cpu.pc + 2) true (.inl rfl)
  have hOp : (executeOp machineBus .brk implied fun _ => pure ()).run m =
      (true, entered m (m.cpu.pc + 2) true irqVectorAddress) := by
    rw [executeOp, run_bind_eq hGet, run_bind_eq hEnter]
    rfl
  exact congrArg Prod.snd hOp

end Entries

end Xv6502.Emulator
