import Xv6502.Emulator.CoreFrame
import Xv6502.Emulator.CpuStep

/-!
# Entering a Handler

What the interrupt entries of the core do on the board when the kernel is mapped in the
last segment and the stack page is mapped: they push the interrupt frame into the user's
frame of segment 0 and load the program counter from a vector of the kernel frame
(`enterVector_run`). The entries by `MCS6502IRQ`, by `MCS6502NMI`, by a queued NMI and by
`BRK` are all of this form.
-/

namespace Xv6502.Emulator

open Xv6502.Lib

/-! ## §1 Words and bytes -/

theorem wordOf_low_high (w : Word) : wordOf (lowByte w) (highByte w) = w := by
  apply BitVec.eq_of_getElem_eq
  intro i hi
  simp only [wordOf, lowByte, highByte, BitVec.getElem_or, BitVec.getElem_shiftLeft,
    BitVec.getElem_setWidth, BitVec.getLsbD_setWidth, BitVec.getLsbD_ushiftRight]
  by_cases hLow : i < 8
  · simp [hLow, hi]
  · have hHigh : i - 8 < 8 := by omega
    have hSum : 8 + (i - 8) = i := by omega
    simp [hLow, hHigh, hi, hSum, BitVec.getLsbD_eq_getElem]

theorem toNat_lowByte (w : Word) : (lowByte w).toNat = w.toNat % 256 := by
  rw [lowByte, BitVec.toNat_setWidth]

theorem toNat_highByte (w : Word) : (highByte w).toNat = w.toNat / 256 := by
  have hLt := w.isLt
  rw [highByte, BitVec.toNat_setWidth, BitVec.toNat_ushiftRight, Nat.shiftRight_eq_div_pow]
  omega

theorem toNat_wordOf (lo hi : Byte) : (wordOf lo hi).toNat = hi.toNat * 256 + lo.toNat := by
  have hLo := lo.isLt
  have hShift : (hi.setWidth 16 <<< 8).toNat = hi.toNat <<< 8 := by
    rw [BitVec.toNat_shiftLeft, BitVec.toNat_setWidth, Nat.shiftLeft_eq, Nat.shiftLeft_eq]
    omega
  have hSet : (lo.setWidth 16).toNat = lo.toNat := by
    rw [BitVec.toNat_setWidth]
    omega
  rw [wordOf, BitVec.toNat_or, hShift, hSet, ← Nat.shiftLeft_add_eq_or_of_lt (by omega),
    Nat.shiftLeft_eq]

/-! ## §2 The stack page -/

/-- The stack page is mapped, in a frame the kernel hands out to user programs. -/
structure Mmu.StackMapped (u : Mmu) : Prop where
  userFrame : 0x10 ≤ (u.pageTable 0).toNat
  valid : u.pageTable 0 ≠ mmuFrameInvalid

/-- The physical address of the stack byte at `sp`. -/
def stackPhysical (u : Mmu) (sp : Byte) : Nat :=
  (u.pageTable 0).toNat * 0x1000 + (0x100 + sp.toNat)

/-- A byte stored on the stack. -/
def Board.push (b : Board) (sp byte : Byte) : Board :=
  { b with ram := Function.update b.ram (stackPhysical b.mmu sp) byte }

theorem stackAddress_toNat (sp : Byte) : (stackAddress sp).toNat = 0x100 + sp.toNat := by
  have hBase : (0x0100 : Word).toNat = 0x100 := rfl
  simp only [stackAddress, BitVec.toNat_add, BitVec.toNat_setWidth, hBase]
  omega

theorem segmentOf_stackAddress (sp : Byte) : segmentOf (stackAddress sp) = 0 := by
  apply Fin.ext
  simp only [segmentOf, stackAddress_toNat, Fin.val_zero]
  omega

theorem physicalAddress_stack {u : Mmu} (h : u.StackMapped) (sp : Byte) :
    physicalAddress u (stackAddress sp) = stackPhysical u sp := by
  have hOffset : offsetOf (stackAddress sp) = 0x100 + sp.toNat := by
    simp only [offsetOf, stackAddress_toNat]
    omega
  rw [physicalAddress, segmentOf_stackAddress, if_neg h.valid, hOffset, stackPhysical]

theorem stackPhysical_high {u : Mmu} (h : u.StackMapped) (sp : Byte) :
    0x10000 ≤ stackPhysical u sp := by
  have := h.userFrame
  unfold stackPhysical
  omega

theorem stackPhysical_lt_ramSize (u : Mmu) (sp : Byte) : stackPhysical u sp < ramSize := by
  unfold stackPhysical ramSize
  omega

theorem stackPhysical_ne (u : Mmu) {sp sp' : Byte} (h : sp ≠ sp') :
    stackPhysical u sp ≠ stackPhysical u sp' := by
  intro hEq
  unfold stackPhysical at hEq
  exact h (BitVec.eq_of_toNat_eq (by omega))

/-- Translating an address through a valid entry leaves the MMU alone. -/
theorem mmuTranslate_of_not_faults {u : Mmu} {va : Word} (h : ¬ u.faults va) :
    mmuTranslate u va = u :=
  if_neg h

/-- A write to the stack page stores one byte of the frame of segment 0. -/
theorem machineWrite_stack {b : Board} (h : b.mmu.StackMapped) (sp byte : Byte) :
    machineWrite (stackAddress sp) byte b = b.push sp byte := by
  have hValid : ¬ b.mmu.faults (stackAddress sp) := by
    rw [Mmu.faults, segmentOf_stackAddress]
    exact h.valid
  have hHigh := stackPhysical_high h sp
  have hDev : ¬ InDevicePage (stackPhysical b.mmu sp) := fun hPage => by
    obtain ⟨-, hTop⟩ := hPage
    omega
  rw [machineWrite, physicalAddress_stack h, Board.translate, mmuTranslate_of_not_faults hValid,
    writePhysical_of_not_device _ _ hDev, if_pos (stackPhysical_lt_ramSize _ _)]
  rfl

/-! ## §3 The vectors -/

/-- The address stored in a vector of the kernel frame, as the bus shows it. -/
def vectorAt (b : Board) (vector : Word) : Word :=
  wordOf (readPhysical b vector.toNat) (readPhysical b (vector.toNat + 1))

/-- The last page of the kernel frame is ROM or RAM, by `rom_enable`. -/
theorem readPhysical_romPage (b : Board) {addr : Nat} (hBase : romBase ≤ addr)
    (hTop : addr < romBase + romSize) :
    readPhysical b addr =
      if b.rom.romEnable ≠ 0 then b.rom.data (addr - romBase) else b.ram addr := by
  unfold romBase romSize at *
  unfold readPhysical
  simp only [plicInterruptLines, timerCtrl, timerLatchHigh, timerLatchLow, timerCounterHigh,
    timerCounterLow, mmuPageTable, mmuPrevRegister, mmuWatchdogRegister, mmuCauseRegister,
    mmuVaRegisterLow, mmuVaRegisterHigh, romEnable, romBase, romSize, diskBuf, diskSectorSize,
    diskCmd, diskStat, diskLba, uartRx, uartTx, uartStat, ramSize]
  iterate 13 refine (if_neg (by omega)).trans ?_
  -- no register of a device lies in the last page
  by_cases hRom : b.rom.romEnable ≠ 0
  · exact (if_pos ⟨hBase, hTop, hRom⟩).trans (if_pos hRom).symm
  · refine (if_neg fun h => hRom h.2.2).trans ?_
    iterate 8 refine (if_neg (by omega)).trans ?_
    exact (if_pos (by omega)).trans (if_neg hRom).symm

/-- The ROM and the RAM of the first sixteen frames are the same. -/
structure SameLow (b b' : Board) : Prop where
  rom : b'.rom = b.rom
  ram : ∀ addr < 0x10000, b'.ram addr = b.ram addr

theorem SameLow.trans {a b c : Board} (hab : SameLow a b) (hbc : SameLow b c) : SameLow a c :=
  ⟨hbc.rom.trans hab.rom, fun addr hAddr => (hbc.ram addr hAddr).trans (hab.ram addr hAddr)⟩

/-- The vector is that of an interrupt: two bytes of the last page. -/
def IsVector (vector : Word) : Prop := vector = irqVectorAddress ∨ vector = nmiVectorAddress

theorem IsVector.bounds {vector : Word} (h : IsVector vector) :
    romBase ≤ vector.toNat ∧ vector.toNat + 1 < romBase + romSize := by
  obtain rfl | rfl := h <;> decide

theorem vectorAt_eq_of_sameLow {b b' : Board} (h : SameLow b b') {vector : Word}
    (hVector : IsVector vector) : vectorAt b' vector = vectorAt b vector := by
  obtain ⟨hBase, hTop⟩ := hVector.bounds
  have hRead : ∀ addr, romBase ≤ addr → addr < romBase + romSize →
      readPhysical b' addr = readPhysical b addr := by
    intro addr hBase hTop
    have hLow : addr < 0x10000 := by unfold romBase romSize at hTop; omega
    rw [readPhysical_romPage b' hBase hTop, readPhysical_romPage b hBase hTop, h.rom,
      h.ram addr hLow]
  rw [vectorAt, vectorAt, hRead _ hBase (by omega), hRead _ (by omega) hTop]

theorem sameLow_push {b : Board} (h : b.mmu.StackMapped) (sp byte : Byte) :
    SameLow b (b.push sp byte) := by
  refine ⟨rfl, fun addr hAddr => ?_⟩
  have hHigh := stackPhysical_high h sp
  exact Function.update_of_ne (by omega) _ _

/-- With the kernel mapped in the last segment its last page is read as it is. -/
theorem machineRead_kernelPage {b : Board} (hKernel : b.mmu.pageTable mmuLastSegment = kernelFrame)
    {va : Word} (hBase : romBase ≤ va.toNat) :
    machineRead va b = (readPhysical b va.toNat, b) := by
  have hSegment : segmentOf va = mmuLastSegment := by
    apply Fin.ext
    unfold romBase at hBase
    simp only [segmentOf, mmuLastSegment]
    show va.toNat / 0x1000 = 15
    omega
  -- frame 15 behind segment 15: translation is the identity there, and no device is that high
  have hEntry : b.mmu.pageTable (segmentOf va) = kernelFrame := by rw [hSegment, hKernel]
  have hValid : ¬ b.mmu.faults va := by
    rw [Mmu.faults, hEntry]
    decide
  have hPhysical : physicalAddress b.mmu va = va.toNat := by
    rw [physicalAddress, hEntry, if_neg (by decide)]
    unfold romBase at hBase
    show 15 * 0x1000 + va.toNat % 0x1000 = va.toNat
    omega
  have hEffect : readEffect b va.toNat = b := by
    have hRx : va.toNat ≠ uartRx := by unfold uartRx romBase at *; omega
    rw [readEffect, if_neg hRx]
  have hTranslate : b.translate va = b := by
    rw [Board.translate, mmuTranslate_of_not_faults hValid]
  rw [machineRead, hPhysical, hTranslate, hEffect]

/-! ## §4 Entries -/

/-- The board with an interrupt frame pushed: return address and status. -/
def Board.pushFrame (b : Board) (sp : Byte) (returnPC : Word) (flags : Byte) : Board :=
  ((b.push sp (highByte returnPC)).push (sp - 1) (lowByte returnPC)).push (sp - 1 - 1) flags

/-- The handler of `vector` entered, as `enterVector` does it. -/
def entered (m : Machine) (returnPC : Word) (b : Bool) (vector : Word) : Machine where
  cpu := { m.cpu.setFlag statusI true with
    sp := m.cpu.sp - 1 - 1 - 1
    pc := vectorAt m.bus vector }
  bus := m.bus.pushFrame m.cpu.sp returnPC (pushedFlags b m.cpu.p)

/-- The mapping an entry needs: the stack page and the kernel. -/
structure Mmu.EntryMapped (u : Mmu) : Prop where
  stack : u.StackMapped
  kernel : u.pageTable mmuLastSegment = kernelFrame

theorem sameLow_pushFrame {b : Board} (h : b.mmu.StackMapped) (sp : Byte) (returnPC : Word)
    (flags : Byte) : SameLow b (b.pushFrame sp returnPC flags) :=
  ((sameLow_push h sp (highByte returnPC)).trans
    (sameLow_push (b := b.push sp (highByte returnPC)) h (sp - 1) (lowByte returnPC))).trans
    (sameLow_push (b := (b.push sp (highByte returnPC)).push (sp - 1) (lowByte returnPC)) h
      (sp - 1 - 1) flags)

theorem pushByte_run {m : Machine} (h : m.bus.mmu.StackMapped) (byte : Byte) :
    (pushByte machineBus byte).run m =
      ((), ⟨{ m.cpu with sp := m.cpu.sp - 1 }, m.bus.push m.cpu.sp byte⟩) := by
  have hWrite := machineWrite_stack h m.cpu.sp byte
  show ((), (⟨{ m.cpu with sp := m.cpu.sp - 1 },
    machineWrite (stackAddress m.cpu.sp) byte m.bus⟩ : Machine)) = _
  rw [hWrite]

theorem readWordAtAddress_vector {m : Machine} (h : m.bus.mmu.pageTable mmuLastSegment = kernelFrame)
    {vector : Word} (hVector : IsVector vector) :
    (readWordAtAddress machineBus vector).run m = (vectorAt m.bus vector, m) := by
  obtain ⟨hBase, hTop⟩ := hVector.bounds
  have hNext : (vector + 1).toNat = vector.toNat + 1 := by
    obtain rfl | rfl := hVector <;> rfl
  have hLow := machineRead_kernelPage h hBase
  have hHigh : machineRead (vector + 1) m.bus = (readPhysical m.bus (vector + 1).toNat, m.bus) :=
    machineRead_kernelPage h (by omega)
  have hRun : (readWordAtAddress machineBus vector).run m =
      (wordOf (machineRead vector m.bus).1
        (machineRead (vector + 1) (machineRead vector m.bus).2).1,
        ⟨m.cpu, (machineRead (vector + 1) (machineRead vector m.bus).2).2⟩) := rfl
  rw [hRun, hLow, hHigh, hNext]
  rfl

/-- **What an interrupt entry does to the machine.** -/
theorem enterVector_run {m : Machine} (h : m.bus.mmu.EntryMapped) (returnPC : Word) (b : Bool)
    {vector : Word} (hVector : IsVector vector) :
    (enterVector machineBus returnPC b vector).run m = ((), entered m returnPC b vector) := by
  -- the machine behind each of the three pushes, and behind the mask
  let m₁ : Machine := ⟨{ m.cpu with sp := m.cpu.sp - 1 }, m.bus.push m.cpu.sp (highByte returnPC)⟩
  let m₂ : Machine := ⟨{ m₁.cpu with sp := m₁.cpu.sp - 1 },
    m₁.bus.push m₁.cpu.sp (lowByte returnPC)⟩
  let m₃ : Machine := ⟨{ m₂.cpu with sp := m₂.cpu.sp - 1 },
    m₂.bus.push m₂.cpu.sp (pushedFlags b m₂.cpu.p)⟩
  have h₁ : (pushByte machineBus (highByte returnPC)).run m = ((), m₁) := pushByte_run h.stack _
  have h₂ : (pushByte machineBus (lowByte returnPC)).run m₁ = ((), m₂) :=
    pushByte_run (m := m₁) h.stack _
  have h₃ : (pushFlags machineBus b).run m₂ = ((), m₃) :=
    pushByte_run (m := m₂) h.stack (pushedFlags b m₂.cpu.p)
  let m₄ : Machine := ⟨m₃.cpu.setFlag statusI true, m₃.bus⟩
  have hMask : (modifyCpu (Cpu.setFlag statusI true) : CoreM Board Unit).run m₃ = ((), m₄) := rfl
  have h₄ : (readWordAtAddress machineBus vector).run m₄ = (vectorAt m₄.bus vector, m₄) :=
    readWordAtAddress_vector (m := m₄) h.kernel hVector
  have hRun : (enterVector machineBus returnPC b vector).run m =
      ((), ⟨{ m₄.cpu with pc := vectorAt m₄.bus vector }, m₄.bus⟩) := by
    refine (run_bind_eq h₁).trans ?_
    refine (run_bind_eq h₂).trans ?_
    refine (run_bind_eq h₃).trans ?_
    refine (run_bind_eq hMask).trans ?_
    exact run_bind_eq h₄
  -- what the pushes write is below the vectors
  have hTarget : vectorAt m₄.bus vector = vectorAt m.bus vector :=
    vectorAt_eq_of_sameLow (sameLow_pushFrame h.stack m.cpu.sp returnPC _) hVector
  rw [hRun, hTarget]
  rfl

/-! ## §5 The four ways in -/

/-- The machine after `MCS6502IRQ` or `MCS6502NMI` has entered the handler of `vector`. -/
def interrupted (m : Machine) (vector : Word) : Machine :=
  let e := entered m m.cpu.pc false vector
  { e with cpu := { e.cpu with timingForLastOperation := 7, pendingTiming := 7 } }

/-- The body of `HandleIRQ` and `HandleNMI`: clear the request, then enter. -/
private theorem handler_run {m : Machine} (h : m.bus.mmu.EntryMapped) (clear : Cpu → Cpu)
    {vector : Word} (hVector : IsVector vector) :
    (do
      modifyCpu clear
      enterVector machineBus (← getCpu).pc false vector
      modifyCpu fun c => { c with timingForLastOperation := 7 } : CoreM Board Unit).run m =
      let e := entered ⟨clear m.cpu, m.bus⟩ (clear m.cpu).pc false vector
      ((), { e with cpu := { e.cpu with timingForLastOperation := 7 } }) := by
  have hClear : (modifyCpu clear : CoreM Board Unit).run m = ((), ⟨clear m.cpu, m.bus⟩) := rfl
  have hGet : (getCpu : CoreM Board Cpu).run ⟨clear m.cpu, m.bus⟩ =
      (clear m.cpu, ⟨clear m.cpu, m.bus⟩) := rfl
  refine (run_bind_eq hClear).trans ?_
  refine (run_bind_eq hGet).trans ?_
  exact run_bind_eq (enterVector_run (m := ⟨clear m.cpu, m.bus⟩) h (clear m.cpu).pc false hVector)

/-- An idle core has no request to clear. -/
private theorem clear_idle {c : Cpu} (hIdle : c.Idle) :
    ({ c with irqPending := false } : Cpu) = c ∧ ({ c with nmiPending := false } : Cpu) = c := by
  obtain ⟨a, x, y, sp, pc, p, pendingTiming, timing, irqPending, nmiPending⟩ := c
  simp only [Cpu.Idle, Cpu.queue, InterruptQueue.mk.injEq] at hIdle
  obtain ⟨-, rfl, rfl⟩ := hIdle
  exact ⟨rfl, rfl⟩

theorem Cpu.Idle.pendingTiming {c : Cpu} (hIdle : c.Idle) : c.pendingTiming = 0 :=
  congrArg InterruptQueue.pendingTiming hIdle

theorem mcs6502IRQ_run {m : Machine} (hIdle : m.cpu.Idle) (hMask : m.cpu.isSet statusI = false)
    (h : m.bus.mmu.EntryMapped) :
    ((mcs6502IRQ machineBus).run m).2 = interrupted m irqVectorAddress := by
  have hRun : (mcs6502IRQ machineBus).run m = (
      if m.cpu.isSet statusI then return ()
      else if m.cpu.pendingTiming > 0 then modifyCpu fun c => { c with irqPending := true }
      else do
        handleIRQ machineBus
        modifyCpu fun c => { c with pendingTiming := c.timingForLastOperation } :
      CoreM Board Unit).run m := rfl
  -- nothing is pending, so the interrupt is taken at once
  have hFree : ¬ m.cpu.pendingTiming > 0 := by rw [hIdle.pendingTiming]; exact Nat.lt_irrefl 0
  rw [hRun, if_neg (by simp [hMask]), if_neg hFree]
  have hHandle : (handleIRQ machineBus).run m = _ :=
    handler_run h (fun c => { c with irqPending := false }) (.inl rfl)
  simp only [(clear_idle hIdle).1] at hHandle
  rw [run_bind_eq hHandle]
  rfl

theorem mcs6502NMI_run {m : Machine} (hIdle : m.cpu.Idle) (h : m.bus.mmu.EntryMapped) :
    ((mcs6502NMI machineBus).run m).2 = interrupted m nmiVectorAddress := by
  have hRun : (mcs6502NMI machineBus).run m = (
      if m.cpu.pendingTiming > 0 then modifyCpu fun c => { c with nmiPending := true }
      else do
        handleNMI machineBus
        modifyCpu fun c => { c with pendingTiming := c.timingForLastOperation } :
      CoreM Board Unit).run m := rfl
  -- nothing is pending, so the interrupt is taken at once
  have hFree : ¬ m.cpu.pendingTiming > 0 := by rw [hIdle.pendingTiming]; exact Nat.lt_irrefl 0
  rw [hRun, if_neg hFree]
  have hHandle : (handleNMI machineBus).run m = _ :=
    handler_run h (fun c => { c with nmiPending := false }) (.inr rfl)
  simp only [(clear_idle hIdle).2] at hHandle
  rw [run_bind_eq hHandle]
  rfl

/-- While an operation is pending the NMI is only queued. -/
theorem mcs6502NMI_run_pending {m : Machine} (hPending : 0 < m.cpu.pendingTiming) :
    ((mcs6502NMI machineBus).run m).2 = { m with cpu := { m.cpu with nmiPending := true } } := by
  have hRun : (mcs6502NMI machineBus).run m = (
      if m.cpu.pendingTiming > 0 then modifyCpu fun c => { c with nmiPending := true }
      else do
        handleNMI machineBus
        modifyCpu fun c => { c with pendingTiming := c.timingForLastOperation } :
      CoreM Board Unit).run m := rfl
  rw [hRun, if_pos hPending]
  rfl

/-- A queued NMI is taken instead of an instruction. -/
theorem execNext_nmi {m : Machine} (hNmi : m.cpu.nmiPending = true)
    (h : m.bus.mmu.EntryMapped) :
    execNext m =
      let e := entered m m.cpu.pc false nmiVectorAddress
      { e with cpu := { e.cpu with
          timingForLastOperation := 7, pendingTiming := 0, nmiPending := false } } := by
  let m₀ : Machine := ⟨{ m.cpu with pendingTiming := 0, timingForLastOperation := 0 }, m.bus⟩
  have hHandle : (handleNMI machineBus).run m₀ = _ :=
    handler_run (m := m₀) h (fun c => { c with nmiPending := false }) (.inr rfl)
  rw [execNext, execNext_run, if_pos hNmi]
  exact congrArg Prod.snd (run_bind_eq hHandle)

/-- The entry of `BRK` in the instruction table. -/
def brkInstruction : Instruction := ⟨0x00, .brk, .implied, 7, false⟩

/-- The code of `BRK`. -/
private theorem execute_brk {m : Machine} (h : m.bus.mmu.EntryMapped) :
    ((execute machineBus brkInstruction).run m).2 =
      let e := entered m (m.cpu.pc + 2) true irqVectorAddress
      { e with cpu := e.cpu.addTiming 7 } := by
  have hGet : (getCpu : CoreM Board Cpu).run m = (m.cpu, m) := rfl
  have hEnter := enterVector_run h (m.cpu.pc + 2) true (.inl rfl)
  have hOp : (executeOp machineBus brkInstruction.mnemonic (operandOf machineBus brkInstruction)
      (executeConditionalBranch machineBus brkInstruction)).run m =
      (true, entered m (m.cpu.pc + 2) true irqVectorAddress) := by
    show (executeOp machineBus .brk _ _).run m = _
    rw [executeOp, run_bind_eq hGet, run_bind_eq hEnter]
    rfl
  rw [execute, run_bind_eq hGet]
  exact congrArg Prod.snd (run_bind_eq hOp)

/-- `BRK` enters the handler itself, with the return address two bytes behind it. -/
theorem execNext_brk {m : Machine} (hNmi : m.cpu.nmiPending = false)
    (hIrq : m.cpu.irqPending = false) (hOpcode : (machineRead m.cpu.pc m.bus).1 = opcodeBrk)
    (h : (machineRead m.cpu.pc m.bus).2.mmu.EntryMapped) :
    execNext m =
      let e := entered { m with bus := (machineRead m.cpu.pc m.bus).2 } (m.cpu.pc + 2) true
        irqVectorAddress
      { e with cpu := { e.cpu with timingForLastOperation := 7, pendingTiming := 0 } } := by
  let m₀ : Machine := ⟨{ m.cpu with pendingTiming := 0, timingForLastOperation := 0 }, m.bus⟩
  let m₁ : Machine := ⟨m₀.cpu, (machineRead m.cpu.pc m.bus).2⟩
  have hBrk : opcodeTable (machineRead m.cpu.pc m.bus).1 = some brkInstruction := by
    rw [hOpcode]
    decide
  rw [execNext, execNext_run, if_neg (by simp [hNmi]), if_neg (by simp [hIrq])]
  show ((fetchExecute machineBus).run m₀).2 = _
  rw [fetchExecute_run (c := m₀) hBrk]
  exact execute_brk (m := m₁) h

/-! ## §6 The interrupt frame -/

/-- The return address of the interrupt frame on top of the stack. -/
def returnAddress (m : Machine) : Word :=
  wordOf (m.bus.ram (stackPhysical m.bus.mmu (m.cpu.sp + 2)))
    (m.bus.ram (stackPhysical m.bus.mmu (m.cpu.sp + 3)))

theorem returnAddress_entered (m : Machine) (returnPC : Word) (b : Bool) (vector : Word) :
    returnAddress (entered m returnPC b vector) = returnPC := by
  have hLow : m.cpu.sp - 1 - 1 - 1 + 2 = m.cpu.sp - 1 := by bv_omega
  have hHigh : m.cpu.sp - 1 - 1 - 1 + 3 = m.cpu.sp := by bv_omega
  have h₀₁ : m.cpu.sp ≠ m.cpu.sp - 1 := by bv_omega
  have h₀₂ : m.cpu.sp ≠ m.cpu.sp - 1 - 1 := by bv_omega
  have h₁₂ : m.cpu.sp - 1 ≠ m.cpu.sp - 1 - 1 := by bv_omega
  simp only [returnAddress, entered, Board.pushFrame, Board.push, hLow, hHigh]
  rw [Function.update_of_ne (stackPhysical_ne _ h₁₂), Function.update_self,
    Function.update_of_ne (stackPhysical_ne _ h₀₂), Function.update_of_ne (stackPhysical_ne _ h₀₁),
    Function.update_self]
  exact wordOf_low_high returnPC

/-- After an entry interrupts are masked. -/
theorem isSet_statusI_entered (m : Machine) (returnPC : Word) (b : Bool) (vector : Word) :
    (entered m returnPC b vector).cpu.isSet statusI = true := by
  have hBit : (m.cpu.p ||| statusI) &&& statusI = statusI := by
    apply BitVec.eq_of_getElem_eq
    intro i hi
    simp only [BitVec.getElem_and, BitVec.getElem_or]
    cases statusI[i] <;> simp
  show ((m.cpu.p ||| statusI) &&& statusI != 0) = true
  rw [hBit]
  decide

theorem sameLow_entered {m : Machine} (h : m.bus.mmu.StackMapped) (returnPC : Word) (b : Bool)
    (vector : Word) : SameLow m.bus (entered m returnPC b vector).bus :=
  sameLow_pushFrame h _ _ _

end Xv6502.Emulator
