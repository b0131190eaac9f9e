import Xv6502.Emulator.UserIteration

/-!
# User Programs and Kernel Privilege

What one iteration of `CPU_step` from user mode can do. Either the program stays in user
mode and changes nothing but RAM in its own frames, or the kernel is entered and the
first instruction executed with the kernel mapped is the one a vector of the kernel frame
names. `userIteration_privilege_iff` says exactly when: unless the program executes a `BRK`
that lies in the last segment, with no interrupt and no violation at the same time. Then
the core fetches its opcode from the kernel frame, at a program counter chosen by the
user.
-/

namespace Xv6502.Emulator

open Xv6502.Lib

/-! ## §1 Staying in user mode -/

/-- The physical address lies in a frame of the page table. -/
def InMappedFrame (u : Mmu) (addr : Nat) : Prop :=
  ∃ s, u.pageTable s ≠ mmuFrameInvalid ∧ addr / 0x1000 = (u.pageTable s).toNat

/-- Every device register is unchanged, the MMU's latches of the last access and the last
    opcode apart, and every RAM byte outside the frames of the page table. -/
structure Confined (b b' : Board) : Prop where
  rom : b'.rom = b.rom
  uart : b'.uart = b.uart
  disk : b'.disk = b.disk
  timer : b'.timer = b.timer
  plic : b'.plic = b.plic
  mmu : b'.mmu = { b.mmu with
    va := b'.mmu.va
    opcode := b'.mmu.opcode
    inUser := b'.mmu.inUser
    pendingNmi := b'.mmu.pendingNmi }
  ram : ∀ addr, ¬ InMappedFrame b.mmu addr → b'.ram addr = b.ram addr

theorem Confined.pageTable {b b' : Board} (h : Confined b b') :
    b'.mmu.pageTable = b.mmu.pageTable := by
  rw [h.mmu]

theorem Confined.trans {a b c : Board} (hab : Confined a b) (hbc : Confined b c) :
    Confined a c where
  rom := hbc.rom.trans hab.rom
  uart := hbc.uart.trans hab.uart
  disk := hbc.disk.trans hab.disk
  timer := hbc.timer.trans hab.timer
  plic := hbc.plic.trans hab.plic
  mmu := by rw [hbc.mmu, hab.mmu]
  ram addr hOut := by
    have hOut' : ¬ InMappedFrame b.mmu addr := by
      unfold InMappedFrame
      rw [hab.pageTable]
      exact hOut
    exact (hbc.ram addr hOut').trans (hab.ram addr hOut)

/-- What an access through a user's page table can do. -/
def UserAccess (b b' : Board) : Prop :=
  (∀ s, 0x10 ≤ (b.mmu.pageTable s).toNat) → Confined b b' ∧ b'.mmu.inUser = b.mmu.inUser

instance : Std.Refl UserAccess :=
  ⟨fun _ _ => ⟨⟨rfl, rfl, rfl, rfl, rfl, rfl, fun _ _ => rfl⟩, rfl⟩⟩

instance : IsTrans Board UserAccess := by
  refine ⟨fun a b c hab hbc hTable => ?_⟩
  obtain ⟨hFirst, hUser⟩ := hab hTable
  obtain ⟨hSecond, hUser'⟩ := hbc (by rw [hFirst.pageTable]; exact hTable)
  exact ⟨hFirst.trans hSecond, hUser'.trans hUser⟩

theorem confined_translate (b : Board) (va : Word) :
    Confined b (b.translate va) ∧ (b.translate va).mmu.inUser = b.mmu.inUser := by
  unfold Board.translate mmuTranslate
  split <;> exact ⟨⟨rfl, rfl, rfl, rfl, rfl, rfl, fun _ _ => rfl⟩, rfl⟩

/-- Every address of RAM that an access reaches lies in a frame of the page table. -/
theorem inMappedFrame_physicalAddress {u : Mmu} {va : Word}
    (hRam : physicalAddress u va < ramSize) : InMappedFrame u (physicalAddress u va) := by
  unfold physicalAddress at *
  split at hRam
  case isTrue => exact absurd hRam (by decide)
  case isFalse hValid =>
    rw [if_neg hValid]
    refine ⟨segmentOf va, hValid, ?_⟩
    unfold offsetOf
    omega

theorem keptByAccess_userAccess : KeptByAccess machineBus UserAccess where
  read va b hTable := by
    show Confined b (machineRead va b).2 ∧ (machineRead va b).2.mmu.inUser = b.mmu.inUser
    rw [machineRead_user hTable]
    exact confined_translate b va
  write va byte b hTable := by
    -- no entry of the program maps the frame of the devices
    have hDev := not_inDevicePage_user hTable va
    obtain ⟨hTranslate, hUser⟩ := confined_translate b va
    show Confined b (machineWrite va byte b) ∧ (machineWrite va byte b).mmu.inUser = b.mmu.inUser
    rw [machineWrite, writePhysical_of_not_device _ _ hDev]
    split
    case isFalse => exact ⟨hTranslate, hUser⟩
    case isTrue hRam =>
      refine ⟨{ hTranslate with ram := fun addr hOut => ?_ }, hUser⟩
      refine (Function.update_of_ne ?_ _ _).trans (hTranslate.ram addr hOut)
      rintro rfl
      exact hOut (inMappedFrame_physicalAddress hRam)

/-- One iteration stays in user mode: the mapping is not switched, and nothing outside the
    program's own frames changes. -/
def StaysUser (m : Machine) : Prop :=
  (mmuPreExec m).bus.mmu.pageTable = m.bus.mmu.pageTable ∧ Confined m.bus (cpuStepIteration m).bus

theorem confined_fetch {m : Machine} (h : UserMachine m) :
    Confined m.bus (preExecFetch m).bus := by
  rw [preExecFetch_user h]
  simp only [Ctx.setMmu, mmuTranslate]
  split <;> exact ⟨rfl, rfl, rfl, rfl, rfl, rfl, fun _ _ => rfl⟩

/-- If no block of `MMU_pre_exec` fires, the iteration stays in user mode. -/
theorem staysUser_of_fetch {m : Machine} (h : UserMachine m)
    (hPre : mmuPreExec m = preExecFetch m) : StaysUser m := by
  have hFetch := confined_fetch h
  have hTable : ∀ s, 0x10 ≤ ((preExecFetch m).bus.mmu.pageTable s).toNat := by
    rw [hFetch.pageTable]
    exact h.entries
  obtain ⟨hExec, hUser⟩ := keeps_execNext keptByAccess_userAccess (preExecFetch m) hTable
  have hInUser : (execNext (preExecFetch m)).bus.mmu.inUser = true :=
    hUser.trans (inPreExec_fetch h).inUser
  refine ⟨hPre ▸ hFetch.pageTable, ?_⟩
  rw [cpuStepIteration, hPre, mmuPostExec_inUser hInUser]
  exact hFetch.trans hExec

/-! ## §2 Entering the kernel -/

/-- The machine that executes the next instruction of the core: an iteration that takes a
    queued interrupt executes none. -/
def nextInstruction (k : Machine) : Machine :=
  if k.cpu.nmiPending || k.cpu.irqPending then mmuPreExec (mmuPostExec (execNext k)) else k

/-- The kernel is mapped and the program counter is the address stored in the IRQ or the NMI
    vector of its frame. -/
def AtVector (m k : Machine) : Prop :=
  k.bus.mmu.pageTable mmuLastSegment = kernelFrame ∧
    (k.cpu.pc = vectorAt m.bus irqVectorAddress ∨ k.cpu.pc = vectorAt m.bus nmiVectorAddress)

/-- One iteration enters the kernel through a vector. Either `MMU_pre_exec` has interrupted
    the core, and the first instruction executed with the kernel mapped is at a vector; or
    the core executes the user's own `BRK`, from user memory, and the next one is. -/
structure EntersThroughVector (m : Machine) : Prop where
  kernel : (mmuPreExec m).bus.mmu.pageTable mmuLastSegment = kernelFrame
  first :
    (0 < (mmuPreExec m).cpu.pendingTiming ∧ AtVector m (nextInstruction (mmuPreExec m))) ∨
    ((mmuPreExec m).cpu = m.cpu ∧ segmentOf m.cpu.pc ≠ mmuLastSegment ∧
      opcodeAtPc (mmuPreExec m) = opcodeBrk ∧ AtVector m (mmuPreExec (cpuStepIteration m)))

theorem AtHandler.atVector {m k : Machine} (h : AtHandler m k) : AtVector m k := by
  obtain ⟨v, hVector, hPc⟩ := h.vector
  obtain rfl | rfl := hVector
  · exact ⟨h.mapped.kernel, .inl hPc⟩
  · exact ⟨h.mapped.kernel, .inr hPc⟩

/-- The opcode fetch at a handler. -/
private theorem atHandler_fetch {m k : Machine} (h : AtHandler m k) :
    AtHandler m (preExecFetch k) ∧ (preExecFetch k).cpu = k.cpu ∧
      (preExecFetch k).bus.mmu.inUser = false := by
  have hMmu := machineRead_mmu k.cpu.pc k.bus
  have hMapped := entryMapped_mmuTranslate h.mapped k.cpu.pc
  rw [← hMmu] at hMapped
  refine ⟨⟨h.vector, h.masked, ⟨⟨hMapped.stack.userFrame, hMapped.stack.valid⟩, hMapped.kernel⟩,
    ?_⟩, rfl, ?_⟩
  · have hRead := h.low.trans (sameLow_machineRead k.cpu.pc k.bus)
    exact ⟨hRead.rom, hRead.ram⟩
  · exact bne_eq_false_iff_eq.mpr hMapped.kernel

/-- **`MMU_pre_exec` does not leave a handler's first instruction**, but for an NMI that its
    fetch may cause. -/
theorem atVector_mmuPreExec {m k : Machine} (h : AtHandler m k) (hIdle : k.cpu.Idle) :
    AtVector m (mmuPreExec k) := by
  obtain ⟨hFetch, hCpu, hKernel⟩ := atHandler_fetch h
  -- the handler runs masked, so the first block fires for a `BRK` at most
  have hIrq : ¬ takesIrq (preExecFetch k) = true := by
    rw [takesIrq, hFetch.masked]
    simp
  have hIntercept : AtHandler m (preExecIntercept (preExecFetch k)) ∧
      (preExecIntercept (preExecFetch k)).cpu = k.cpu ∧
      (preExecIntercept (preExecFetch k)).bus.mmu.inUser = false := by
    rw [preExecIntercept, if_neg hIrq]
    split
    · exact ⟨⟨hFetch.vector, hFetch.masked,
        switchesToKernel_enterKernel.entryMapped hFetch.mapped.stack,
        ⟨hFetch.low.rom, hFetch.low.ram⟩⟩, hCpu, hKernel⟩
    · exact ⟨hFetch, hCpu, hKernel⟩
  obtain ⟨hHandler, hCpu', hKernel'⟩ := hIntercept
  rw [mmuPreExec, preExecWatchdog_eq, hKernel', Bool.false_and, if_neg Bool.false_ne_true,
    preExecViolation_eq]
  split
  · -- the vector names an unmapped address: the NMI is taken at once
    have hMapped := switchesToKernel_violation.entryMapped hHandler.mapped.stack
    rw [mcs6502NMI_run (m := (preExecIntercept (preExecFetch k)).setMmu violationSwitch)
      (show Cpu.Idle (preExecIntercept (preExecFetch k)).cpu from hCpu' ▸ hIdle) hMapped]
    exact ⟨hMapped.kernel, .inr (vectorAt_eq_of_sameLow ⟨hHandler.low.rom, hHandler.low.ram⟩
      (.inr rfl))⟩
  · exact hHandler.atVector

/-- Behind a block that has interrupted the core. -/
theorem entersThroughVector_of_trapped {m : Machine} {n : Nat} (hUser : UserMachine m)
    (h : Trapped m (mmuPreExec m) n) : EntersThroughVector m := by
  refine ⟨h.kernel, .inl ⟨by rw [h.pending]; decide, ?_⟩⟩
  unfold nextInstruction
  rw [h.irqPending, Bool.or_false]
  split
  case isTrue hNmi =>
    exact atVector_mmuPreExec (cpuStepIteration_queued h hNmi).1 (cpuStepIteration_idle hUser.idle)
  case isFalse =>
    have hHandler : AtHandler m (mmuPreExec m) :=
      ⟨h.vector, h.masked, ⟨h.stack, h.kernel⟩, h.low⟩
    exact hHandler.atVector

/-- The byte of a `BRK` outside the last segment is the same for the core's own fetch. -/
theorem opcodeAtPc_enterKernel {m : Machine} (h : UserMachine m)
    (hSegment : segmentOf m.cpu.pc ≠ mmuLastSegment) :
    opcodeAtPc ((preExecFetch m).setMmu Mmu.enterKernel) = opcodeAtPc m := by
  -- the exchange is at the last segment, and the `BRK` is in another one
  have hPhysical : physicalAddress (preExecFetch m).bus.mmu.enterKernel m.cpu.pc =
      physicalAddress m.bus.mmu m.cpu.pc := by
    have hEntry : (preExecFetch m).bus.mmu.enterKernel.pageTable (segmentOf m.cpu.pc) =
        m.bus.mmu.pageTable (segmentOf m.cpu.pc) := by
      rw [← preExecFetch_pageTable h]
      exact Function.update_of_ne hSegment _ _
    rw [physicalAddress, physicalAddress, hEntry]
  have hDev := not_inDevicePage_user h.entries m.cpu.pc
  have hRam : (preExecFetch m).bus.ram = m.bus.ram := by
    rw [preExecFetch_user h]
    rfl
  show readPhysical _ (physicalAddress (preExecFetch m).bus.mmu.enterKernel m.cpu.pc) =
    readPhysical _ (physicalAddress m.bus.mmu m.cpu.pc)
  rw [hPhysical, readPhysical_of_not_device _ hDev, readPhysical_of_not_device _ hDev]
  show (if _ then (preExecFetch m).bus.ram _ else _) = if _ then m.bus.ram _ else _
  rw [hRam]

/-! ## §3 When privilege is kept -/

/-- The program executes a `BRK` that lies in the last segment, and no interrupt or violation
    comes at the same time. -/
def BrkInLastSegment (m : Machine) : Prop :=
  opcodeAtPc m = opcodeBrk ∧ segmentOf m.cpu.pc = mmuLastSegment ∧ takesIrq m = false ∧
    m.bus.mmu.pendingNmi = false

instance (m : Machine) : Decidable (BrkInLastSegment m) :=
  inferInstanceAs (Decidable (_ ∧ _ ∧ _ ∧ _))

/-- Through an invalid entry the fetch returns no `BRK`. -/
theorem not_faults_of_brk {m : Machine} (h : UserMachine m) (hBrk : opcodeAtPc m = opcodeBrk) :
    ¬ m.bus.mmu.faults m.cpu.pc := by
  intro hFault
  have hDev := not_inDevicePage_user h.entries m.cpu.pc
  have hAddress : physicalAddress m.bus.mmu m.cpu.pc = unmappedAddress := if_pos hFault
  have hByte : opcodeAtPc m = 0xff := by
    show readPhysical _ (physicalAddress m.bus.mmu m.cpu.pc) = 0xff
    rw [readPhysical_of_not_device _ hDev, hAddress]
    rfl
  rw [hBrk] at hByte
  exact absurd hByte (by decide)

/-- `BRK` alone: behind the blocks only the mapping has changed. -/
theorem mmuPreExec_of_brk {m : Machine} (h : UserMachine m) (hIrq : takesIrq m = false)
    (hBrk : opcodeAtPc m = opcodeBrk) (hPending : m.bus.mmu.pendingNmi = false) :
    mmuPreExec m = (preExecFetch m).setMmu Mmu.enterKernel := by
  -- a `BRK` that is fetched is a fetch without a violation, and no opcode of the watchdog
  have hViolation : violationFires m = false := by
    simp [violationFires, hPending, not_faults_of_brk h hBrk]
  have hIn := inPreExec_fetch h
  have hIntercept : preExecIntercept (preExecFetch m) = (preExecFetch m).setMmu Mmu.enterKernel := by
    rw [preExecIntercept, takesIrq_fetch h, hIrq, if_neg Bool.false_ne_true, hIn.opcode,
      if_pos hBrk]
  have hWatchdog : watchedOpcode (preExecIntercept (preExecFetch m)).bus.mmu.opcode = false := by
    rw [hIntercept]
    show watchedOpcode (preExecFetch m).bus.mmu.opcode = false
    rw [hIn.opcode, hBrk]
    decide
  rw [mmuPreExec, preExecWatchdog_eq, hWatchdog, Bool.and_false, if_neg Bool.false_ne_true,
    preExecViolation_eq, hIntercept]
  refine if_neg ?_
  show ¬ (preExecFetch m).bus.mmu.pendingNmi = true
  rw [preExecFetch_pendingNmi h, hViolation]
  exact Bool.false_ne_true

/-- The core fetches its next opcode from the kernel frame, at the user's program counter. -/
theorem not_privilege_of_brkInLastSegment {m : Machine} (h : UserMachine m)
    (hBad : BrkInLastSegment m) : ¬ (StaysUser m ∨ EntersThroughVector m) := by
  obtain ⟨hBrk, hSegment, hIrq, hPending⟩ := hBad
  have hPre := mmuPreExec_of_brk h hIrq hBrk hPending
  have hKernel : (mmuPreExec m).bus.mmu.pageTable mmuLastSegment = kernelFrame := by
    rw [hPre]
    exact (switchesToKernel_enterKernel.entryMapped (inPreExec_fetch h).stack).kernel
  rintro (⟨hTable, -⟩ | ⟨-, ⟨hTaken, -⟩ | ⟨-, hOutside, -⟩⟩)
  · have hEntry := h.entries mmuLastSegment
    rw [← hTable, hKernel] at hEntry
    exact absurd hEntry (by decide)
  · have hTiming : (mmuPreExec m).cpu.pendingTiming = 0 := by
      rw [hPre]
      show (preExecFetch m).cpu.pendingTiming = 0
      rw [preExecFetch_cpu h, h.idle.pendingTiming]
    omega
  · exact hOutside hSegment

/-- `BRK` in another segment: the core executes it from user memory. -/
theorem entersThroughVector_of_brk {m : Machine} (h : UserMachine m)
    (hPre : mmuPreExec m = (preExecFetch m).setMmu Mmu.enterKernel)
    (hBrk : opcodeAtPc m = opcodeBrk) (hSegment : segmentOf m.cpu.pc ≠ mmuLastSegment) :
    EntersThroughVector m := by
  have hOpcode : opcodeAtPc ((preExecFetch m).setMmu Mmu.enterKernel) = opcodeBrk :=
    (opcodeAtPc_enterKernel h hSegment).trans hBrk
  have hEntry := cpuStepIteration_brk h hPre rfl hOpcode
  refine ⟨?_, .inr ⟨?_, hSegment, hPre ▸ hOpcode, ?_⟩⟩
  · rw [hPre]
    exact (switchesToKernel_enterKernel.entryMapped (inPreExec_fetch h).stack).kernel
  · rw [hPre]
    show (preExecFetch m).cpu = m.cpu
    exact preExecFetch_cpu h
  · exact atVector_mmuPreExec hEntry.1 (cpuStepIteration_idle h.idle)

/-- **Privilege is kept exactly when no `BRK` in the last segment is executed alone**: for
    every user machine one iteration stays in user mode, confined to the program's own
    frames, or enters the kernel through a vector, if and only if the program counter is not
    at a `BRK` in the last segment with no IRQ and no violation at the same time. -/
theorem userIteration_privilege_iff (m : Machine) (h : UserMachine m) :
    (StaysUser m ∨ EntersThroughVector m) ↔ ¬ BrkInLastSegment m := by
  refine ⟨fun hKept hBad => not_privilege_of_brkInLastSegment h hBad hKept, fun hGood => ?_⟩
  have hStage := mmuPreExec_stage h
  generalize hEq : mmuPreExec m = s at hStage
  generalize hFired : blocksFired m = n at hStage
  cases hStage with
  | user => exact .inl (staysUser_of_fetch h hEq)
  | trapped hTrapped => exact .inr (entersThroughVector_of_trapped h (hEq ▸ hTrapped))
  | brk hIrq hBrk =>
    -- no other block has fired, so no violation is pending
    have hPending := pendingNmi_of_brk_alone hBrk hFired
    have hSegment : segmentOf m.cpu.pc ≠ mmuLastSegment :=
      fun hLast => hGood ⟨hBrk, hLast, hIrq, hPending⟩
    exact .inr (entersThroughVector_of_brk h hEq hBrk hSegment)

/-- A `BRK` in the first page behind the stack is a way into the kernel through a vector. -/
theorem zeroedMachine_privilege :
    UserMachine (zeroedMachine 0x0200) ∧
      (StaysUser (zeroedMachine 0x0200) ∨ EntersThroughVector (zeroedMachine 0x0200)) :=
  ⟨userMachine_zeroed _, (userIteration_privilege_iff _ (userMachine_zeroed _)).mpr (by decide)⟩

/-- A `BRK` at the first address of the last segment is a way into the kernel frame there. -/
theorem zeroedMachine_not_privilege :
    UserMachine (zeroedMachine 0xf000) ∧
      ¬ (StaysUser (zeroedMachine 0xf000) ∨ EntersThroughVector (zeroedMachine 0xf000)) :=
  ⟨userMachine_zeroed _, not_privilege_of_brkInLastSegment (userMachine_zeroed _) (by decide)⟩

end Xv6502.Emulator
