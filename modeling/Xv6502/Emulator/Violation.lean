import Xv6502.Emulator.ViolationLatch

/-!
# Memory Violations

`MMU_translate` latches an access through an invalid entry of the page table, and the last block of
`MMU_pre_exec` delivers it: when the instruction has finished, before the next one, or at once if
it is the opcode fetch that has gone wrong. Whatever else comes in at the same time, an IRQ, a
`BRK` or an opcode that the watchdog catches, the NMI handler is entered and finds the cause and
the last violating address (`violation_stops_program`).

It does not matter whether the instruction is the program's own. Behind a `BRK` in the last segment
the core executes a byte of the kernel's frame, and the iteration that delivers the violation begins
with the kernel in front.
-/

namespace Xv6502.Emulator

open Xv6502.Lib

/-! ## §1 The instruction of an iteration -/

/-- The core executes an instruction in the iteration: none of the blocks of `MMU_pre_exec` has
    interrupted it before it could. -/
def ExecutesInstruction (m : Machine) : Prop := (mmuPreExec m).cpu.pendingTiming = 0

instance (m : Machine) : Decidable (ExecutesInstruction m) := inferInstanceAs (Decidable (_ = _))

/-- The addresses that the core puts on the bus in an iteration. -/
def instructionAccesses (m : Machine) : List Word := accesses machineBus (mmuPreExec m)

/-- What the program's own instruction leaves: a user machine with the last violation latched. -/
theorem cpuStepIteration_latched {m : Machine} (h : UserMachine m)
    (hPre : mmuPreExec m = preExecFetch m) :
    UserMachine (cpuStepIteration m) ∧
      LatchedBy (mmuPreExec m).bus (cpuStepIteration m).bus (instructionAccesses m) := by
  have hTable := preExecFetch_pageTable h
  have hEntries : ∀ s, 0x10 ≤ ((preExecFetch m).bus.mmu.pageTable s).toNat := by
    rw [hTable]
    exact h.entries
  -- every access of the core goes through the translation, which latches
  have hLatched := execNext_latched hEntries
  have hInUser : (execNext (preExecFetch m)).bus.mmu.inUser = true :=
    (keeps_execNext keptByAccess_userAccess (preExecFetch m) hEntries).2.trans
      (inPreExec_fetch h).inUser
  have hIteration : cpuStepIteration m = execNext (preExecFetch m) := by
    rw [cpuStepIteration, hPre, mmuPostExec_inUser hInUser]
  have hSame : (cpuStepIteration m).bus.mmu.pageTable = m.bus.mmu.pageTable := by
    rw [hIteration, hLatched.pageTable, hTable]
  refine ⟨⟨?_, ?_, cpuStepIteration_idle h.idle⟩, ?_⟩
  · rw [hSame]
    exact h.entries
  · rw [hSame]
    exact h.stack
  · rw [hIteration, instructionAccesses, hPre]
    exact hLatched

/-- The accesses of a `BRK` that the core executes: its opcode, the stack and the vector. -/
theorem accesses_brk {m : Machine} (hNmi : m.cpu.nmiPending = false)
    (hIrq : m.cpu.irqPending = false) (hOpcode : opcodeAtPc m = opcodeBrk) :
    accesses machineBus m =
      [m.cpu.pc, stackAddress m.cpu.sp, stackAddress (m.cpu.sp - 1),
        stackAddress (m.cpu.sp - 1 - 1), irqVectorAddress, irqVectorAddress + 1] := by
  let c : Ctx (Board × List Word) :=
    ⟨{ m.cpu with pendingTiming := 0, timingForLastOperation := 0 }, m.bus, []⟩
  have hBrk : opcodeTable (machineBus.logged.readByte c.cpu.pc c.bus).1 = some brkInstruction := by
    show opcodeTable (opcodeAtPc m) = _
    rw [hOpcode]
    decide
  unfold accesses loggedStep
  rw [execNext_run, if_neg (by simp [hNmi]), if_neg (by simp [hIrq])]
  show ((fetchExecute machineBus.logged).run c).2.bus.2 = _
  rw [fetchExecute_run hBrk]
  rfl

/-- A `BRK` of the program makes no violation. -/
theorem lastViolation_brk {m : Machine} (h : UserMachine m)
    (hPre : mmuPreExec m = (preExecFetch m).setMmu Mmu.enterKernel)
    (hBrk : opcodeAtPc m = opcodeBrk) (hSegment : segmentOf m.cpu.pc ≠ mmuLastSegment) :
    lastViolation (mmuPreExec m).bus.mmu (instructionAccesses m) = none := by
  have hCpu : (mmuPreExec m).cpu = m.cpu := by
    rw [hPre, ← preExecFetch_cpu h]
    rfl
  have hTable : (mmuPreExec m).bus.mmu.pageTable =
      Function.update m.bus.mmu.pageTable mmuLastSegment kernelFrame := by
    rw [hPre, ← preExecFetch_pageTable h]
    rfl
  have hOpcode : opcodeAtPc (mmuPreExec m) = opcodeBrk := by
    rw [hPre, opcodeAtPc_enterKernel h hSegment, hBrk]
  -- a `BRK` fetches, pushes three bytes and reads the vector: each is mapped with the kernel in
  -- front
  have hAccesses := accesses_brk (m := mmuPreExec m)
    (by rw [hCpu]; exact congrArg InterruptQueue.nmiPending h.idle)
    (by rw [hCpu]; exact congrArg InterruptQueue.irqPending h.idle) hOpcode
  have hPc : ¬ (mmuPreExec m).bus.mmu.faults m.cpu.pc := by
    rw [Mmu.faults, hTable, Function.update_of_ne hSegment]
    exact not_faults_of_brk h hBrk
  have hStack : ∀ sp, ¬ (mmuPreExec m).bus.mmu.faults (stackAddress sp) := by
    intro sp
    rw [Mmu.faults, hTable, segmentOf_stackAddress, Function.update_of_ne (by decide)]
    exact h.stack
  have hVector : ∀ va, segmentOf va = mmuLastSegment → ¬ (mmuPreExec m).bus.mmu.faults va := by
    intro va hLast
    rw [Mmu.faults, hTable, hLast, Function.update_self]
    decide
  rw [instructionAccesses, hAccesses, hCpu]
  simp only [lastViolation, hPc, hStack, hVector irqVectorAddress (by decide),
    hVector (irqVectorAddress + 1) (by decide), decide_false, List.filter_cons, List.filter_nil]
  rfl

/-- A machine at the head of the loop with the kernel in front. -/
structure FrontMachine (m : Machine) : Prop where
  front : KernelInFront m.bus.mmu.pageTable
  idle : m.cpu.Idle

theorem FrontMachine.stackMapped {m : Machine} (h : FrontMachine m) : m.bus.mmu.StackMapped :=
  ⟨h.front.entries 0 (by decide), h.front.stack⟩

/-- No access of the bus reaches the latches of the MMU besides those of the violation. -/
theorem keptByAccess_inUser :
    KeptByAccess machineBus fun b b' : Board => b'.mmu.inUser = b.mmu.inUser where
  read va b := by
    show (machineRead va b).2.mmu.inUser = b.mmu.inUser
    rw [machineRead_mmu]
    unfold mmuTranslate
    split <;> rfl
  write va byte b := by
    refine (writePhysical_latches (b.translate va) (physicalAddress b.mmu va) byte).inUser.trans ?_
    show (mmuTranslate b.mmu va).inUser = b.mmu.inUser
    unfold mmuTranslate
    split <;> rfl

instance : @Std.Refl Board fun b b' => b'.mmu.inUser = b.mmu.inUser := ⟨fun _ => rfl⟩

instance : IsTrans Board fun b b' => b'.mmu.inUser = b.mmu.inUser :=
  ⟨fun _ _ _ hab hbc => hbc.trans hab⟩

/-- What a `BRK` in the last segment leaves: the core has executed a byte of the kernel's frame, and
    if that has made a violation, the kernel is in front and the last violation is latched. -/
theorem cpuStepIteration_front {m : Machine} (h : UserMachine m)
    (hPre : mmuPreExec m = (preExecFetch m).setMmu Mmu.enterKernel)
    (hSegment : segmentOf m.cpu.pc = mmuLastSegment) {va : Word}
    (hLast : lastViolation (mmuPreExec m).bus.mmu (instructionAccesses m) = some va) :
    FrontMachine (cpuStepIteration m) ∧
      LatchedBy (mmuPreExec m).bus (cpuStepIteration m).bus (instructionAccesses m) := by
  have hCpu : (mmuPreExec m).cpu = m.cpu := by
    rw [hPre, ← preExecFetch_cpu h]
    rfl
  have hTable : (mmuPreExec m).bus.mmu.pageTable =
      Function.update m.bus.mmu.pageTable mmuLastSegment kernelFrame := by
    rw [hPre, ← preExecFetch_pageTable h]
    rfl
  have hFront : KernelInFront (mmuPreExec m).bus.mmu.pageTable := by
    rw [hTable]
    refine ⟨fun s hOther => ?_, ?_, Function.update_self ..⟩
    · rw [Function.update_of_ne hOther]
      exact h.entries s
    · rw [Function.update_of_ne (by decide)]
      exact h.stack
  have hPc : 0xf000 ≤ m.cpu.pc.toNat := by
    have hValue : m.cpu.pc.toNat / 0x1000 = 15 := congrArg Fin.val hSegment
    omega
  have hLatched := execNext_front hFront (hCpu ▸ hPc)
    (hCpu ▸ congrArg InterruptQueue.nmiPending h.idle)
    (hCpu ▸ congrArg InterruptQueue.irqPending h.idle) hLast
  -- the iteration has begun in user mode, so that nothing is restored behind it
  have hInUser : (mmuPreExec m).bus.mmu.inUser = true := by
    rw [hPre]
    exact (inPreExec_fetch h).inUser
  have hIteration : cpuStepIteration m = execNext (mmuPreExec m) := by
    rw [cpuStepIteration, mmuPostExec_inUser]
    exact (keeps_execNext keptByAccess_inUser (mmuPreExec m)).trans hInUser
  refine ⟨⟨?_, cpuStepIteration_idle h.idle⟩, ?_⟩
  · rw [hIteration, hLatched.pageTable]
    exact hFront
  · rw [hIteration]
    exact hLatched

/-! ## §2 The delivery -/

/-- The iteration takes the NMI of a violation. The core has been interrupted before it could
    execute an instruction, and the handler that runs is the one of the NMI vector; it finds the
    cause and the violating address in the registers of the MMU. -/
structure DeliversViolation (m : Machine) (va : Word) : Prop where
  interrupted : 0 < (mmuPreExec m).cpu.pendingTiming
  vector : (handlerEntry m).cpu.pc = vectorAt m.bus nmiVectorAddress
  kernel : (handlerEntry m).bus.mmu.pageTable mmuLastSegment = kernelFrame
  cause : (handlerEntry m).bus.mmu.cause = mmuCauseV
  address : (handlerEntry m).bus.mmu.va = va
  cleared : (handlerEntry m).bus.mmu.pendingNmi = false

/-- The machine in front of the last block of `MMU_pre_exec`, in user mode or with the kernel in
    front, and with or without an interrupt that the core has taken already. -/
structure BeforeLastBlock (m s : Machine) : Prop where
  low : SameLow m.bus s.bus
  stack : s.bus.mmu.StackMapped
  taken : s.cpu.Idle ∨ 0 < s.cpu.pendingTiming
  mode : s.bus.mmu.inUser = true ∨ s.bus.mmu.pageTable mmuLastSegment = kernelFrame
  pendingNmi : s.bus.mmu.pendingNmi = (mmuTranslate m.bus.mmu m.cpu.pc).pendingNmi
  va : s.bus.mmu.va = (mmuTranslate m.bus.mmu m.cpu.pc).va

theorem mmuPostExec_eq (x : Machine) :
    ∃ t, mmuPostExec x = x.setMmu fun u => { u with pageTable := t } := by
  unfold mmuPostExec
  split
  · exact ⟨_, rfl⟩
  · exact ⟨x.bus.mmu.pageTable, rfl⟩

/-- What `MMU_post_exec` restores is the kernel again. -/
theorem mmuPostExec_kernel {x : Machine} (hKernel : x.bus.mmu.pageTable mmuLastSegment = kernelFrame)
    (hMode : x.bus.mmu.inUser = true ∨ x.bus.mmu.prev = kernelFrame) :
    (mmuPostExec x).bus.mmu.pageTable mmuLastSegment = kernelFrame := by
  rcases hMode with hUser | hPrev
  · rw [mmuPostExec_inUser hUser]
    exact hKernel
  · unfold mmuPostExec
    split
    · show Function.update x.bus.mmu.pageTable mmuLastSegment x.bus.mmu.prev mmuLastSegment = _
      rw [Function.update_self, hPrev]
    · exact hKernel

/-- **Delivery**: a violation that is latched, or that the opcode fetch makes, is delivered in the
    iteration. -/
theorem BeforeLastBlock.delivers {m s : Machine} (h : BeforeLastBlock m s)
    (hPre : mmuPreExec m = preExecViolation s)
    (hPending : (mmuTranslate m.bus.mmu m.cpu.pc).pendingNmi = true) :
    DeliversViolation m (mmuTranslate m.bus.mmu m.cpu.pc).va := by
  have hMapped := switchesToKernel_violation.entryMapped h.stack
  rw [preExecViolation_eq, h.pendingNmi, hPending, if_pos rfl] at hPre
  rcases h.taken with hIdle | hTaken
  · -- the core is interrupted now, and is at the vector of the NMI
    rw [mcs6502NMI_run (m := s.setMmu violationSwitch) hIdle hMapped] at hPre
    have hNone : (mmuPreExec m).cpu.nmiPending = false := by
      rw [hPre]
      exact congrArg InterruptQueue.nmiPending hIdle
    have hTiming : 0 < (mmuPreExec m).cpu.pendingTiming := by
      rw [hPre]
      exact Nat.succ_pos 6
    have hEntry : handlerEntry m = interrupted (s.setMmu violationSwitch) nmiVectorAddress := by
      rw [handlerEntry, if_pos ⟨hTiming, hNone⟩, hPre]
    refine ⟨hTiming, ?_, ?_, ?_, ?_, ?_⟩ <;> rw [hEntry]
    · exact vectorAt_eq_of_sameLow (b := m.bus) ⟨h.low.rom, h.low.ram⟩ (.inr rfl)
    · exact hMapped.kernel
    · rfl
    · exact h.va
    · rfl
  · -- the NMI is queued behind the interrupt, and taken by the core's step
    rw [mcs6502NMI_run_pending (m := s.setMmu violationSwitch) hTaken] at hPre
    have hQueued : (mmuPreExec m).cpu.nmiPending = true := by rw [hPre]
    have hTiming : 0 < (mmuPreExec m).cpu.pendingTiming := by
      rw [hPre]
      exact hTaken
    have hExec := execNext_nmi hQueued (by rw [hPre]; exact hMapped)
    have hMmu : (execNext (mmuPreExec m)).bus.mmu = violationSwitch s.bus.mmu := by
      rw [hExec, hPre]
      rfl
    have hEntry : handlerEntry m = mmuPostExec (execNext (mmuPreExec m)) := by
      rw [handlerEntry, if_neg (by simp [hQueued]), cpuStepIteration]
    have hLow : SameLow m.bus (mmuPreExec m).bus := by
      rw [hPre]
      exact ⟨h.low.rom, h.low.ram⟩
    obtain ⟨t, hPost⟩ := mmuPostExec_eq (execNext (mmuPreExec m))
    refine ⟨hTiming, ?_, ?_, ?_, ?_, ?_⟩ <;> rw [hEntry]
    · rw [hPost, hExec]
      exact vectorAt_eq_of_sameLow hLow (.inr rfl)
    · refine mmuPostExec_kernel ?_ ?_ <;> rw [hMmu]
      · exact hMapped.kernel
      · exact h.mode
    all_goals
      rw [hPost]
      simp only [Ctx.setMmu, hMmu]
    · rfl
    · exact h.va
    · rfl

/-! ## §3 In front of the last block -/

/-- The first block of `MMU_pre_exec` leaves the latches alone. -/
theorem preExecIntercept_va {m : Machine} (h : UserMachine m) :
    (preExecIntercept (preExecFetch m)).bus.mmu.va = (mmuTranslate m.bus.mmu m.cpu.pc).va := by
  have hFetched : (preExecFetch m).bus.mmu.va = (mmuTranslate m.bus.mmu m.cpu.pc).va := by
    rw [preExecFetch_user h]
    rfl
  rw [← hFetched]
  unfold preExecIntercept
  split
  · next hIrq =>
    have hCpu := preExecFetch_cpu h
    have hMask : (preExecFetch m).cpu.isSet statusI = false := by
      simpa [takesIrq] using (Bool.and_eq_true_iff.mp hIrq).2
    have hMapped := switchesToKernel_enterKernel.entryMapped (inPreExec_fetch h).stack
    let lowered : Machine :=
      ⟨(preExecFetch m).cpu, plicLower ((preExecFetch m).setMmu Mmu.enterKernel).bus⟩
    show ((mcs6502IRQ machineBus).run lowered).2.bus.mmu.va = _
    rw [mcs6502IRQ_run (m := lowered) (hCpu ▸ h.idle) hMask hMapped]
    rfl
  · split <;> rfl

/-- The second block leaves them alone as well. -/
theorem preExecWatchdog_va {m : Machine} (h : UserMachine m) :
    (preExecWatchdog (preExecIntercept (preExecFetch m))).bus.mmu.va =
      (mmuTranslate m.bus.mmu m.cpu.pc).va := by
  rw [← preExecIntercept_va h, preExecWatchdog_eq]
  split
  · have hMmu := (trapped_nmiBlock h (stage_intercept h).1 (switchesToKernel_watchdog
      (preExecIntercept (preExecFetch m)).bus.mmu.opcode)).2
    rw [hMmu]
    rfl
  · rfl

theorem beforeLastBlock_user {m : Machine} (h : UserMachine m) :
    BeforeLastBlock m (preExecWatchdog (preExecIntercept (preExecFetch m))) := by
  obtain ⟨hStage, hPending⟩ := stage_watchdog h
  have hIn := hStage.inPreExec h
  refine ⟨hIn.low, hIn.stack, ?_, .inl hIn.inUser, ?_, preExecWatchdog_va h⟩
  · have hIdle : (preExecFetch m).cpu.Idle := preExecFetch_cpu h ▸ h.idle
    generalize preExecWatchdog (preExecIntercept (preExecFetch m)) = s at hStage
    generalize (interceptFires m).toNat + (watchdogFires m).toNat = n at hStage
    cases hStage with
    | user _ _ => exact .inl hIdle
    | brk _ _ => exact .inl hIdle
    | trapped hTrapped =>
      right
      rw [hTrapped.pending]
      decide
  · rw [hPending, mmuTranslate_pendingNmi, violationFires]

/-- The opcode fetch with the kernel in front. -/
theorem beforeLastBlock_fetch {m : Machine} (h : FrontMachine m) :
    BeforeLastBlock m (preExecFetch m) ∧ (preExecFetch m).bus.mmu.inUser = false ∧
      (preExecFetch m).bus.mmu.pageTable mmuLastSegment = kernelFrame := by
  have hRead := machineRead_mmu m.cpu.pc m.bus
  have hLow := sameLow_machineRead m.cpu.pc m.bus
  have hTable : (preExecFetch m).bus.mmu.pageTable = m.bus.mmu.pageTable := by
    show (machineRead m.cpu.pc m.bus).2.mmu.pageTable = _
    rw [hRead, mmuTranslate_pageTable]
  have hInUser : (preExecFetch m).bus.mmu.inUser = false := by
    show ((machineRead m.cpu.pc m.bus).2.mmu.pageTable mmuLastSegment != kernelFrame) = false
    rw [hRead, mmuTranslate_pageTable, h.front.kernel]
    decide
  have hKernel : (preExecFetch m).bus.mmu.pageTable mmuLastSegment = kernelFrame := by
    rw [hTable]
    exact h.front.kernel
  refine ⟨⟨⟨hLow.rom, hLow.ram⟩, ?_, .inl h.idle, .inr hKernel, ?_, ?_⟩, hInUser, hKernel⟩
  · exact ⟨by rw [hTable]; exact h.stackMapped.userFrame, by rw [hTable]; exact h.front.stack⟩
  · show (machineRead m.cpu.pc m.bus).2.mmu.pendingNmi = _
    rw [hRead]
  · show (machineRead m.cpu.pc m.bus).2.mmu.va = _
    rw [hRead]

/-- With the kernel in front the first two blocks change nothing that matters: an IRQ or a `BRK`
    enters the kernel from the kernel, and the watchdog looks at user mode only. -/
theorem beforeLastBlock_front {m : Machine} (h : FrontMachine m) :
    BeforeLastBlock m (preExecWatchdog (preExecIntercept (preExecFetch m))) := by
  obtain ⟨hFetch, hInUser, hKernel⟩ := beforeLastBlock_fetch h
  have hMapped := switchesToKernel_enterKernel.entryMapped hFetch.stack
  have hIntercept : BeforeLastBlock m (preExecIntercept (preExecFetch m)) ∧
      (preExecIntercept (preExecFetch m)).bus.mmu.inUser = false := by
    unfold preExecIntercept
    split
    · next hIrq =>
      have hMask : (preExecFetch m).cpu.isSet statusI = false := by
        simpa [takesIrq] using (Bool.and_eq_true_iff.mp hIrq).2
      let lowered : Machine :=
        ⟨(preExecFetch m).cpu, plicLower ((preExecFetch m).setMmu Mmu.enterKernel).bus⟩
      have hRun : ((mcs6502IRQ machineBus).run lowered).2 = interrupted lowered irqVectorAddress :=
        mcs6502IRQ_run h.idle hMask hMapped
      show BeforeLastBlock m ((mcs6502IRQ machineBus).run lowered).2 ∧
        ((mcs6502IRQ machineBus).run lowered).2.bus.mmu.inUser = false
      rw [hRun]
      have hLow : SameLow m.bus lowered.bus := ⟨hFetch.low.rom, hFetch.low.ram⟩
      exact ⟨⟨hLow.trans (sameLow_entered (m := lowered) hMapped.stack lowered.cpu.pc false
        irqVectorAddress), hMapped.stack,
        .inr (Nat.succ_pos 6), .inr hMapped.kernel, hFetch.pendingNmi, hFetch.va⟩, hInUser⟩
    · split
      · exact ⟨⟨⟨hFetch.low.rom, hFetch.low.ram⟩, hMapped.stack, hFetch.taken,
          .inr hMapped.kernel, hFetch.pendingNmi, hFetch.va⟩, hInUser⟩
      · exact ⟨hFetch, hInUser⟩
  rw [preExecWatchdog_eq, hIntercept.2, Bool.false_and, if_neg Bool.false_ne_true]
  exact hIntercept.1

/-! ## §4 From the instruction to the handler -/

/-- The iteration behind another one starts with its core and its MMU; the devices may have made
    steps in between. -/
def Resumes (m m' : Machine) : Prop := m'.cpu = m.cpu ∧ m'.bus.mmu = m.bus.mmu

theorem UserMachine.resumes {m m' : Machine} (h : UserMachine m) (hResumes : Resumes m m') :
    UserMachine m' := by
  obtain ⟨hCpu, hMmu⟩ := hResumes
  exact ⟨by rw [hMmu]; exact h.entries, by rw [hMmu]; exact h.stack, by rw [hCpu]; exact h.idle⟩

theorem FrontMachine.resumes {m m' : Machine} (h : FrontMachine m) (hResumes : Resumes m m') :
    FrontMachine m' := by
  obtain ⟨hCpu, hMmu⟩ := hResumes
  exact ⟨by rw [hMmu]; exact h.front, by rw [hCpu]; exact h.idle⟩

/-- An instruction is executed by the core as the program shows it, or behind the intercept of a
    `BRK`. -/
theorem executesInstruction_cases {m : Machine} (h : UserMachine m)
    (hExecutes : ExecutesInstruction m) :
    mmuPreExec m = preExecFetch m ∨
      mmuPreExec m = (preExecFetch m).setMmu Mmu.enterKernel ∧ opcodeAtPc m = opcodeBrk := by
  have hStage := mmuPreExec_stage h
  unfold ExecutesInstruction at hExecutes
  generalize mmuPreExec m = s at hStage hExecutes ⊢
  generalize blocksFired m = n at hStage
  cases hStage with
  | user _ _ => exact .inl rfl
  | brk _ hBrk => exact .inr ⟨rfl, hBrk⟩
  | trapped hTrapped =>
    rw [hTrapped.pending] at hExecutes
    exact absurd hExecutes (by decide)

/-- The next iteration delivers what is latched. Its opcode fetch latches its own address over the
    old one when it violates. -/
theorem BeforeLastBlock.delivers_latched {m m' : Machine} {va : Word} {vas : List Word} {b : Board}
    (h : BeforeLastBlock m' (preExecWatchdog (preExecIntercept (preExecFetch m'))))
    (hLatched : LatchedBy b m.bus vas) (hLast : lastViolation b.mmu vas = some va)
    (hResumes : Resumes m m') :
    DeliversViolation m' (if m'.bus.mmu.faults m'.cpu.pc then m'.cpu.pc else va) := by
  have hPending : m'.bus.mmu.pendingNmi = true := by
    rw [hResumes.2, hLatched.pendingNmi, hLast]
    simp
  have hVa : m'.bus.mmu.va = va := by
    rw [hResumes.2, hLatched.va, hLast]
    rfl
  have hDelivers := h.delivers rfl (by rw [mmuTranslate_pendingNmi, hPending, Bool.true_or])
  have hAddress : (mmuTranslate m'.bus.mmu m'.cpu.pc).va =
      if m'.bus.mmu.faults m'.cpu.pc then m'.cpu.pc else va := by
    unfold mmuTranslate
    split
    · rfl
    · exact hVa
  rwa [hAddress] at hDelivers

/-- A violation of an instruction is delivered in the next iteration. -/
theorem delivers_behind_instruction {m m' : Machine} {va : Word} (h : UserMachine m)
    (hExecutes : ExecutesInstruction m)
    (hLast : lastViolation (mmuPreExec m).bus.mmu (instructionAccesses m) = some va)
    (hResumes : Resumes (cpuStepIteration m) m') :
    DeliversViolation m' (if m'.bus.mmu.faults m'.cpu.pc then m'.cpu.pc else va) := by
  rcases executesInstruction_cases h hExecutes with hPre | ⟨hPre, hBrk⟩
  · obtain ⟨hUser, hLatched⟩ := cpuStepIteration_latched h hPre
    exact (beforeLastBlock_user (hUser.resumes hResumes)).delivers_latched hLatched hLast hResumes
  by_cases hSegment : segmentOf m.cpu.pc = mmuLastSegment
  · -- a byte of the kernel's frame
    obtain ⟨hFront, hLatched⟩ := cpuStepIteration_front h hPre hSegment hLast
    exact (beforeLastBlock_front (hFront.resumes hResumes)).delivers_latched hLatched hLast hResumes
  · -- a `BRK` of the program reaches mapped memory only
    rw [lastViolation_brk h hPre hBrk hSegment] at hLast
    cases hLast

/-- **A memory violation stops the program at once.** For every user machine: a violating opcode
    fetch is delivered in the same iteration; a violation by the instruction that the core executes
    is delivered in the next iteration, whatever the devices have done in between; and a write
    through an invalid entry changes nothing but the latch of the MMU. -/
theorem violation_stops_program (m : Machine) (h : UserMachine m) :
    (m.bus.mmu.faults m.cpu.pc → DeliversViolation m m.cpu.pc) ∧
    (ExecutesInstruction m → ∀ va,
      lastViolation (mmuPreExec m).bus.mmu (instructionAccesses m) = some va →
      ∀ m', Resumes (cpuStepIteration m) m' →
        DeliversViolation m' (if m'.bus.mmu.faults m'.cpu.pc then m'.cpu.pc else va)) ∧
    ∀ (b : Board) (va : Word) (byte : Byte), b.mmu.faults va →
      machineWrite va byte b = { b with mmu := { b.mmu with va := va, pendingNmi := true } } := by
  refine ⟨?_, ?_, ?_⟩
  -- the opcode fetch itself: the NMI comes before anything is executed
  · intro hFault
    have hDelivers := (beforeLastBlock_user h).delivers rfl (by
      rw [mmuTranslate_pendingNmi]
      simp [hFault])
    have hAddress : (mmuTranslate m.bus.mmu m.cpu.pc).va = m.cpu.pc := by
      unfold mmuTranslate
      rw [if_pos hFault]
    rwa [hAddress] at hDelivers
  -- another access of the instruction: it is carried out and the NMI comes next
  · intro hExecutes va hLast m' hResumes
    exact delivers_behind_instruction h hExecutes hLast hResumes
  -- and it has stored nothing
  · intro b va byte hFault
    exact machineWrite_of_faults hFault byte

/-- A machine whose program is about to store the accumulator at `0x5000`, which is not mapped. -/
def storingMachine : Machine :=
  { zeroedMachine 0x0200 with
    bus := { (zeroedMachine 0x0200).bus with
      ram := fun addr => if addr = 0x10200 then 0x8d else if addr = 0x10202 then 0x50 else 0
      mmu := { (zeroedMachine 0x0200).bus.mmu with
        pageTable := Function.update (zeroedMachine 0x0200).bus.mmu.pageTable 5 mmuFrameInvalid } } }

/-- A machine whose program is at a `BRK` in the last segment. The kernel's frame shows there a store
    to `0x5000`, which is not mapped. -/
def kernelByteMachine : Machine :=
  { zeroedMachine 0xf000 with
    bus := { (zeroedMachine 0xf000).bus with
      ram := fun addr => if addr = 0xf000 then 0x8d else if addr = 0xf002 then 0x50 else 0
      mmu := { (zeroedMachine 0xf000).bus.mmu with
        pageTable := Function.update (zeroedMachine 0xf000).bus.mmu.pageTable 5 mmuFrameInvalid } } }

/-- The store is delivered in the next iteration, although the program counter is then at a `BRK`, and
    the one that the kernel's frame shows as well. -/
theorem storingMachine_delivers :
    UserMachine storingMachine ∧ DeliversViolation (cpuStepIteration storingMachine) 0x5000 ∧
      UserMachine kernelByteMachine ∧
      DeliversViolation (cpuStepIteration kernelByteMachine) 0x5000 := by
  have hEntries : ∀ s : Segment, 0x10 ≤ (Function.update (fun s : Segment => 0x10 + BitVec.ofNat 8 s) 5
      mmuFrameInvalid s : Frame).toNat := by decide
  have hUser : UserMachine storingMachine := ⟨hEntries, by decide, rfl⟩
  have hUser' : UserMachine kernelByteMachine := ⟨hEntries, by decide, rfl⟩
  have hLast : lastViolation (mmuPreExec storingMachine).bus.mmu
      (instructionAccesses storingMachine) = some 0x5000 := by decide +kernel
  have hLast' : lastViolation (mmuPreExec kernelByteMachine).bus.mmu
      (instructionAccesses kernelByteMachine) = some 0x5000 := by decide +kernel
  have hMapped : ¬ (cpuStepIteration storingMachine).bus.mmu.faults
      (cpuStepIteration storingMachine).cpu.pc := by decide +kernel
  have hMapped' : ¬ (cpuStepIteration kernelByteMachine).bus.mmu.faults
      (cpuStepIteration kernelByteMachine).cpu.pc := by decide +kernel
  have hDelivers := (violation_stops_program storingMachine hUser).2.1 (by decide +kernel) 0x5000
    hLast (cpuStepIteration storingMachine) ⟨rfl, rfl⟩
  have hDelivers' := (violation_stops_program kernelByteMachine hUser').2.1 (by decide +kernel)
    0x5000 hLast' (cpuStepIteration kernelByteMachine) ⟨rfl, rfl⟩
  rw [if_neg hMapped] at hDelivers
  rw [if_neg hMapped'] at hDelivers'
  exact ⟨hUser, hDelivers, hUser', hDelivers'⟩

end Xv6502.Emulator
