import Xv6502.Emulator.VectorEntry

/-!
# One Iteration from User Mode

`MMU_pre_exec` has three blocks which each switch the last segment to the kernel and
interrupt the core: the intercept of IRQ and `BRK`, the opcode watchdog and the violation
watchdog. `mmuPreExec_stage` says what the machine looks like behind them, by the number
of blocks that fired.

From it follow, for every machine the kernel can leave to a user program,

- when the iteration stays in user memory or enters the kernel through a vector;
- when the entry preserves what the kernel needs to resume the program.

Neither holds always. A `BRK` in the last segment is fetched again by the core after the
kernel has been mapped there, and the second block that fires overwrites `prev`.
-/

namespace Xv6502.Emulator

open Xv6502.Lib

/-! ## §1 The queue over an iteration -/

/-- The first block cannot queue an IRQ behind an idle core. -/
private theorem irqPending_mcs6502IRQ {m : Machine} (hIdle : m.cpu.Idle) :
    ((mcs6502IRQ machineBus).run m).2.cpu.irqPending = false := by
  have hQueue : m.cpu.irqPending = false := congrArg InterruptQueue.irqPending hIdle
  -- an IRQ is queued only while timing is pending, and an idle core has none
  have hRun : (mcs6502IRQ machineBus).run m = (
      if m.cpu.isSet statusI then return ()
      else if m.cpu.pendingTiming > 0 then modifyCpu fun c => { c with irqPending := true }
      else do
        handleIRQ machineBus
        modifyCpu fun c => { c with pendingTiming := c.timingForLastOperation } :
      CoreM Board Unit).run m := rfl
  have hFree : ¬ m.cpu.pendingTiming > 0 := by rw [hIdle.pendingTiming]; exact Nat.lt_irrefl 0
  rw [hRun]
  by_cases hMask : m.cpu.isSet statusI = true
  · rw [if_pos hMask]
    exact hQueue
  · rw [if_neg hMask, if_neg hFree]
    exact congrArg InterruptQueue.irqPending (handleIRQ_queue machineBus m)

private theorem irqPending_mcs6502NMI {m : Machine} (hIrq : m.cpu.irqPending = false) :
    ((mcs6502NMI machineBus).run m).2.cpu.irqPending = false := by
  have hRun : (mcs6502NMI machineBus).run m = (
      if m.cpu.pendingTiming > 0 then modifyCpu fun c => { c with nmiPending := true }
      else do
        handleNMI machineBus
        modifyCpu fun c => { c with pendingTiming := c.timingForLastOperation } :
      CoreM Board Unit).run m := rfl
  rw [hRun]
  split
  · exact hIrq
  · exact (congrArg InterruptQueue.irqPending (handleNMI_queue machineBus m)).trans hIrq

/-- What the opcode watchdog does to the MMU. -/
def watchdogSwitch (opcode : Byte) (u : Mmu) : Mmu :=
  Mmu.enterKernel { u with
    watchdog := opcode
    cause := if !validOpcode opcode then mmuCauseInvalidOpcode else mmuCausePrivilege }

/-- What the violation watchdog does to the MMU. -/
def violationSwitch (u : Mmu) : Mmu :=
  { Mmu.enterKernel { u with cause := mmuCauseV } with pendingNmi := false }

theorem preExecWatchdog_eq (m : Machine) :
    preExecWatchdog m =
      if m.bus.mmu.inUser && watchedOpcode m.bus.mmu.opcode then
        ((mcs6502NMI machineBus).run (m.setMmu (watchdogSwitch m.bus.mmu.opcode))).2
      else m :=
  rfl

theorem preExecViolation_eq (m : Machine) :
    preExecViolation m =
      if m.bus.mmu.pendingNmi then ((mcs6502NMI machineBus).run (m.setMmu violationSwitch)).2
      else m :=
  rfl

theorem irqPending_mmuPreExec {m : Machine} (hIdle : m.cpu.Idle) :
    (mmuPreExec m).cpu.irqPending = false := by
  have hQueue : m.cpu.irqPending = false := congrArg InterruptQueue.irqPending hIdle
  have hIntercept : (preExecIntercept (preExecFetch m)).cpu.irqPending = false := by
    unfold preExecIntercept
    split
    · exact irqPending_mcs6502IRQ hIdle
    · split <;> exact hQueue
  have hWatchdog : (preExecWatchdog (preExecIntercept (preExecFetch m))).cpu.irqPending
      = false := by
    rw [preExecWatchdog_eq]
    split
    · exact irqPending_mcs6502NMI hIntercept
    · exact hIntercept
  rw [mmuPreExec, preExecViolation_eq]
  split
  · exact irqPending_mcs6502NMI hWatchdog
  · exact hWatchdog

/-- **At the head of the loop of `CPU_step` the core is always idle**: no iteration leaves an
    operation pending or an interrupt queued. -/
theorem cpuStepIteration_idle {m : Machine} (hIdle : m.cpu.Idle) :
    (cpuStepIteration m).cpu.Idle := by
  have hQueue := execNext_queue machineBus (mmuPreExec m)
  rw [irqPending_mmuPreExec hIdle, Bool.false_and] at hQueue
  have hPost : (cpuStepIteration m).cpu = (execNext (mmuPreExec m)).cpu := by
    unfold cpuStepIteration mmuPostExec
    split <;> rfl
  rw [Cpu.Idle, hPost]
  exact hQueue

/-! ## §2 User machines -/

/-- A machine as the kernel leaves it to a user program: at the head of the loop, every
    segment is unmapped or in a frame from `0x10` on, and the stack page is mapped. -/
structure UserMachine (m : Machine) : Prop where
  entries : ∀ s, 0x10 ≤ (m.bus.mmu.pageTable s).toNat
  stack : m.bus.mmu.pageTable 0 ≠ mmuFrameInvalid
  idle : m.cpu.Idle

/-- A machine with zeroed memory and devices, all segments of the program mapped: every
    instruction is a `BRK`. -/
def zeroedMachine (pc : Word) : Machine where
  cpu := ⟨0, 0, 0, 0xff, pc, 0, 0, 0, false, false⟩
  bus :=
    { ram := fun _ => 0
      rom := ⟨0, fun _ => 0⟩
      uart := ⟨0, 0, 0⟩
      disk := ⟨fun _ => 0, fun _ => 0, 0, 0, 0, 0, 0⟩
      mmu := ⟨fun s => 0x10 + BitVec.ofNat 8 s, 0, 0, 0, 0, 0, false, false⟩
      timer := ⟨0, 0, 0, 0, 0⟩
      plic := ⟨0, false⟩ }

theorem userMachine_zeroed (pc : Word) : UserMachine (zeroedMachine pc) where
  entries := show ∀ s : Segment, 0x10 ≤ (0x10 + BitVec.ofNat 8 s : Frame).toNat by decide
  stack := show (0x10 : Frame) + BitVec.ofNat 8 (0 : Segment) ≠ mmuFrameInvalid by decide
  idle := rfl

/-- The opcode `MMU_pre_exec` fetches. -/
def opcodeAtPc (m : Machine) : Byte := (machineRead m.cpu.pc m.bus).1

/-- The first block of `MMU_pre_exec` fires. -/
def interceptFires (m : Machine) : Bool := takesIrq m || opcodeAtPc m == opcodeBrk

/-- The second block of `MMU_pre_exec` fires, in user mode. -/
def watchdogFires (m : Machine) : Bool := watchedOpcode (opcodeAtPc m)

/-- The third block of `MMU_pre_exec` fires: a violation is pending or the opcode fetch is
    one. -/
def violationFires (m : Machine) : Bool :=
  m.bus.mmu.pendingNmi || decide (m.bus.mmu.faults m.cpu.pc)

/-- How many blocks of `MMU_pre_exec` fire. -/
def blocksFired (m : Machine) : Nat :=
  (interceptFires m).toNat + (watchdogFires m).toNat + (violationFires m).toNat

/-- If the intercept of a `BRK` is the only block that fires, no violation is pending. -/
theorem pendingNmi_of_brk_alone {m : Machine} (hBrk : opcodeAtPc m = opcodeBrk)
    (hFired : blocksFired m = 1) : m.bus.mmu.pendingNmi = false := by
  simp only [blocksFired, interceptFires, hBrk, beq_self_eq_true, Bool.or_true,
    violationFires] at hFired
  cases hNmi : m.bus.mmu.pendingNmi with
  | false => rfl
  | true => simp [hNmi] at hFired

/-- Through a user's page table every address is outside the device page. -/
theorem not_inDevicePage_user {u : Mmu} (h : ∀ s, 0x10 ≤ (u.pageTable s).toNat) (va : Word) :
    ¬ InDevicePage (physicalAddress u va) := by
  have hEntry := h (segmentOf va)
  unfold InDevicePage physicalAddress unmappedAddress
  split <;> omega

theorem machineRead_user {b : Board} (h : ∀ s, 0x10 ≤ (b.mmu.pageTable s).toNat) (va : Word) :
    (machineRead va b).2 = b.translate va :=
  readEffect_of_not_device _ (not_inDevicePage_user h va)

theorem mmuTranslate_pendingNmi (u : Mmu) (va : Word) :
    (mmuTranslate u va).pendingNmi = (u.pendingNmi || decide (u.faults va)) := by
  unfold mmuTranslate
  split
  case isTrue h => simp [h]
  case isFalse h => simp [h]

theorem mmuTranslate_pageTable (u : Mmu) (va : Word) :
    (mmuTranslate u va).pageTable = u.pageTable := by
  unfold mmuTranslate
  split <;> rfl

theorem mmuTranslate_prev (u : Mmu) (va : Word) : (mmuTranslate u va).prev = u.prev := by
  unfold mmuTranslate
  split <;> rfl

/-- What the MMU has latched after the opcode fetch of a user machine. -/
theorem preExecFetch_user {m : Machine} (h : UserMachine m) :
    preExecFetch m = m.setMmu fun u =>
      { mmuTranslate u m.cpu.pc with opcode := opcodeAtPc m, inUser := true } := by
  have hUser : (m.bus.mmu.pageTable mmuLastSegment != kernelFrame) = true := by
    have hEntry := h.entries mmuLastSegment
    rw [bne_iff_ne]
    intro hKernel
    rw [hKernel] at hEntry
    exact absurd hEntry (by decide)
  unfold preExecFetch
  simp only [Ctx.setMmu, machineRead_user h.entries, Board.translate, mmuTranslate_pageTable,
    hUser, opcodeAtPc]

/-! ## §3 The state behind the blocks -/

/-- What all states inside `MMU_pre_exec` share. -/
structure InPreExec (m s : Machine) : Prop where
  low : SameLow m.bus s.bus
  stack : s.bus.mmu.StackMapped
  inUser : s.bus.mmu.inUser = true
  opcode : s.bus.mmu.opcode = opcodeAtPc m
  irqPending : s.cpu.irqPending = false

/-- The machine behind `n` blocks of which one at least has interrupted the core. -/
structure Trapped (m s : Machine) (n : Nat) : Prop extends InPreExec m s where
  kernel : s.bus.mmu.pageTable mmuLastSegment = kernelFrame
  vector : ∃ v, IsVector v ∧ s.cpu.pc = vectorAt m.bus v
  pending : s.cpu.pendingTiming = 7
  masked : s.cpu.isSet statusI = true
  prev : s.bus.mmu.prev = if n = 1 then m.bus.mmu.pageTable mmuLastSegment else kernelFrame
  first : n = 1 → s.cpu.nmiPending = false ∧ returnAddress s = m.cpu.pc
  fired : 0 < n

/-- The machine inside `MMU_pre_exec` behind `n` blocks that fired. -/
inductive Stage (m : Machine) : Machine → Nat → Prop
  /-- No block has fired. -/
  | user (hIrq : takesIrq m = false) (hBrk : opcodeAtPc m ≠ opcodeBrk) :
      Stage m (preExecFetch m) 0
  /-- The kernel is mapped for a `BRK` that the core has still to execute. -/
  | brk (hIrq : takesIrq m = false) (hBrk : opcodeAtPc m = opcodeBrk) :
      Stage m ((preExecFetch m).setMmu Mmu.enterKernel) 1
  | trapped {s : Machine} {n : Nat} (h : Trapped m s n) : Stage m s n

/-- The change of the MMU made by a block: the kernel mapped, the entry it replaces saved. -/
structure SwitchesToKernel (g : Mmu → Mmu) : Prop where
  pageTable : ∀ u, (g u).pageTable = Function.update u.pageTable mmuLastSegment kernelFrame
  prev : ∀ u, (g u).prev = u.pageTable mmuLastSegment
  inUser : ∀ u, (g u).inUser = u.inUser
  opcode : ∀ u, (g u).opcode = u.opcode

theorem switchesToKernel_enterKernel : SwitchesToKernel Mmu.enterKernel :=
  ⟨fun _ => rfl, fun _ => rfl, fun _ => rfl, fun _ => rfl⟩

theorem switchesToKernel_watchdog (opcode : Byte) : SwitchesToKernel (watchdogSwitch opcode) :=
  ⟨fun _ => rfl, fun _ => rfl, fun _ => rfl, fun _ => rfl⟩

theorem switchesToKernel_violation : SwitchesToKernel violationSwitch :=
  ⟨fun _ => rfl, fun _ => rfl, fun _ => rfl, fun _ => rfl⟩

theorem SwitchesToKernel.entryMapped {g : Mmu → Mmu} (hg : SwitchesToKernel g) {u : Mmu}
    (h : u.StackMapped) : (g u).EntryMapped := by
  have hZero : (g u).pageTable 0 = u.pageTable 0 := by
    rw [hg.pageTable]
    exact Function.update_of_ne (by decide) _ _
  refine ⟨⟨?_, ?_⟩, ?_⟩
  · rw [hZero]
    exact h.userFrame
  · rw [hZero]
    exact h.valid
  · rw [hg.pageTable]
    exact Function.update_self _ _ _

theorem SwitchesToKernel.prev_of_kernel {g : Mmu → Mmu} (hg : SwitchesToKernel g) {u : Mmu}
    (h : u.pageTable mmuLastSegment = kernelFrame) : (g u).prev = kernelFrame :=
  (hg.prev u).trans h

theorem inPreExec_setMmu {m s : Machine} (h : InPreExec m s) {g : Mmu → Mmu}
    (hg : SwitchesToKernel g) : InPreExec m (s.setMmu g) where
  low := ⟨h.low.rom, h.low.ram⟩
  stack := (hg.entryMapped h.stack).stack
  inUser := (hg.inUser _).trans h.inUser
  opcode := (hg.opcode _).trans h.opcode
  irqPending := h.irqPending

/-- The core interrupted for the first time. -/
theorem trapped_interrupted {m s : Machine} {n : Nat} (h : InPreExec m s)
    (hKernel : s.bus.mmu.pageTable mmuLastSegment = kernelFrame)
    (hPrev : s.bus.mmu.prev = if n = 1 then m.bus.mmu.pageTable mmuLastSegment else kernelFrame)
    (hPc : s.cpu.pc = m.cpu.pc) (hNmi : s.cpu.nmiPending = false) (hFired : 0 < n) {v : Word}
    (hVector : IsVector v) : Trapped m (interrupted s v) n where
  low := h.low.trans (sameLow_entered h.stack s.cpu.pc false v)
  stack := h.stack
  inUser := h.inUser
  opcode := h.opcode
  irqPending := h.irqPending
  kernel := hKernel
  vector := ⟨v, hVector, vectorAt_eq_of_sameLow h.low hVector⟩
  pending := rfl
  masked := isSet_statusI_entered s s.cpu.pc false v
  prev := hPrev
  first _ := ⟨hNmi, (returnAddress_entered s s.cpu.pc false v).trans hPc⟩
  fired := hFired

theorem inPreExec_fetch {m : Machine} (h : UserMachine m) : InPreExec m (preExecFetch m) := by
  rw [preExecFetch_user h]
  refine ⟨⟨rfl, fun _ _ => rfl⟩, ?_, rfl, rfl, congrArg InterruptQueue.irqPending h.idle⟩
  constructor
  · exact (congrArg (fun t => 0x10 ≤ (t 0).toNat)
      (mmuTranslate_pageTable m.bus.mmu m.cpu.pc)).mpr (h.entries 0)
  · exact (congrArg (fun t => t 0 ≠ mmuFrameInvalid)
      (mmuTranslate_pageTable m.bus.mmu m.cpu.pc)).mpr h.stack

theorem preExecFetch_pageTable {m : Machine} (h : UserMachine m) :
    (preExecFetch m).bus.mmu.pageTable = m.bus.mmu.pageTable := by
  rw [preExecFetch_user h]
  exact mmuTranslate_pageTable _ _

theorem preExecFetch_pendingNmi {m : Machine} (h : UserMachine m) :
    (preExecFetch m).bus.mmu.pendingNmi = violationFires m := by
  rw [preExecFetch_user h]
  exact mmuTranslate_pendingNmi _ _

theorem enterKernel_pendingNmi (s : Machine) :
    (s.setMmu Mmu.enterKernel).bus.mmu.pendingNmi = s.bus.mmu.pendingNmi := rfl

theorem preExecFetch_cpu {m : Machine} (h : UserMachine m) : (preExecFetch m).cpu = m.cpu := by
  rw [preExecFetch_user h]
  rfl

/-- **One NMI block**: behind `n` blocks, a block that switches to the kernel and calls
    `MCS6502NMI`. The first interrupt is taken at once, a later one is queued. -/
theorem trapped_nmiBlock {m s : Machine} {n : Nat} (hUser : UserMachine m) (h : Stage m s n)
    {g : Mmu → Mmu} (hg : SwitchesToKernel g) :
    Trapped m ((mcs6502NMI machineBus).run (s.setMmu g)).2 (n + 1) ∧
      ((mcs6502NMI machineBus).run (s.setMmu g)).2.bus.mmu = g s.bus.mmu := by
  have hFetch := inPreExec_fetch hUser
  have hCpu := preExecFetch_cpu hUser
  have hIdle : (preExecFetch m).cpu.Idle := hCpu ▸ hUser.idle
  have hNmi : (preExecFetch m).cpu.nmiPending = false := congrArg InterruptQueue.nmiPending hIdle
  cases h with
  | user _ _ =>
    have hMapped := hg.entryMapped hFetch.stack
    have hPrev : (g (preExecFetch m).bus.mmu).prev = m.bus.mmu.pageTable mmuLastSegment := by
      rw [hg.prev, preExecFetch_pageTable hUser]
    rw [mcs6502NMI_run (m := (preExecFetch m).setMmu g) hIdle hMapped]
    exact ⟨trapped_interrupted (n := 1) (inPreExec_setMmu hFetch hg) hMapped.kernel hPrev
      (congrArg Cpu.pc hCpu) hNmi Nat.one_pos (.inr rfl), rfl⟩
  | brk _ _ =>
    -- the kernel is mapped already, and what `prev` saves is its frame
    have hFirst := switchesToKernel_enterKernel.entryMapped hFetch.stack
    have hMapped := hg.entryMapped hFirst.stack
    rw [mcs6502NMI_run (m := ((preExecFetch m).setMmu Mmu.enterKernel).setMmu g) hIdle hMapped]
    exact ⟨trapped_interrupted (n := 2) (inPreExec_setMmu (inPreExec_setMmu hFetch
      switchesToKernel_enterKernel) hg) hMapped.kernel (hg.prev_of_kernel hFirst.kernel)
      (congrArg Cpu.pc hCpu) hNmi (Nat.succ_pos 1) (.inr rfl), rfl⟩
  | trapped h =>
    have hPending : 0 < (s.setMmu g).cpu.pendingTiming := by
      show 0 < s.cpu.pendingTiming
      rw [h.pending]
      decide
    have hSecond : n + 1 ≠ 1 := by have := h.fired; omega
    rw [mcs6502NMI_run_pending hPending]
    refine ⟨?_, rfl⟩
    exact
      { inPreExec_setMmu h.toInPreExec hg with
        kernel := (hg.entryMapped h.stack).kernel
        vector := h.vector
        pending := h.pending
        masked := h.masked
        prev := by rw [if_neg hSecond]; exact hg.prev_of_kernel h.kernel
        first := fun hOne => absurd hOne hSecond
        fired := Nat.succ_pos n }

/-- `takes_irq` does not change during the opcode fetch. -/
theorem takesIrq_fetch {m : Machine} (h : UserMachine m) :
    takesIrq (preExecFetch m) = takesIrq m := by
  rw [preExecFetch_user h]
  rfl

/-- The first block. -/
theorem stage_intercept {m : Machine} (h : UserMachine m) :
    Stage m (preExecIntercept (preExecFetch m)) (interceptFires m).toNat ∧
      (preExecIntercept (preExecFetch m)).bus.mmu.pendingNmi = violationFires m := by
  have hFetch := inPreExec_fetch h
  have hCpu := preExecFetch_cpu h
  have hIdle : (preExecFetch m).cpu.Idle := hCpu ▸ h.idle
  have hNmi : (preExecFetch m).cpu.nmiPending = false := congrArg InterruptQueue.nmiPending hIdle
  have hMapped := switchesToKernel_enterKernel.entryMapped hFetch.stack
  unfold preExecIntercept interceptFires
  rw [takesIrq_fetch h, hFetch.opcode]
  -- the IRQ of the devices, then the `BRK`, then neither
  by_cases hIrq : takesIrq m = true
  · have hMask : (preExecFetch m).cpu.isSet statusI = false := by
      rw [hCpu]
      simpa [takesIrq] using (Bool.and_eq_true_iff.mp hIrq).2
    have hPrev : ((preExecFetch m).setMmu Mmu.enterKernel).bus.mmu.prev =
        m.bus.mmu.pageTable mmuLastSegment := by
      show (preExecFetch m).bus.mmu.pageTable mmuLastSegment = _
      rw [preExecFetch_pageTable h]
    rw [if_pos hIrq, hIrq, Bool.true_or]
    -- the pin is lowered before the core is interrupted
    let lowered : Machine :=
      ⟨(preExecFetch m).cpu, plicLower ((preExecFetch m).setMmu Mmu.enterKernel).bus⟩
    have hLowered : InPreExec m lowered :=
      { inPreExec_setMmu hFetch switchesToKernel_enterKernel with
        low := ⟨hFetch.low.rom, hFetch.low.ram⟩ }
    have hRun : ((mcs6502IRQ machineBus).run lowered).2 = interrupted lowered irqVectorAddress :=
      mcs6502IRQ_run hIdle hMask hMapped
    show Stage m ((mcs6502IRQ machineBus).run lowered).2 1 ∧
      ((mcs6502IRQ machineBus).run lowered).2.bus.mmu.pendingNmi = violationFires m
    rw [hRun]
    have hPending : (interrupted lowered irqVectorAddress).bus.mmu.pendingNmi =
        ((preExecFetch m).setMmu Mmu.enterKernel).bus.mmu.pendingNmi := rfl
    exact ⟨.trapped (trapped_interrupted (n := 1) hLowered hMapped.kernel hPrev
      (congrArg Cpu.pc hCpu) hNmi Nat.one_pos (.inl rfl)),
      hPending.trans ((enterKernel_pendingNmi _).trans (preExecFetch_pendingNmi h))⟩
  · have hIrq' := Bool.eq_false_of_not_eq_true hIrq
    rw [if_neg hIrq, hIrq', Bool.false_or]
    by_cases hBrk : opcodeAtPc m = opcodeBrk
    · rw [if_pos hBrk, hBrk, beq_self_eq_true]
      exact ⟨.brk hIrq' hBrk, (enterKernel_pendingNmi _).trans (preExecFetch_pendingNmi h)⟩
    · rw [if_neg hBrk, beq_eq_false_iff_ne.mpr hBrk]
      exact ⟨.user hIrq' hBrk, preExecFetch_pendingNmi h⟩

theorem Stage.inPreExec {m s : Machine} {n : Nat} (hUser : UserMachine m) (h : Stage m s n) :
    InPreExec m s := by
  cases h with
  | user _ _ => exact inPreExec_fetch hUser
  | brk _ _ => exact inPreExec_setMmu (inPreExec_fetch hUser) switchesToKernel_enterKernel
  | trapped h => exact h.toInPreExec

/-- The first two blocks. -/
theorem stage_watchdog {m : Machine} (h : UserMachine m) :
    Stage m (preExecWatchdog (preExecIntercept (preExecFetch m)))
        ((interceptFires m).toNat + (watchdogFires m).toNat) ∧
      (preExecWatchdog (preExecIntercept (preExecFetch m))).bus.mmu.pendingNmi
        = violationFires m := by
  obtain ⟨hIntercept, hPending⟩ := stage_intercept h
  have hIn := hIntercept.inPreExec h
  have hTest : watchedOpcode (opcodeAtPc m) = watchdogFires m := rfl
  rw [preExecWatchdog_eq, hIn.inUser, hIn.opcode, Bool.true_and, hTest]
  cases hFires : watchdogFires m with
  | false => exact ⟨hIntercept, hPending⟩
  | true =>
    obtain ⟨hTrapped, hMmu⟩ := trapped_nmiBlock h hIntercept (switchesToKernel_watchdog _)
    exact ⟨.trapped hTrapped, (congrArg Mmu.pendingNmi hMmu).trans hPending⟩

/-- **The machine behind `MMU_pre_exec`.** -/
theorem mmuPreExec_stage {m : Machine} (h : UserMachine m) :
    Stage m (mmuPreExec m) (blocksFired m) := by
  obtain ⟨hWatchdog, hPending⟩ := stage_watchdog h
  rw [mmuPreExec, preExecViolation_eq, hPending, blocksFired]
  cases hFires : violationFires m with
  | false => exact hWatchdog
  | true => exact .trapped (trapped_nmiBlock h hWatchdog switchesToKernel_violation).1

/-! ## §4 Behind the entry -/

/-- The machine is about to execute the first instruction of a handler. -/
structure AtHandler (m k : Machine) : Prop where
  vector : ∃ v, IsVector v ∧ k.cpu.pc = vectorAt m.bus v
  masked : k.cpu.isSet statusI = true
  mapped : k.bus.mmu.EntryMapped
  low : SameLow m.bus k.bus

theorem machineRead_mmu (va : Word) (b : Board) :
    (machineRead va b).2.mmu = mmuTranslate b.mmu va := by
  show (readEffect (b.translate va) _).mmu = _
  unfold readEffect
  split <;> rfl

theorem sameLow_machineRead (va : Word) (b : Board) : SameLow b (machineRead va b).2 := by
  show SameLow b (readEffect (b.translate va) _)
  unfold readEffect
  split <;> exact ⟨rfl, fun _ _ => rfl⟩

/-- Reading leaves alone what an entry needs of the MMU. -/
theorem entryMapped_mmuTranslate {u : Mmu} (h : u.EntryMapped) (va : Word) :
    (mmuTranslate u va).EntryMapped := by
  unfold mmuTranslate
  split
  · exact ⟨⟨h.stack.userFrame, h.stack.valid⟩, h.kernel⟩
  · exact h

/-- In user mode `MMU_post_exec` does nothing. -/
theorem mmuPostExec_inUser {m : Machine} (h : m.bus.mmu.inUser = true) : mmuPostExec m = m :=
  if_neg fun hRti => Bool.noConfusion (hRti.2.symm.trans h)

/-- What an iteration with a queued NMI does. -/
theorem cpuStepIteration_nmi {m : Machine} {n : Nat} (h : Trapped m (mmuPreExec m) n)
    (hNmi : (mmuPreExec m).cpu.nmiPending = true) :
    cpuStepIteration m =
      let e := entered (mmuPreExec m) (mmuPreExec m).cpu.pc false nmiVectorAddress
      { e with cpu := { e.cpu with
          timingForLastOperation := 7, pendingTiming := 0, nmiPending := false } } := by
  rw [cpuStepIteration, execNext_nmi hNmi ⟨h.stack, h.kernel⟩]
  exact mmuPostExec_inUser h.inUser

/-- A queued NMI enters its handler in the iteration itself. -/
theorem cpuStepIteration_queued {m : Machine} {n : Nat} (h : Trapped m (mmuPreExec m) n)
    (hNmi : (mmuPreExec m).cpu.nmiPending = true) :
    AtHandler m (cpuStepIteration m) ∧
      (cpuStepIteration m).bus.mmu = (mmuPreExec m).bus.mmu := by
  rw [cpuStepIteration_nmi h hNmi]
  exact ⟨⟨⟨nmiVectorAddress, .inr rfl, vectorAt_eq_of_sameLow h.low (.inr rfl)⟩,
    isSet_statusI_entered (mmuPreExec m) (mmuPreExec m).cpu.pc false nmiVectorAddress,
    ⟨h.stack, h.kernel⟩, h.low.trans (sameLow_entered h.stack (mmuPreExec m).cpu.pc false
      nmiVectorAddress)⟩, rfl⟩

/-- Behind the intercept of a `BRK`, if the core fetches a `BRK` as well. -/
theorem cpuStepIteration_brk {m k : Machine} (hUser : UserMachine m)
    (hPre : mmuPreExec m = (preExecFetch m).setMmu Mmu.enterKernel)
    (hk : k = (preExecFetch m).setMmu Mmu.enterKernel)
    (hOpcode : (machineRead k.cpu.pc k.bus).1 = opcodeBrk) :
    AtHandler m (cpuStepIteration m) ∧
      (cpuStepIteration m).bus.mmu = mmuTranslate k.bus.mmu m.cpu.pc ∧
      returnAddress (cpuStepIteration m) = m.cpu.pc + 2 := by
  have hFetch := inPreExec_fetch hUser
  have hIn : InPreExec m k := hk ▸ inPreExec_setMmu hFetch switchesToKernel_enterKernel
  have hCpu : k.cpu = m.cpu := by
    rw [hk, ← preExecFetch_cpu hUser]
    rfl
  have hMapped : k.bus.mmu.EntryMapped := hk ▸ switchesToKernel_enterKernel.entryMapped hFetch.stack
  have hRead : (machineRead k.cpu.pc k.bus).2.mmu = mmuTranslate k.bus.mmu m.cpu.pc := by
    rw [machineRead_mmu, hCpu]
  have hMapped' : (machineRead k.cpu.pc k.bus).2.mmu.EntryMapped := by
    rw [hRead]
    exact entryMapped_mmuTranslate hMapped _
  have hLow := hIn.low.trans (sameLow_machineRead k.cpu.pc k.bus)
  -- the core pushes the address behind the `BRK`, from the bus as the fetch has left it
  let e := entered { k with bus := (machineRead k.cpu.pc k.bus).2 } (k.cpu.pc + 2) true
    irqVectorAddress
  have hIteration : cpuStepIteration m =
      { e with cpu := { e.cpu with timingForLastOperation := 7, pendingTiming := 0 } } := by
    have hNmi : k.cpu.nmiPending = false :=
      hCpu ▸ congrArg InterruptQueue.nmiPending hUser.idle
    rw [cpuStepIteration, hPre, ← hk, execNext_brk hNmi hIn.irqPending hOpcode hMapped']
    refine mmuPostExec_inUser ?_
    show (machineRead k.cpu.pc k.bus).2.mmu.inUser = true
    rw [hRead, ← hIn.inUser]
    unfold mmuTranslate
    split <;> rfl
  rw [hIteration]
  refine ⟨⟨⟨irqVectorAddress, .inl rfl, vectorAt_eq_of_sameLow hLow (.inl rfl)⟩,
    isSet_statusI_entered { k with bus := (machineRead k.cpu.pc k.bus).2 } (k.cpu.pc + 2) true
      irqVectorAddress, hMapped',
    hLow.trans (sameLow_entered (m := { k with bus := (machineRead k.cpu.pc k.bus).2 })
      hMapped'.stack (k.cpu.pc + 2) true irqVectorAddress)⟩, hRead, ?_⟩
  exact (returnAddress_entered { k with bus := (machineRead k.cpu.pc k.bus).2 } (k.cpu.pc + 2) true
    irqVectorAddress).trans (by rw [hCpu])

end Xv6502.Emulator
