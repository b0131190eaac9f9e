import Xv6502.Emulator.MachineRuns
import Xv6502.Emulator.TimerPeriod

/-!
# User Programs are Preempted

A user program cannot mask interrupts: `SEI`, `PLP` and `RTI` are the kernel's, and no other
instruction sets `I` (`keeps_execute_unmasked`). It cannot reach the timer either. So, if the timer
is on when it gets the CPU, the kernel gets it back: behind as many calls of `Timer_step` as the
counter says, the program does not execute a single instruction more (`user_preempted`), and so no
run in user mode outlasts that many calls of `Machine_step` (`user_run_bounded`).
-/

namespace Xv6502.Emulator

open Xv6502.Lib

/-! ## §1 The interrupt mask -/

section Mask

variable {σ : Type} {bus : DataBus σ}

/-- `I` is a bit of the status. -/
theorem isSet_statusI (c : Cpu) : c.isSet statusI = c.p[2] := by
  have hAll : ∀ p : Byte, (p &&& statusI != 0) = p[2] := by decide
  exact hAll c.p

/-- The other flags leave it alone. -/
theorem isSet_setFlag_other {flag : Byte} (hOther : flag[2] = false) (b : Bool) (c : Cpu) :
    (c.setFlag flag b).isSet statusI = c.isSet statusI := by
  rw [isSet_statusI, isSet_statusI]
  cases b <;> simp [Cpu.setFlag, hOther]

theorem isSet_updateZeroNegative (val : Byte) (c : Cpu) :
    (c.updateZeroNegative val).isSet statusI = c.isSet statusI := by
  rw [Cpu.updateZeroNegative, isSet_setFlag_other (by decide), isSet_setFlag_other (by decide)]

theorem isSet_compare (register operand : Byte) (c : Cpu) :
    (c.compare register operand).isSet statusI = c.isSet statusI := by
  rw [Cpu.compare, isSet_updateZeroNegative, isSet_setFlag_other (by decide)]

theorem isSet_addBinary (operand : Byte) (c : Cpu) :
    (c.addBinary operand).isSet statusI = c.isSet statusI := by
  rw [Cpu.addBinary, isSet_setFlag_other (by decide), isSet_updateZeroNegative,
    isSet_setFlag_other (by decide)]
  rfl

theorem isSet_addDecimal (operand : Byte) (c : Cpu) :
    (c.addDecimal operand).isSet statusI = c.isSet statusI := by
  rw [Cpu.addDecimal, isSet_updateZeroNegative, isSet_setFlag_other (by decide)]
  rfl

theorem isSet_subDecimal (operand : Byte) (c : Cpu) :
    (c.subDecimal operand).isSet statusI = c.isSet statusI := by
  rw [Cpu.subDecimal, isSet_updateZeroNegative, isSet_setFlag_other (by decide)]
  rfl

/-- Interrupts that were not masked are not masked. -/
def StaysUnmasked (c c' : Ctx σ) : Prop :=
  c.cpu.isSet statusI = false → c'.cpu.isSet statusI = false

instance : @Std.Refl (Ctx σ) StaysUnmasked := ⟨fun _ h => h⟩

instance : IsTrans (Ctx σ) StaysUnmasked := ⟨fun _ _ _ hab hbc h => hbc (hab h)⟩

theorem keptByOperands_unmasked : KeptByOperands bus StaysUnmasked where
  read _ _ h := h
  write _ _ _ h := h
  registers c cpu' _ hStatus h := by
    rw [isSet_statusI] at h ⊢
    rw [hStatus]
    exact h

/-- A change of the registers that does not set `I`. -/
theorem keeps_unmasked {f : Cpu → Cpu} (hf : ∀ c, (f c).isSet statusI = c.isSet statusI) :
    Keeps StaysUnmasked (modifyCpu f : CoreM σ Unit) :=
  fun c h => (hf c.cpu).trans h

theorem keeps_setFlag_other {flag : Byte} (hOther : flag[2] = false) (b : Bool) :
    Keeps StaysUnmasked (modifyCpu (Cpu.setFlag flag b) : CoreM σ Unit) :=
  keeps_unmasked (isSet_setFlag_other hOther b)

/-- A register is loaded, and `Z` and `N` are set after the value. -/
theorem keeps_load {load : Cpu → Cpu} {val : Cpu → Byte} (hLoad : ∀ c, (load c).p = c.p) :
    Keeps StaysUnmasked (modifyCpu fun c => (load c).updateZeroNegative (val c) : CoreM σ Unit) := by
  refine keeps_unmasked fun c => ?_
  rw [isSet_updateZeroNegative, isSet_statusI, isSet_statusI, hLoad]

/-- The instructions that may set `I`. -/
def masking : List Mnemonic := [.brk, .plp, .rti, .sei]

/-- The other ones do not. -/
theorem keeps_executeOp_unmasked {m : Mnemonic} (hm : m ∉ masking) {o : Operand σ}
    {branch : Bool → CoreM σ Unit} (hAddress : Keeps StaysUnmasked o.address)
    (hRead : Keeps StaysUnmasked o.read) (hWrite : ∀ byte, Keeps StaysUnmasked (o.write byte))
    (hBranch : ∀ c, Keeps StaysUnmasked (branch c)) :
    Keeps StaysUnmasked (executeOp bus m o branch) := by
  have h : KeptByOperands bus StaysUnmasked := keptByOperands_unmasked
  unfold executeOp
  cases m
  -- the four that may set the mask are shut out
  case brk => exact absurd (by decide) hm
  case plp => exact absurd (by decide) hm
  case rti => exact absurd (by decide) hm
  case sei => exact absurd (by decide) hm
  all_goals
    repeat' with_reducible first
      | exact keeps_pure _
      | exact keeps_getCpu
      | exact hRead
      | exact hAddress
      | exact hWrite _
      | exact hBranch _
      | exact keeps_writeByte h _ _
      | exact keeps_pushByte h.pushes _
      | exact keeps_pushFlags h.pushes _
      | exact keeps_pullByte h.reads
      | exact keeps_load fun _ => rfl
      | exact keeps_setFlag_other (by decide) _
      | exact keeps_unmasked fun c => isSet_compare _ _ c
      | exact keeps_modifyRegisters h.reads (fun _ => rfl) fun _ => rfl
      | refine keeps_bind ?_ fun _ => ?_
  -- this one clears it
  case cli =>
    refine fun c _ => ?_
    show (c.cpu.setFlag statusI false).isSet statusI = false
    rw [isSet_statusI]
    simp [Cpu.setFlag, statusI]
  -- the others write flags, but none of them the mask
  case adc =>
    refine keeps_unmasked fun c => ?_
    split
    · exact isSet_addBinary _ c
    · exact isSet_addDecimal _ c
  case sbc =>
    refine keeps_unmasked fun c => ?_
    split
    · exact isSet_addBinary _ c
    · exact isSet_subDecimal _ c
  case asl =>
    refine keeps_unmasked fun c => ?_
    rw [isSet_updateZeroNegative, isSet_setFlag_other (by decide)]
  case bit =>
    refine keeps_unmasked fun c => ?_
    iterate 3 rw [isSet_setFlag_other (by decide)]
  case lsr =>
    refine keeps_unmasked fun c => ?_
    iterate 3 rw [isSet_setFlag_other (by decide)]

theorem keeps_execute_unmasked {i : Instruction} (hi : i.mnemonic ∉ masking) :
    Keeps StaysUnmasked (execute bus i) := by
  have h : KeptByOperands bus StaysUnmasked := keptByOperands_unmasked
  have hAddress : Keeps StaysUnmasked (operandOf bus i).address :=
    keeps_bind (keeps_effectiveOperandAddress h.reads i) fun _ => keeps_pure _
  unfold execute
  refine keeps_bind keeps_getCpu fun ⟨_, _, _, _, originalPC, _, _, _, _, _⟩ => ?_
  refine keeps_bind (keeps_executeOp_unmasked hi hAddress (keeps_readOperandValue h.reads i)
    (keeps_writeResult h i) (keeps_conditionalBranch h.reads i)) fun doNotUpdatePC => ?_
  have hEnd : Keeps StaysUnmasked (do
      modifyCpu (Cpu.addTiming i.timing)
      return if originalPC == (← getCpu).pc then ExecResult.halting else .running :
        CoreM σ ExecResult) :=
    keeps_bind (keeps_modifyRegisters h.reads (fun _ => rfl) fun _ => rfl) fun _ =>
      keeps_bind keeps_getCpu fun _ => keeps_pure _
  exact keeps_ite
    (keeps_bind (keeps_modifyRegisters h.reads (fun _ => rfl) fun _ => rfl) fun _ => hEnd) hEnd

/-- Without queued interrupts the core executes what it fetches. -/
theorem execNext_unmasked {c : Ctx σ} (hIdle : c.cpu.Idle)
    (hOpcode : ∀ i, opcodeTable (bus.readByte c.cpu.pc c.bus).1 = some i → i.mnemonic ∉ masking) :
    StaysUnmasked c ((mcs6502ExecNext bus).run c).2 := by
  have hNmi : c.cpu.nmiPending = false := congrArg InterruptQueue.nmiPending hIdle
  have hIrq : c.cpu.irqPending = false := congrArg InterruptQueue.irqPending hIdle
  let k : Ctx σ := ⟨{ c.cpu with pendingTiming := 0, timingForLastOperation := 0 }, c.bus⟩
  rw [execNext_run, hNmi, hIrq]
  show StaysUnmasked k ((fetchExecute bus).run k).2
  -- an opcode that is not in the table does nothing at all
  cases hTable : opcodeTable (bus.readByte c.cpu.pc c.bus).1 with
  | none =>
    rw [fetchExecute_invalid (c := k) hTable]
    exact fun h => h
  | some i =>
    rw [fetchExecute_run (c := k) hTable]
    exact keeps_execute_unmasked (hOpcode i hTable) ⟨k.cpu, (bus.readByte c.cpu.pc c.bus).2⟩

end Mask

section User

variable {m k : Machine} {b b' : Board} {e : MachineEvent} {es : List MachineEvent}

/-- The kernel gets the instructions that may set `I`. -/
theorem watched_of_masking {opcode : Byte} {i : Instruction} (h : opcodeTable opcode = some i)
    (hi : i.mnemonic ∈ masking) : opcode = opcodeBrk ∨ watchedOpcode opcode = true := by
  have hAll : ∀ i ∈ instructions, i.mnemonic ∈ masking →
      i.opcode = opcodeBrk ∨ watchedOpcode i.opcode = true := by decide +kernel
  have hFound : i.opcode = opcode := by simpa using List.find?_some h
  rw [← hFound]
  exact hAll i (List.mem_of_find?_eq_some h) hi

/-- What a program executes is none of them. -/
theorem opcode_of_stays (h : UserMachine m) (hStays : ¬ EntersKernel m) :
    opcodeAtPc m ≠ opcodeBrk ∧ watchedOpcode (opcodeAtPc m) = false := by
  rw [entersKernel_iff h] at hStays
  refine ⟨fun hBrk => hStays ?_, Bool.eq_false_of_not_eq_true fun hWatched => hStays ?_⟩
  · simp only [blocksFired, interceptFires, hBrk, beq_self_eq_true, Bool.or_true, Bool.toNat_true]
    omega
  · simp only [blocksFired, watchdogFires, hWatched, Bool.toNat_true]
    omega

/-- **A program does not mask interrupts.** -/
theorem cpuStepIteration_unmasked (h : UserMachine m) (hStays : ¬ EntersKernel m)
    (hMask : m.cpu.isSet statusI = false) : (cpuStepIteration m).cpu.isSet statusI = false := by
  obtain ⟨hBrk, hWatched⟩ := opcode_of_stays h hStays
  have hEntries : ∀ s, 0x10 ≤ ((preExecFetch m).bus.mmu.pageTable s).toNat := by
    rw [preExecFetch_pageTable h]
    exact h.entries
  have hInUser : (execNext (preExecFetch m)).bus.mmu.inUser = true :=
    (keeps_execNext keptByAccess_userAccess (preExecFetch m) hEntries).2.trans
      (inPreExec_fetch h).inUser
  have hIdle : (preExecFetch m).cpu.Idle := preExecFetch_cpu h ▸ h.idle
  -- `BRK` enters the kernel, and the other three are stopped by the watchdog
  have hOther : ∀ i, opcodeTable (opcodeAtPc (preExecFetch m)) = some i → i.mnemonic ∉ masking := by
    intro i hTable hMasking
    rw [opcodeAtPc_fetch h] at hTable
    rcases watched_of_masking hTable hMasking with hEq | hTrue
    · exact hBrk hEq
    · exact Bool.noConfusion (hWatched.symm.trans hTrue)
  rw [cpuStepIteration, mmuPreExec_of_stays h hStays, mmuPostExec_inUser hInUser]
  refine execNext_unmasked hIdle hOther ?_
  rw [preExecFetch_cpu h]
  exact hMask

theorem UserStep.unmasked (hStep : UserStep m e k) (h : UserMachine m)
    (hMask : m.cpu.isSet statusI = false) : k.cpu.isSet statusI = false := by
  obtain ⟨hPerform, hGuard⟩ := hStep
  have hDevice : (e.onBoard m.bus).map (fun b => (⟨m.cpu, b⟩ : Machine)) = some k →
      k.cpu.isSet statusI = false := by
    intro hMap
    obtain ⟨c, -, rfl⟩ := Option.map_eq_some_iff.mp hMap
    exact hMask
  cases e with
  | uart c => exact hDevice hPerform
  | disk result => exact hDevice hPerform
  | timer => exact hDevice hPerform
  | cpu =>
    -- only the core writes the status, and its iteration stays in user mode
    have hStays := hGuard rfl
    rw [MachineEvent.perform, cpuIteration_of_stays h hStays] at hPerform
    obtain rfl := Option.some.inj hPerform
    exact cpuStepIteration_unmasked h hStays hMask

/-! ## §2 The timer -/

/-- The calls of `Timer_step` up to the next raise. -/
def Timer.callsLeft (t : Timer) : Nat := if t.counter = 0 then 0x10000 else t.counter.toNat

theorem Timer.callsLeft_pos (t : Timer) : 0 < t.callsLeft := by
  unfold Timer.callsLeft
  split
  · decide
  · next hCounter =>
    refine Nat.pos_of_ne_zero fun hZero => hCounter ?_
    exact BitVec.eq_of_toNat_eq hZero

/-- A call of `Timer_step` raises the pin, or one call less is left. -/
theorem timerStep_callsLeft (hOn : b.timer.ctrl ≠ timerEnableFalse) :
    (timerStep b).timer.ctrl = b.timer.ctrl ∧
      ((timerStep b).plic.pendingIrq = true ∨
        (timerStep b).timer.callsLeft + 1 = b.timer.callsLeft) := by
  unfold timerStep
  rw [if_neg hOn]
  dsimp only
  split
  · exact ⟨rfl, .inl rfl⟩
  · next hMore =>
    refine ⟨rfl, .inr ?_⟩
    -- the two registers are written byte by byte and read back as one word
    have hCounter : wordOf (lowByte (b.timer.counter - 1)) (highByte (b.timer.counter - 1)) =
        b.timer.counter - 1 := wordOf_low_high _
    have hLeft : b.timer.counter - 1 ≠ 0 := hMore
    have hBound := b.timer.counter.isLt
    have hOne : (1 : Word).toNat = 1 := rfl
    show (if wordOf (lowByte (b.timer.counter - 1)) (highByte (b.timer.counter - 1)) = 0 then 0x10000
      else (wordOf (lowByte (b.timer.counter - 1)) (highByte (b.timer.counter - 1))).toNat) + 1 = _
    rw [hCounter, if_neg hLeft, Timer.callsLeft, BitVec.toNat_sub, hOne]
    split
    -- a counter at 0 stands for the whole range
    · next hZero =>
      rw [hZero]
      rfl
    · next hNonzero =>
      have hPos : b.timer.counter.toNat ≠ 0 := fun hNat => hNonzero (BitVec.eq_of_toNat_eq hNat)
      omega

/-- A step of a device that leaves the timer alone and does not lower the IRQ. -/
structure KeepsIrq (b b' : Board) : Prop where
  timer : b'.timer = b.timer
  pending : b.plic.pendingIrq = true → b'.plic.pendingIrq = true

theorem keepsIrq_display (b : Board) : KeepsIrq b (uartDisplay b) := by
  unfold uartDisplay
  split
  · exact ⟨rfl, fun h => h⟩
  · exact ⟨rfl, fun h => h⟩

theorem keepsIrq_uart {c : Option Byte} (h : uartStep c b = some b') : KeepsIrq b b' := by
  cases c with
  | none =>
    obtain rfl : uartDisplay b = b' := Option.some.inj h
    exact keepsIrq_display b
  | some c =>
    rw [uartStep_some] at h
    obtain ⟨-, hSome⟩ := Option.ite_none_left_eq_some.mp h
    obtain rfl := Option.some.inj hSome
    have hDisplay := keepsIrq_display (uartKey c b)
    exact ⟨hDisplay.timer, fun _ => hDisplay.pending rfl⟩

theorem keepsIrq_disk (result : Nat) (b : Board) : KeepsIrq b (diskStep result b) := by
  unfold diskStep
  dsimp only
  repeat' split
  all_goals first
    | exact ⟨rfl, fun h => h⟩
    | exact ⟨rfl, fun _ => rfl⟩

theorem timerStep_pending (h : b.plic.pendingIrq = true) :
    (timerStep b).plic.pendingIrq = true := by
  unfold timerStep
  dsimp only
  repeat' split
  · exact h
  · rfl
  · exact h

theorem onBoard_keepsIrq (h : e.onBoard b = some b') (he : e ≠ .timer) : KeepsIrq b b' := by
  cases e with
  | uart c => exact keepsIrq_uart h
  | disk result =>
    obtain rfl : diskStep result b = b' := Option.some.inj h
    exact keepsIrq_disk result b
  | timer => exact absurd rfl he
  | cpu =>
    obtain rfl : b = b' := Option.some.inj h
    exact ⟨rfl, fun hPending => hPending⟩

theorem onBoard_pending (h : e.onBoard b = some b') (hPending : b.plic.pendingIrq = true) :
    b'.plic.pendingIrq = true := by
  by_cases hTimer : e = .timer
  · subst hTimer
    obtain rfl : timerStep b = b' := Option.some.inj h
    exact timerStep_pending hPending
  · exact (onBoard_keepsIrq h hTimer).pending hPending

/-- **The timer raises the IRQ**, whatever the other devices do: behind enough calls it is pending. -/
theorem performAll_pending (hOn : b.timer.ctrl ≠ timerEnableFalse)
    (h : performAll MachineEvent.onBoard b es = some b')
    (hLong : b.timer.callsLeft ≤ es.count .timer) : b'.plic.pendingIrq = true := by
  -- on the events; the calls left go down by one with each of the timer's
  induction es generalizing b with
  | nil =>
    have hPos := b.timer.callsLeft_pos
    rw [List.count_nil] at hLong
    omega
  | cons e es ih =>
    obtain ⟨c, hHead, hTail⟩ := Option.bind_eq_some_iff.mp h
    by_cases hTimer : e = .timer
    · subst hTimer
      obtain rfl : timerStep b = c := Option.some.inj hHead
      obtain ⟨hCtrl, hRaised | hLess⟩ := timerStep_callsLeft hOn
      · refine @Run.invariant _ _ _ _ _ _ (fun c => c.plic.pendingIrq = true) ?_
          (run_of_performAll hTail) hRaised
        exact fun c e c' hPending hEvent => onBoard_pending hEvent hPending
      · refine ih (hCtrl ▸ hOn) hTail ?_
        rw [List.count_cons_self] at hLong
        omega
    -- no other device lowers the pin
    · have hKeeps := onBoard_keepsIrq hHead hTimer
      refine ih (hKeeps.timer ▸ hOn) hTail ?_
      rw [List.count_cons_of_ne hTimer] at hLong
      rw [hKeeps.timer]
      exact hLong

/-! ## §3 Preemption -/

/-- Interrupts are not masked in a run. -/
theorem unmasked_of_run (hRun : Run UserStep m es k) (h : UserMachine m)
    (hMask : m.cpu.isSet statusI = false) : k.cpu.isSet statusI = false := by
  have hInv : UserMachine k ∧ k.cpu.isSet statusI = false := by
    refine @Run.invariant _ _ _ _ _ _ (fun m => UserMachine m ∧ m.cpu.isSet statusI = false) ?_ hRun
      ⟨h, hMask⟩
    rintro m e k ⟨hUser, hUnmasked⟩ hStep
    exact ⟨(hStep.confined hUser (confined_refl m.bus)).1, hStep.unmasked hUser hUnmasked⟩
  exact hInv.2

/-- Behind enough calls of `Timer_step` the interrupt is taken. -/
theorem takesIrq_of_run (h : UserMachine m) (hMask : m.cpu.isSet statusI = false)
    (hOn : m.bus.timer.ctrl ≠ timerEnableFalse) (hRun : Run UserStep m es k)
    (hLong : m.bus.timer.callsLeft ≤ es.count .timer) : UserMachine k ∧ takesIrq k = true := by
  obtain ⟨hUser, b, hAlone, hConfined⟩ := user_run_confined hRun h (confined_refl m.bus)
  have hPending := performAll_pending hOn hAlone hLong
  rw [← hConfined.plic] at hPending
  refine ⟨hUser, ?_⟩
  rw [takesIrq, hPending, unmasked_of_run hRun h hMask]
  rfl

theorem entersKernel_of_takesIrq (h : UserMachine m) (hIrq : takesIrq m = true) :
    EntersKernel m := by
  rw [entersKernel_iff h]
  simp only [blocksFired, interceptFires, hIrq, Bool.true_or, Bool.toNat_true]
  omega

/-- **A user program is preempted**: as soon as `Timer_step` has been called as often as the counter
    says, the kernel has the CPU, by the handler of a vector, whatever the program has executed and
    whatever has come in at the devices. -/
theorem user_preempted (h : UserMachine m) (hMask : m.cpu.isSet statusI = false)
    (hOn : m.bus.timer.ctrl ≠ timerEnableFalse) (hRun : Run UserStep m es k)
    (hLong : m.bus.timer.callsLeft ≤ es.count .timer) :
    EntersKernel k ∧ AtHandler k (handlerEntry k) := by
  obtain ⟨hUser, hIrq⟩ := takesIrq_of_run h hMask hOn hRun hLong
  have hEnters := entersKernel_of_takesIrq hUser hIrq
  have hGood : ¬ BrkInLastSegment k := fun hBrk =>
    Bool.noConfusion (hIrq.symm.trans hBrk.2.2.1)
  exact ⟨hEnters, (handlerEntry_confined hUser hEnters hGood).1⟩

/-- The machine of `NOP`s, with the timer about to expire. -/
def ticking : Machine :=
  { nopMachine with bus := { nopMachine.bus with timer := ⟨timerEnableTrue, 100, 0, 1, 0⟩ } }

/-- It is preempted behind its first instruction. -/
theorem user_preempted_nop :
    EntersKernel ⟨(cpuStepIteration ticking).cpu, timerStep (cpuStepIteration ticking).bus⟩ := by
  have hUser : UserMachine ticking :=
    ⟨userMachine_nop.entries, userMachine_nop.stack, userMachine_nop.idle⟩
  have hStays : ¬ EntersKernel ticking := by decide +kernel
  have hRun : Run UserStep ticking [.cpu, .timer] _ :=
    .cons ⟨cpuIteration_of_stays hUser hStays, fun _ => hStays⟩
      (.cons ⟨rfl, fun h => by cases h⟩ (.nil _))
  exact (user_preempted hUser (by decide) (by decide) hRun (by decide)).1

/-- The events of a call of `Machine_step`, by what comes in at the terminal and what the disk
    moves. -/
def machineStepEvents (input : Option Byte × Nat) : List MachineEvent :=
  .uart input.1 :: .disk input.2 :: .timer :: List.replicate cpuPerStep .cpu

theorem count_machineStepEvents (inputs : List (Option Byte × Nat)) :
    (inputs.flatMap machineStepEvents).count .timer = inputs.length := by
  induction inputs with
  | nil => rfl
  | cons input inputs ih =>
    rw [List.flatMap_cons, List.count_append, ih, List.length_cons]
    have hOne : (machineStepEvents input).count .timer = 1 := by
      simp [machineStepEvents, List.count_replicate]
    omega

/-- **No program outlasts the timer**: as many calls of `Machine_step` do not pass in user mode. -/
theorem user_run_bounded (h : UserMachine m) (hMask : m.cpu.isSet statusI = false)
    (hOn : m.bus.timer.ctrl ≠ timerEnableFalse) {inputs : List (Option Byte × Nat)}
    (hLong : m.bus.timer.callsLeft ≤ inputs.length) (k : Machine) :
    ¬ Run UserStep m (inputs.flatMap machineStepEvents) k := by
  intro hRun
  have hPos := m.bus.timer.callsLeft_pos
  obtain rfl | ⟨init, last, rfl⟩ := List.eq_nil_or_concat' inputs
  · rw [List.length_nil] at hLong
    omega
  -- the timer has expired before the last call executes its first instruction
  have hCut : (init ++ [last]).flatMap machineStepEvents =
      (init.flatMap machineStepEvents ++ [.uart last.1, .disk last.2, .timer]) ++
        .cpu :: List.replicate (cpuPerStep - 1) .cpu := by
    simp [machineStepEvents, cpuPerStep, List.replicate_succ]
  rw [hCut] at hRun
  obtain ⟨c, hFirst, hRest⟩ := hRun.of_append
  obtain ⟨hUser, hIrq⟩ := takesIrq_of_run h hMask hOn hFirst (by
    rw [List.count_append, count_machineStepEvents]
    simpa using hLong)
  cases hRest with
  | cons hCpu _ => exact hCpu.2 rfl (entersKernel_of_takesIrq hUser hIrq)

end User

end Xv6502.Emulator
