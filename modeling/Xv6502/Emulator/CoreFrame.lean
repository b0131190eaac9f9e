import Xv6502.Emulator.Core
import Xv6502.Lib.StateProgram

/-!
# What the Core Can Do to Its Context

The core reaches the rest of the machine only through `readByte` and `writeByte`, and the
code of an instruction leaves the interrupt queue alone. So a relation between contexts
that every bus access and every such change of the registers keeps is kept by every
instruction (`keeps_execute`). Two instances are used:

- what every access of the bus keeps, every step of the core keeps (`keeps_execNext`);
- after `MCS6502ExecNext` no operation is pending and no NMI is queued, and an IRQ only if
  one was queued behind an NMI (`execNext_queue`).
-/

namespace Xv6502.Emulator

open Xv6502.Lib

/-- What the interrupt functions of the core look at besides the status: the pending
    operation and the queued interrupts. -/
structure InterruptQueue where
  pendingTiming : Nat
  irqPending : Bool
  nmiPending : Bool
  deriving DecidableEq

/-- The interrupt queue of the core. -/
def Cpu.queue (c : Cpu) : InterruptQueue := ⟨c.pendingTiming, c.irqPending, c.nmiPending⟩

/-- Nothing pending and nothing queued. -/
def Cpu.Idle (c : Cpu) : Prop := c.queue = ⟨0, false, false⟩

instance (c : Cpu) : Decidable c.Idle := inferInstanceAs (Decidable (_ = _))

/-! ## §1 Instructions -/

/-- The modes that name a place in memory. -/
def AddressingMode.inMemory : AddressingMode → Bool
  | .zeroPage | .zeroPageX | .zeroPageY | .absolute | .absoluteX | .absoluteY => true
  | .xIndirect | .indirectY => true
  | _ => false

/-- The instructions that write their operand back. -/
def Mnemonic.writes : Mnemonic → Bool
  | .asl | .dec | .inc | .lsr | .rol | .ror => true
  | _ => false

/-- The instructions that store a register. -/
def Mnemonic.stores : Mnemonic → Bool
  | .sta | .stx | .sty => true
  | _ => false

section Frame

variable {σ : Type} {bus : DataBus σ} {R : Ctx σ → Ctx σ → Prop}

/-- Every change of the registers that leaves the interrupt queue alone keeps `R`. -/
def KeptByRegisters (R : Ctx σ → Ctx σ → Prop) : Prop :=
  ∀ c cpu', cpu'.queue = c.cpu.queue → R c { c with cpu := cpu' }

/-- Every bus access keeps `R`, and so does every change of the registers that leaves the
    interrupt queue alone. -/
structure KeptByCore (bus : DataBus σ) (R : Ctx σ → Ctx σ → Prop) : Prop where
  read : ∀ addr c, R c { c with bus := (bus.readByte addr c.bus).2 }
  write : ∀ addr byte c, R c { c with bus := bus.writeByte addr byte c.bus }
  registers : KeptByRegisters R

/-- Every read keeps `R`, and so does every change of the registers that leaves the interrupt
    queue and the status alone. -/
structure KeptByReads (bus : DataBus σ) (R : Ctx σ → Ctx σ → Prop) : Prop where
  read : ∀ addr c, R c { c with bus := (bus.readByte addr c.bus).2 }
  registers : ∀ c cpu', cpu'.queue = c.cpu.queue → cpu'.p = c.cpu.p → R c { c with cpu := cpu' }

/-- And so does every write to the stack page, which is where most instructions write. -/
structure KeptByPushes (bus : DataBus σ) (R : Ctx σ → Ctx σ → Prop) : Prop
    extends KeptByReads bus R where
  push : ∀ sp byte c, R c { c with bus := bus.writeByte (stackAddress sp) byte c.bus }

/-- Every bus access keeps `R`, and so does every change of the registers that leaves the
    interrupt queue and the status alone, as the code of the operands does. -/
structure KeptByOperands (bus : DataBus σ) (R : Ctx σ → Ctx σ → Prop) : Prop where
  read : ∀ addr c, R c { c with bus := (bus.readByte addr c.bus).2 }
  write : ∀ addr byte c, R c { c with bus := bus.writeByte addr byte c.bus }
  registers : ∀ c cpu', cpu'.queue = c.cpu.queue → cpu'.p = c.cpu.p → R c { c with cpu := cpu' }

theorem KeptByCore.operands (h : KeptByCore bus R) : KeptByOperands bus R :=
  ⟨h.read, h.write, fun c cpu' hQueue _ => h.registers c cpu' hQueue⟩

theorem KeptByOperands.reads (h : KeptByOperands bus R) : KeptByReads bus R :=
  ⟨h.read, h.registers⟩

theorem KeptByOperands.pushes (h : KeptByOperands bus R) : KeptByPushes bus R :=
  ⟨h.reads, fun sp byte c => h.write (stackAddress sp) byte c⟩

theorem keeps_modifyCpu (h : KeptByRegisters R) {f : Cpu → Cpu} (hf : ∀ c, (f c).queue = c.queue) :
    Keeps R (modifyCpu f : CoreM σ Unit) :=
  fun c => h c (f c.cpu) (hf c.cpu)

theorem keeps_modifyRegisters (h : KeptByReads bus R) {f : Cpu → Cpu}
    (hQueue : ∀ c, (f c).queue = c.queue) (hStatus : ∀ c, (f c).p = c.p) :
    Keeps R (modifyCpu f : CoreM σ Unit) :=
  fun c => h.registers c (f c.cpu) (hQueue c.cpu) (hStatus c.cpu)

theorem keeps_readByte (h : KeptByReads bus R) (addr : Word) :
    Keeps R (mcs6502ReadByte bus addr) :=
  fun c => h.read addr c

theorem keeps_writeByte (h : KeptByOperands bus R) (addr : Word) (byte : Byte) :
    Keeps R (mcs6502WriteByte bus addr byte) :=
  fun c => h.write addr byte c

variable [Std.Refl R] [IsTrans (Ctx σ) R]

theorem keeps_getCpu : Keeps R (getCpu : CoreM σ Cpu) :=
  keeps_bind keeps_get fun _ => keeps_pure _

theorem keeps_pushByte (h : KeptByPushes bus R) (byte : Byte) :
    Keeps R (pushByte bus byte) :=
  keeps_bind keeps_getCpu fun c =>
    keeps_bind (fun c' => h.push c.sp byte c') fun _ =>
      keeps_modifyRegisters h.toKeptByReads (fun _ => rfl) fun _ => rfl

theorem keeps_pushFlags (h : KeptByPushes bus R) (b : Bool) :
    Keeps R (pushFlags bus b) :=
  keeps_bind keeps_getCpu fun _ => keeps_pushByte h _

theorem keeps_pullByte (h : KeptByReads bus R) : Keeps R (pullByte bus) :=
  keeps_bind (keeps_modifyRegisters h (fun _ => rfl) fun _ => rfl) fun _ =>
    keeps_bind keeps_getCpu fun _ => keeps_readByte h _

theorem keeps_readWord (h : KeptByReads bus R) (addr : Word) :
    Keeps R (readWordAtAddress bus addr) :=
  keeps_bind (keeps_readByte h _) fun _ =>
    keeps_bind (keeps_readByte h _) fun _ => keeps_pure _

theorem keeps_enterVector (h : KeptByPushes bus R) (hRegisters : KeptByRegisters R)
    (returnPC : Word) (b : Bool) (vector : Word) : Keeps R (enterVector bus returnPC b vector) :=
  keeps_bind (keeps_pushByte h _) fun _ =>
    keeps_bind (keeps_pushByte h _) fun _ =>
      keeps_bind (keeps_pushFlags h _) fun _ =>
        keeps_bind (keeps_modifyCpu hRegisters fun _ => rfl) fun _ =>
          keeps_bind (keeps_readWord h.toKeptByReads _) fun _ =>
            keeps_modifyCpu hRegisters fun _ => rfl

theorem keeps_effectiveOperandAddress (h : KeptByReads bus R) (i : Instruction) :
    Keeps R (effectiveOperandAddress bus i) := by
  unfold effectiveOperandAddress
  refine keeps_bind keeps_getCpu fun c => ?_
  cases i.mode
  all_goals
    repeat' with_reducible first
      | exact keeps_pure _
      | exact keeps_readByte h _
      | exact keeps_readWord h _
      | refine keeps_bind ?_ fun _ => ?_
      | refine keeps_ite ?_ ?_

theorem keeps_readOperandValue (h : KeptByReads bus R) (i : Instruction) :
    Keeps R (readOperandValue bus i) := by
  unfold readOperandValue
  cases i.mode
  all_goals
    repeat' with_reducible first
      | exact keeps_pure _
      | exact keeps_getCpu
      | exact keeps_modifyRegisters h (fun _ => rfl) fun _ => rfl
      | exact keeps_readByte h _
      | exact keeps_effectiveOperandAddress h _
      | refine keeps_bind ?_ fun _ => ?_
      | refine keeps_ite ?_ ?_

theorem keeps_writeResult (h : KeptByOperands bus R) (i : Instruction) (result : Byte) :
    Keeps R (writeResult bus i result) := by
  unfold writeResult
  cases i.mode
  all_goals
    with_reducible first
      | exact keeps_modifyRegisters h.reads (fun _ => rfl) fun _ => rfl
      | exact keeps_bind (keeps_effectiveOperandAddress h.reads _) fun _ => keeps_writeByte h _ _

theorem keeps_conditionalBranch (h : KeptByReads bus R) (i : Instruction) (c : Bool) :
    Keeps R (executeConditionalBranch bus i c) := by
  unfold executeConditionalBranch
  refine keeps_ite ?_ (keeps_modifyRegisters h (fun _ => rfl) fun _ => rfl)
  refine keeps_bind (keeps_effectiveOperandAddress h _) fun _ => ?_
  refine keeps_bind (keeps_modifyRegisters h (fun _ => rfl) fun _ => rfl) fun _ => ?_
  exact keeps_ite (keeps_modifyRegisters h (fun _ => rfl) fun _ => rfl) (keeps_pure _)

private theorem queue_adc (operand : Byte) (c : Cpu) :
    (if !c.isSet statusD then c.addBinary operand else c.addDecimal operand).queue =
      c.queue := by
  split <;> rfl

private theorem queue_sbc (operand : Byte) (c : Cpu) :
    (if !c.isSet statusD then c.addBinary (~~~operand) else c.subDecimal operand).queue =
      c.queue := by
  split <;> rfl

/-- Every mnemonic keeps `R` if its operand does, and what it stores. -/
theorem keeps_executeOp (h : KeptByPushes bus R) (hRegisters : KeptByRegisters R) (m : Mnemonic)
    {o : Operand σ} {branch : Bool → CoreM σ Unit} (hAddress : Keeps R o.address)
    (hRead : Keeps R o.read) (hWrite : m.writes = true → ∀ byte, Keeps R (o.write byte))
    (hStore : m.stores = true → ∀ addr byte, Keeps R (mcs6502WriteByte bus addr byte))
    (hBranch : ∀ c, Keeps R (branch c)) :
    Keeps R (executeOp bus m o branch) := by
  unfold executeOp
  cases m
  -- binary or decimal, `A` and the flags change only
  case adc =>
    refine keeps_bind hRead fun _ => ?_
    exact keeps_bind (keeps_modifyCpu hRegisters fun c => queue_adc _ c) fun _ => keeps_pure _
  case sbc =>
    refine keeps_bind hRead fun _ => ?_
    exact keeps_bind (keeps_modifyCpu hRegisters fun c => queue_sbc _ c) fun _ => keeps_pure _
  all_goals
    repeat' with_reducible first
      | exact keeps_pure _
      | exact keeps_getCpu
      | exact keeps_modifyCpu hRegisters fun _ => rfl
      | exact hRead
      | exact hAddress
      | exact hWrite rfl _
      | exact hBranch _
      | exact hStore rfl _ _
      | exact keeps_pushByte h _
      | exact keeps_pushFlags h _
      | exact keeps_pullByte h.toKeptByReads
      | exact keeps_enterVector h hRegisters _ _ _
      | refine keeps_bind ?_ fun _ => ?_

/-- An instruction keeps `R` if what it writes besides the stack does. -/
theorem keeps_execute_pushing (h : KeptByPushes bus R) (hRegisters : KeptByRegisters R)
    {i : Instruction} (hWrite : i.mnemonic.writes = true → ∀ byte, Keeps R (writeResult bus i byte))
    (hStore : i.mnemonic.stores = true → ∀ addr byte, Keeps R (mcs6502WriteByte bus addr byte)) :
    Keeps R (execute bus i) := by
  unfold execute
  have hReads := h.toKeptByReads
  have hAddress : Keeps R (operandOf bus i).address :=
    keeps_bind (keeps_effectiveOperandAddress hReads i) fun _ => keeps_pure _
  refine keeps_bind keeps_getCpu fun ⟨_, _, _, _, originalPC, _, _, _, _, _⟩ => ?_
  refine keeps_bind (keeps_executeOp h hRegisters _ hAddress (keeps_readOperandValue hReads i)
    hWrite hStore (keeps_conditionalBranch hReads i)) fun doNotUpdatePC => ?_
  have hEnd : Keeps R (do
      modifyCpu (Cpu.addTiming i.timing)
      return if originalPC == (← getCpu).pc then ExecResult.halting else .running) :=
    keeps_bind (keeps_modifyCpu hRegisters fun _ => rfl) fun _ =>
      keeps_bind keeps_getCpu fun _ => keeps_pure _
  exact keeps_ite (keeps_bind (keeps_modifyCpu hRegisters fun _ => rfl) fun _ => hEnd) hEnd

theorem keeps_execute (h : KeptByCore bus R) (i : Instruction) :
    Keeps R (execute bus i) :=
  keeps_execute_pushing h.operands.pushes h.registers
    (fun _ => keeps_writeResult h.operands i) fun _ => keeps_writeByte h.operands

theorem keeps_fetchExecute (h : KeptByCore bus R) : Keeps R (fetchExecute bus) := by
  unfold fetchExecute
  refine keeps_bind keeps_getCpu fun c => ?_
  refine keeps_bind (keeps_readByte h.operands.reads _) fun opcode => ?_
  cases opcodeTable opcode with
  | none => exact keeps_pure _
  | some i => exact keeps_execute h i

end Frame

/-! ## §2 Every access of the bus -/

section Access

variable {σ : Type} {bus : DataBus σ} {R : σ → σ → Prop}

/-- `R` on the bus, whatever the registers do. -/
def OnBus (R : σ → σ → Prop) (c c' : Ctx σ) : Prop := R c.bus c'.bus

instance [Std.Refl R] : Std.Refl (OnBus R) := ⟨fun c => Std.Refl.refl c.bus⟩

instance [IsTrans σ R] : IsTrans (Ctx σ) (OnBus R) :=
  ⟨fun a b c hab hbc => IsTrans.trans a.bus b.bus c.bus hab hbc⟩

/-- Every single access of the bus keeps `R`. -/
structure KeptByAccess (bus : DataBus σ) (R : σ → σ → Prop) : Prop where
  read : ∀ addr s, R s (bus.readByte addr s).2
  write : ∀ addr byte s, R s (bus.writeByte addr byte s)

variable [Std.Refl R]

theorem KeptByAccess.keptByCore (h : KeptByAccess bus R) : KeptByCore bus (OnBus R) where
  read addr c := h.read addr c.bus
  write addr byte c := h.write addr byte c.bus
  registers c _ _ := Std.Refl.refl c.bus

/-- On the bus the registers may change in any way, the queue too. -/
theorem keeps_modifyCpu_onBus (f : Cpu → Cpu) :
    Keeps (OnBus R) (modifyCpu f : CoreM σ Unit) :=
  keeps_modify fun c => Std.Refl.refl c.bus

/-- **Every step of the core keeps what every access keeps.** -/
theorem keeps_execNext [IsTrans σ R] (h : KeptByAccess bus R) : Keeps (OnBus R) (mcs6502ExecNext bus) := by
  have hEntry : ∀ (clear : Cpu → Cpu) (vector : Word), Keeps (OnBus R) (do
      modifyCpu clear
      enterVector bus (← getCpu).pc false vector
      modifyCpu fun c => { c with timingForLastOperation := 7 }) := fun clear vector =>
    keeps_bind (keeps_modifyCpu_onBus clear) fun _ =>
      keeps_bind keeps_getCpu fun _ =>
        keeps_bind (keeps_enterVector h.keptByCore.operands.pushes h.keptByCore.registers _ _ _)
          fun _ => keeps_modifyCpu_onBus _
  unfold mcs6502ExecNext
  refine keeps_bind (keeps_modifyCpu_onBus _) fun _ => ?_
  refine keeps_bind keeps_getCpu fun c => ?_
  refine keeps_ite (keeps_bind (hEntry _ _) fun _ => keeps_pure _) ?_
  exact keeps_ite (keeps_bind (hEntry _ _) fun _ => keeps_pure _)
    (keeps_fetchExecute h.keptByCore)

end Access

/-! ## §3 The interrupt queue -/

section Queue

variable {σ : Type} (bus : DataBus σ)

theorem mem_of_table {opcode : Byte} {i : Instruction} (h : opcodeTable opcode = some i) :
    i ∈ instructions :=
  List.mem_of_find?_eq_some h

/-- The fetch of an instruction of the table, and then its execution. -/
theorem fetchExecute_run {bus : DataBus σ} {c : Ctx σ} {i : Instruction}
    (h : opcodeTable (bus.readByte c.cpu.pc c.bus).1 = some i) :
    (fetchExecute bus).run c =
      (execute bus i).run ⟨c.cpu, (bus.readByte c.cpu.pc c.bus).2⟩ := by
  have hGet : (getCpu : CoreM σ Cpu).run c = (c.cpu, c) := rfl
  have hRead : (mcs6502ReadByte bus c.cpu.pc).run c =
      ((bus.readByte c.cpu.pc c.bus).1, ⟨c.cpu, (bus.readByte c.cpu.pc c.bus).2⟩) := rfl
  rw [fetchExecute, run_bind_eq hGet, run_bind_eq hRead, h]

/-- An opcode that is not in the table is fetched, and that is all. -/
theorem fetchExecute_invalid {bus : DataBus σ} {c : Ctx σ}
    (h : opcodeTable (bus.readByte c.cpu.pc c.bus).1 = none) :
    (fetchExecute bus).run c = (.invalidOperation, ⟨c.cpu, (bus.readByte c.cpu.pc c.bus).2⟩) := by
  have hGet : (getCpu : CoreM σ Cpu).run c = (c.cpu, c) := rfl
  have hRead : (mcs6502ReadByte bus c.cpu.pc).run c =
      ((bus.readByte c.cpu.pc c.bus).1, ⟨c.cpu, (bus.readByte c.cpu.pc c.bus).2⟩) := rfl
  rw [fetchExecute, run_bind_eq hGet, run_bind_eq hRead, h]
  rfl

/-- The interrupt queue has not changed. -/
def SameQueue (c c' : Ctx σ) : Prop := c'.cpu.queue = c.cpu.queue

instance : @Std.Refl (Ctx σ) SameQueue := ⟨fun _ => rfl⟩

instance : IsTrans (Ctx σ) SameQueue := ⟨fun _ _ _ hab hbc => Eq.trans hbc hab⟩

theorem keptByCore_sameQueue : KeptByCore bus SameQueue where
  read _ _ := rfl
  write _ _ _ := rfl
  registers _ _ h := h

/-- Entering a handler leaves the queue as clearing the request left it. -/
private theorem queue_entry (clear : Cpu → Cpu) (vector : Word) (c : Ctx σ) :
    ((do
      modifyCpu clear
      enterVector bus (← getCpu).pc false vector
      modifyCpu fun c => { c with timingForLastOperation := 7 } : CoreM σ Unit).run c).2.cpu.queue
        = (clear c.cpu).queue :=
  keeps_enterVector (keptByCore_sameQueue bus).operands.pushes (keptByCore_sameQueue bus).registers
    (clear c.cpu).pc false vector { c with cpu := clear c.cpu }

theorem handleIRQ_queue (c : Ctx σ) :
    ((handleIRQ bus).run c).2.cpu.queue =
      ({ c.cpu with irqPending := false } : Cpu).queue :=
  queue_entry bus (fun c => { c with irqPending := false }) irqVectorAddress c

theorem handleNMI_queue (c : Ctx σ) :
    ((handleNMI bus).run c).2.cpu.queue =
      ({ c.cpu with nmiPending := false } : Cpu).queue :=
  queue_entry bus (fun c => { c with nmiPending := false }) nmiVectorAddress c

/-- `MCS6502ExecNext` after its first statement. -/
theorem execNext_run (c : Ctx σ) :
    (mcs6502ExecNext bus).run c =
      (if c.cpu.nmiPending then do handleNMI bus; return .running
        else if c.cpu.irqPending then do handleIRQ bus; return .running
        else fetchExecute bus : CoreM σ ExecResult).run
        ⟨{ c.cpu with pendingTiming := 0, timingForLastOperation := 0 }, c.bus⟩ :=
  rfl

/-- **The queue after `MCS6502ExecNext`**: a queued interrupt has been taken, and nothing
    has been queued. -/
theorem execNext_queue (c : Ctx σ) :
    ((mcs6502ExecNext bus).run c).2.cpu.queue =
      ⟨0, c.cpu.irqPending && c.cpu.nmiPending, false⟩ := by
  rw [execNext_run]
  -- an NMI, an IRQ, or an instruction, which queues nothing
  by_cases hNmi : c.cpu.nmiPending = true
  · rw [if_pos hNmi, hNmi, Bool.and_true]
    exact handleNMI_queue bus _
  · rw [if_neg hNmi, Bool.eq_false_of_not_eq_true hNmi, Bool.and_false]
    by_cases hIrq : c.cpu.irqPending = true
    · rw [if_pos hIrq]
      refine (handleIRQ_queue bus _).trans ?_
      simp only [Cpu.queue, Bool.eq_false_of_not_eq_true hNmi]
    · rw [if_neg hIrq]
      refine (keeps_fetchExecute (keptByCore_sameQueue bus) _).trans ?_
      simp only [Cpu.queue, Bool.eq_false_of_not_eq_true hNmi, Bool.eq_false_of_not_eq_true hIrq]

end Queue

end Xv6502.Emulator
