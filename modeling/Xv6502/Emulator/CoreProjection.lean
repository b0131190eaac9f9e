import Xv6502.Emulator.CoreFrame

/-!
# The Core on Two Buses

The core looks at its bus through single bytes only. So if a bus answers every access as another
one does, seen through a function that forgets a part of its state, then the core cannot tell the
two apart: its whole next step is the same (`projects_execNext`).

The accesses of an instruction are found so, with a bus that writes them down, and so is the flat
memory that a user program sees behind the page table.
-/

namespace Xv6502.Emulator

open Xv6502.Lib

variable {τ σ : Type}

/-- The context with a function applied to the bus. -/
def Ctx.map (f : τ → σ) (c : Ctx τ) : Ctx σ := ⟨c.cpu, f c.bus⟩

/-- Seen through `f`, every access of the bus `rich` is the access of `bus`. -/
structure BusProjects (f : τ → σ) (rich : DataBus τ) (bus : DataBus σ) : Prop where
  read : ∀ addr t, bus.readByte addr (f t) = ((rich.readByte addr t).1, f (rich.readByte addr t).2)
  write : ∀ addr byte t, bus.writeByte addr byte (f t) = f (rich.writeByte addr byte t)

section Projections

variable {f : τ → σ} {rich : DataBus τ} {bus : DataBus σ}

theorem projects_modifyCpu (g : Cpu → Cpu) :
    Projects (Ctx.map f) (modifyCpu g : CoreM τ Unit) (modifyCpu g) :=
  fun _ => rfl

theorem projects_getCpu :
    Projects (Ctx.map f) (getCpu : CoreM τ Cpu) getCpu :=
  fun _ => rfl

theorem projects_readByte (h : BusProjects f rich bus) (addr : Word) :
    Projects (Ctx.map f) (mcs6502ReadByte rich addr) (mcs6502ReadByte bus addr) := by
  intro t
  show ((bus.readByte addr (f t.bus)).1, (⟨t.cpu, (bus.readByte addr (f t.bus)).2⟩ : Ctx σ)) = _
  rw [h.read]
  rfl

theorem projects_writeByte (h : BusProjects f rich bus) (addr : Word) (byte : Byte) :
    Projects (Ctx.map f) (mcs6502WriteByte rich addr byte) (mcs6502WriteByte bus addr byte) := by
  intro t
  show ((), (⟨t.cpu, bus.writeByte addr byte (f t.bus)⟩ : Ctx σ)) = _
  rw [h.write]
  rfl

theorem projects_pushByte (h : BusProjects f rich bus) (byte : Byte) :
    Projects (Ctx.map f) (pushByte rich byte) (pushByte bus byte) :=
  projects_bind projects_getCpu fun _ =>
    projects_bind (projects_writeByte h _ _) fun _ => projects_modifyCpu _

theorem projects_pushFlags (h : BusProjects f rich bus) (b : Bool) :
    Projects (Ctx.map f) (pushFlags rich b) (pushFlags bus b) :=
  projects_bind projects_getCpu fun _ => projects_pushByte h _

theorem projects_pullByte (h : BusProjects f rich bus) :
    Projects (Ctx.map f) (pullByte rich) (pullByte bus) :=
  projects_bind (projects_modifyCpu _) fun _ =>
    projects_bind projects_getCpu fun _ => projects_readByte h _

theorem projects_readWord (h : BusProjects f rich bus) (addr : Word) :
    Projects (Ctx.map f) (readWordAtAddress rich addr) (readWordAtAddress bus addr) :=
  projects_bind (projects_readByte h _) fun _ =>
    projects_bind (projects_readByte h _) fun _ => projects_pure _

theorem projects_enterVector (h : BusProjects f rich bus) (returnPC : Word) (b : Bool)
    (vector : Word) :
    Projects (Ctx.map f) (enterVector rich returnPC b vector)
      (enterVector bus returnPC b vector) :=
  projects_bind (projects_pushByte h _) fun _ =>
    projects_bind (projects_pushByte h _) fun _ =>
      projects_bind (projects_pushFlags h _) fun _ =>
        projects_bind (projects_modifyCpu _) fun _ =>
          projects_bind (projects_readWord h _) fun _ => projects_modifyCpu _

theorem projects_effectiveOperandAddress (h : BusProjects f rich bus) (i : Instruction) :
    Projects (Ctx.map f) (effectiveOperandAddress rich i) (effectiveOperandAddress bus i) := by
  unfold effectiveOperandAddress
  refine projects_bind projects_getCpu fun c => ?_
  cases i.mode
  all_goals
    repeat' with_reducible first
      | exact projects_pure _
      | exact projects_readByte h _
      | exact projects_readWord h _
      | refine projects_bind ?_ fun _ => ?_
      | refine projects_ite ?_ ?_

theorem projects_readOperandValue (h : BusProjects f rich bus) (i : Instruction) :
    Projects (Ctx.map f) (readOperandValue rich i) (readOperandValue bus i) := by
  unfold readOperandValue
  cases i.mode
  all_goals
    repeat' with_reducible first
      | exact projects_pure _
      | exact projects_getCpu
      | exact projects_modifyCpu _
      | exact projects_readByte h _
      | exact projects_effectiveOperandAddress h _
      | refine projects_bind ?_ fun _ => ?_
      | refine projects_ite ?_ ?_

theorem projects_writeResult (h : BusProjects f rich bus) (i : Instruction) (result : Byte) :
    Projects (Ctx.map f) (writeResult rich i result) (writeResult bus i result) := by
  unfold writeResult
  cases i.mode
  all_goals
    with_reducible first
      | exact projects_modifyCpu _
      | exact projects_bind (projects_effectiveOperandAddress h _) fun _ =>
          projects_writeByte h _ _

theorem projects_conditionalBranch (h : BusProjects f rich bus) (i : Instruction) (c : Bool) :
    Projects (Ctx.map f) (executeConditionalBranch rich i c)
      (executeConditionalBranch bus i c) := by
  unfold executeConditionalBranch
  refine projects_ite ?_ (projects_modifyCpu _)
  refine projects_bind (projects_effectiveOperandAddress h _) fun _ => ?_
  refine projects_bind (projects_modifyCpu _) fun _ => ?_
  exact projects_ite (projects_modifyCpu _) (projects_pure _)

/-- Every mnemonic projects if its operand does. -/
theorem projects_executeOp (h : BusProjects f rich bus) (m : Mnemonic) {o' : Operand τ}
    {o : Operand σ} {branch' : Bool → CoreM τ Unit} {branch : Bool → CoreM σ Unit}
    (hAddress : Projects (Ctx.map f) o'.address o.address)
    (hRead : Projects (Ctx.map f) o'.read o.read)
    (hWrite : ∀ byte, Projects (Ctx.map f) (o'.write byte) (o.write byte))
    (hBranch : ∀ c, Projects (Ctx.map f) (branch' c) (branch c)) :
    Projects (Ctx.map f) (executeOp rich m o' branch') (executeOp bus m o branch) := by
  -- every mnemonic is a sequence of accesses that project
  unfold executeOp
  cases m
  all_goals
    repeat' with_reducible first
      | exact projects_pure _
      | exact projects_getCpu
      | exact projects_modifyCpu _
      | exact hRead
      | exact hAddress
      | exact hWrite _
      | exact hBranch _
      | exact projects_writeByte h _ _
      | exact projects_pushByte h _
      | exact projects_pushFlags h _
      | exact projects_pullByte h
      | exact projects_enterVector h _ _ _
      | refine projects_bind ?_ fun _ => ?_

theorem projects_execute (h : BusProjects f rich bus) (i : Instruction) :
    Projects (Ctx.map f) (execute rich i) (execute bus i) := by
  unfold execute
  have hAddress : Projects (Ctx.map f) (operandOf rich i).address (operandOf bus i).address :=
    projects_bind (projects_effectiveOperandAddress h i) fun _ => projects_pure _
  refine projects_bind projects_getCpu fun ⟨_, _, _, _, originalPC, _, _, _, _, _⟩ => ?_
  refine projects_bind (projects_executeOp h _ hAddress (projects_readOperandValue h i)
    (projects_writeResult h i) (projects_conditionalBranch h i)) fun doNotUpdatePC => ?_
  have hEnd : Projects (Ctx.map f) (do
      modifyCpu (Cpu.addTiming i.timing)
      return if originalPC == (← getCpu).pc then ExecResult.halting else .running :
        CoreM τ ExecResult) (do
      modifyCpu (Cpu.addTiming i.timing)
      return if originalPC == (← getCpu).pc then ExecResult.halting else .running) :=
    projects_bind (projects_modifyCpu _) fun _ =>
      projects_bind projects_getCpu fun _ => projects_pure _
  exact projects_ite (projects_bind (projects_modifyCpu _) fun _ => hEnd) hEnd

theorem projects_fetchExecute (h : BusProjects f rich bus) :
    Projects (Ctx.map f) (fetchExecute rich) (fetchExecute bus) := by
  unfold fetchExecute
  refine projects_bind projects_getCpu fun c => ?_
  refine projects_bind (projects_readByte h _) fun opcode => ?_
  cases opcodeTable opcode with
  | none => exact projects_pure _
  | some i => exact projects_execute h i

/-- **The core does the same on both buses.** -/
theorem projects_execNext (h : BusProjects f rich bus) :
    Projects (Ctx.map f) (mcs6502ExecNext rich) (mcs6502ExecNext bus) := by
  have hEntry : ∀ (clear : Cpu → Cpu) (vector : Word), Projects (Ctx.map f) (do
      modifyCpu clear
      enterVector rich (← getCpu).pc false vector
      modifyCpu fun c => { c with timingForLastOperation := 7 }) (do
      modifyCpu clear
      enterVector bus (← getCpu).pc false vector
      modifyCpu fun c => { c with timingForLastOperation := 7 }) := fun clear vector =>
    projects_bind (projects_modifyCpu clear) fun _ =>
      projects_bind projects_getCpu fun _ =>
        projects_bind (projects_enterVector h _ _ _) fun _ => projects_modifyCpu _
  unfold mcs6502ExecNext
  refine projects_bind (projects_modifyCpu _) fun _ => ?_
  refine projects_bind projects_getCpu fun c => ?_
  refine projects_ite (projects_bind (hEntry _ _) fun _ => projects_pure _) ?_
  exact projects_ite (projects_bind (hEntry _ _) fun _ => projects_pure _)
    (projects_fetchExecute h)

end Projections

end Xv6502.Emulator
