import Xv6502.Emulator.CoreProjection

/-!
# The Accesses of an Instruction

A bus that writes down the address of every access it is asked for. The core cannot tell it from
the bus below (`loggedStep_forget`), so that its log is the list of the addresses an iteration of
the core puts on the bus: the opcode, the operands, the pointers, the data and the stack.
-/

namespace Xv6502.Emulator

open Xv6502.Lib

variable {σ : Type}

/-- The bus with a log of its accesses. -/
def DataBus.logged (bus : DataBus σ) : DataBus (σ × List Word) where
  readByte addr s := ((bus.readByte addr s.1).1, (bus.readByte addr s.1).2, s.2 ++ [addr])
  writeByte addr byte s := (bus.writeByte addr byte s.1, s.2 ++ [addr])

/-- The context without the log. -/
def Ctx.forget (c : Ctx (σ × List Word)) : Ctx σ := ⟨c.cpu, c.bus.1⟩

/-- The log is not looked at. -/
theorem busProjects_logged (bus : DataBus σ) : BusProjects Prod.fst bus.logged bus :=
  ⟨fun _ _ => rfl, fun _ _ _ => rfl⟩

/-- The core's step from a context, with the log. -/
def loggedStep (bus : DataBus σ) (c : Ctx σ) : Ctx (σ × List Word) :=
  ((mcs6502ExecNext bus.logged).run ⟨c.cpu, c.bus, []⟩).2

/-- The addresses that the core puts on the bus in its next step. -/
def accesses (bus : DataBus σ) (c : Ctx σ) : List Word := (loggedStep bus c).bus.2

theorem loggedStep_forget (bus : DataBus σ) (c : Ctx σ) :
    (loggedStep bus c).forget = ((mcs6502ExecNext bus).run c).2 :=
  (congrArg Prod.snd (projects_execNext (busProjects_logged bus) ⟨c.cpu, c.bus, []⟩)).symm

end Xv6502.Emulator
