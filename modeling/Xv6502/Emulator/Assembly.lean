import Xv6502.Emulator.Core

/-!
# Assembly Code

Straight pieces of assembly code as lists of instructions, executed by the core on any bus. The
operands are in place here, so that the code bytes themselves are not fetched; jumps, calls and
loops are left to the definitions that use the pieces.
-/

namespace Xv6502.Emulator

/-! ## §1 Operands and instructions -/

section Code

variable {σ : Type} (bus : DataBus σ)

/-- No operand. -/
def implied : Operand σ := ⟨pure 0, pure 0, fun _ => pure ()⟩

/-- An operand in the instruction. -/
def immediate (value : Byte) : Operand σ := ⟨pure 0, pure value, fun _ => pure ()⟩

/-- An operand in the memory, at an address that the instruction computes. -/
def memoryOperand (address : CoreM σ Word) : Operand σ where
  address := address
  read := do mcs6502ReadByte bus (← address)
  write byte := do mcs6502WriteByte bus (← address) byte

/-- An operand at a fixed address, in the zero page or elsewhere. -/
def absolute (addr : Word) : Operand σ := memoryOperand bus (pure addr)

/-- An operand at a fixed address and `x`. -/
def indexedX (base : Word) : Operand σ :=
  memoryOperand bus do return base + (← getCpu).x.setWidth 16

/-- An operand at the pointer in the zero page and `y`. -/
def indirectIndexedY (zp : Word) : Operand σ :=
  memoryOperand bus do return (← readWordAtAddress bus zp) + (← getCpu).y.setWidth 16

/-- An instruction with its operand in place. -/
abbrev Statement (σ : Type) := Mnemonic × Operand σ

/-- One instruction; there are no branches among them. -/
def exec (i : Statement σ) (c : Ctx σ) : Ctx σ :=
  ((executeOp bus i.1 i.2 fun _ => pure ()).run c).2

/-- A piece of code. -/
def execAll (code : List (Statement σ)) (c : Ctx σ) : Ctx σ := code.foldl (fun c i => exec bus i c) c

end Code

/-! ## §2 What the instructions do -/

section Instructions

variable {σ : Type} {bus : DataBus σ} {c : Ctx σ}

theorem execAll_cons (i : Statement σ) (code : List (Statement σ)) :
    execAll bus (i :: code) c = execAll bus code (exec bus i c) := rfl

theorem execAll_append (code code' : List (Statement σ)) :
    execAll bus (code ++ code') c = execAll bus code' (execAll bus code c) :=
  List.foldl_append

theorem exec_rti : exec bus (.rti, implied) c =
    let (p, s) := bus.readByte (stackAddress (c.cpu.sp + 1)) c.bus
    let (lo, s) := bus.readByte (stackAddress (c.cpu.sp + 1 + 1)) s
    let (hi, s) := bus.readByte (stackAddress (c.cpu.sp + 1 + 1 + 1)) s
    { cpu := { c.cpu with
        sp := c.cpu.sp + 1 + 1 + 1
        p := p &&& ~~~(0x20 ||| statusB)
        pc := wordOf lo hi }
      bus := s } := rfl

end Instructions

end Xv6502.Emulator
