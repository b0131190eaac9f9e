import Xv6502.Emulator.MemoryMap

/-!
# The MCS6502 Core

The third-party CPU core of the emulator (`machine/MCS6502.c`): its registers, its
instruction table, and `MCS6502ExecNext` with the interrupt entries. As in the source the
core knows the rest of the machine only through two bus functions and a context of
arbitrary type, here a `DataBus σ`.

The cases of the source's `switch` are grouped by mnemonic, which is how the instruction
table groups the opcodes: `execute` matches on the mnemonic of the decoded entry.
-/

namespace Xv6502.Emulator

/-! ## §1 Registers and bus -/

/-- `MCS6502ExecutionContext`, less the bus. -/
structure Cpu where
  a : Byte
  x : Byte
  y : Byte
  sp : Byte
  pc : Word
  p : Byte
  pendingTiming : Nat
  timingForLastOperation : Nat
  irqPending : Bool
  nmiPending : Bool
  deriving DecidableEq, Repr

/-- The two bus functions given to `MCS6502Init`, over the read/write context `σ`. A read
    may change the context as well: devices and the MMU notice it. -/
structure DataBus (σ : Type) where
  readByte : Word → σ → Byte × σ
  writeByte : Word → Byte → σ → σ

/-- The core together with what is on its bus. -/
structure Ctx (σ : Type) where
  cpu : Cpu
  bus : σ

/-- Code of the core: a program over the registers and the bus. -/
abbrev CoreM (σ : Type) := StateM (Ctx σ)

/-- `MCS6502_STATUS_N`. -/
def statusN : Byte := 0x80
/-- `MCS6502_STATUS_V`. -/
def statusV : Byte := 0x40
/-- `MCS6502_STATUS_B`. -/
def statusB : Byte := 0x10
/-- `MCS6502_STATUS_D`. -/
def statusD : Byte := 0x08
/-- `MCS6502_STATUS_I`. -/
def statusI : Byte := 0x04
/-- `MCS6502_STATUS_Z`. -/
def statusZ : Byte := 0x02
/-- `MCS6502_STATUS_C`. -/
def statusC : Byte := 0x01

/-- `MCS6502_NMI`: where the NMI vector is read. -/
def nmiVectorAddress : Word := 0xfffa
/-- `MCS6502_IRQ_BRK`: where the IRQ and BRK vector is read. -/
def irqVectorAddress : Word := 0xfffe

/-- `MCS6502ExecResult`. -/
inductive ExecResult where
  | running
  | halting
  | invalidOperation
  deriving DecidableEq, Repr

/-! ## §2 Instructions -/

/-- `MCS6502AddressingMode`. -/
inductive AddressingMode where
  | implied
  | accumulator
  | immediate
  | zeroPage
  | zeroPageX
  | zeroPageY
  | absolute
  | absoluteX
  | absoluteY
  | indirect
  | xIndirect
  | indirectY
  | relative
  deriving DecidableEq, Repr

/-- The mnemonics of the instruction table. -/
inductive Mnemonic where
  | adc | and | asl | bcc | bcs | beq | bit | bmi | bne | bpl | brk | bvc | bvs | clc
  | cld | cli | clv | cmp | cpx | cpy | dec | dex | dey | eor | inc | inx | iny | jmp
  | jsr | lda | ldx | ldy | lsr | nop | ora | pha | php | pla | plp | rol | ror | rti
  | rts | sbc | sec | sed | sei | sta | stx | sty | tax | tay | tsx | txa | txs | tya
  deriving DecidableEq, Repr

/-- `MCS6502Instruction`. -/
structure Instruction where
  opcode : Byte
  mnemonic : Mnemonic
  mode : AddressingMode
  timing : Nat
  timingAddOne : Bool
  deriving DecidableEq, Repr

/-- `MCS6502Instructions`. -/
def instructions : List Instruction := [
  ⟨0x69, .adc, .immediate, 2, false⟩, ⟨0x65, .adc, .zeroPage, 3, false⟩,
  ⟨0x75, .adc, .zeroPageX, 4, false⟩, ⟨0x6D, .adc, .absolute, 4, false⟩,
  ⟨0x7D, .adc, .absoluteX, 4, true⟩, ⟨0x79, .adc, .absoluteY, 4, true⟩,
  ⟨0x61, .adc, .xIndirect, 6, false⟩, ⟨0x71, .adc, .indirectY, 5, true⟩,
  ⟨0x29, .and, .immediate, 2, false⟩, ⟨0x25, .and, .zeroPage, 3, false⟩,
  ⟨0x35, .and, .zeroPageX, 4, false⟩, ⟨0x2D, .and, .absolute, 4, false⟩,
  ⟨0x3D, .and, .absoluteX, 4, true⟩, ⟨0x39, .and, .absoluteY, 4, true⟩,
  ⟨0x21, .and, .xIndirect, 6, false⟩, ⟨0x31, .and, .indirectY, 5, true⟩,
  ⟨0x0A, .asl, .accumulator, 2, false⟩, ⟨0x06, .asl, .zeroPage, 5, false⟩,
  ⟨0x16, .asl, .zeroPageX, 6, false⟩, ⟨0x0E, .asl, .absolute, 6, false⟩,
  ⟨0x1E, .asl, .absoluteX, 7, false⟩,
  ⟨0x90, .bcc, .relative, 0, true⟩, ⟨0xB0, .bcs, .relative, 0, true⟩,
  ⟨0xF0, .beq, .relative, 0, true⟩,
  ⟨0x24, .bit, .zeroPage, 3, false⟩, ⟨0x2C, .bit, .absolute, 4, false⟩,
  ⟨0x30, .bmi, .relative, 0, true⟩, ⟨0xD0, .bne, .relative, 0, true⟩,
  ⟨0x10, .bpl, .relative, 0, true⟩, ⟨0x00, .brk, .implied, 7, false⟩,
  ⟨0x50, .bvc, .relative, 0, true⟩, ⟨0x70, .bvs, .relative, 0, true⟩,
  ⟨0x18, .clc, .implied, 2, false⟩, ⟨0xD8, .cld, .implied, 2, false⟩,
  ⟨0x58, .cli, .implied, 2, false⟩, ⟨0xB8, .clv, .implied, 2, false⟩,
  ⟨0xC9, .cmp, .immediate, 2, false⟩, ⟨0xC5, .cmp, .zeroPage, 3, false⟩,
  ⟨0xD5, .cmp, .zeroPageX, 4, false⟩, ⟨0xCD, .cmp, .absolute, 4, false⟩,
  ⟨0xDD, .cmp, .absoluteX, 4, true⟩, ⟨0xD9, .cmp, .absoluteY, 4, true⟩,
  ⟨0xC1, .cmp, .xIndirect, 6, false⟩, ⟨0xD1, .cmp, .indirectY, 5, true⟩,
  ⟨0xE0, .cpx, .immediate, 2, false⟩, ⟨0xE4, .cpx, .zeroPage, 3, false⟩,
  ⟨0xEC, .cpx, .absolute, 4, false⟩,
  ⟨0xC0, .cpy, .immediate, 3, false⟩, ⟨0xC4, .cpy, .zeroPage, 3, false⟩,
  ⟨0xCC, .cpy, .absolute, 4, false⟩,
  ⟨0xC6, .dec, .zeroPage, 5, false⟩, ⟨0xD6, .dec, .zeroPageX, 6, false⟩,
  ⟨0xCE, .dec, .absolute, 6, false⟩, ⟨0xDE, .dec, .absoluteX, 7, false⟩,
  ⟨0xCA, .dex, .implied, 2, false⟩, ⟨0x88, .dey, .implied, 2, false⟩,
  ⟨0x49, .eor, .immediate, 2, false⟩, ⟨0x45, .eor, .zeroPage, 3, false⟩,
  ⟨0x55, .eor, .zeroPageX, 4, false⟩, ⟨0x4D, .eor, .absolute, 4, false⟩,
  ⟨0x5D, .eor, .absoluteX, 4, true⟩, ⟨0x59, .eor, .absoluteY, 4, true⟩,
  ⟨0x41, .eor, .xIndirect, 6, false⟩, ⟨0x51, .eor, .indirectY, 5, true⟩,
  ⟨0xE6, .inc, .zeroPage, 5, false⟩, ⟨0xF6, .inc, .zeroPageX, 6, false⟩,
  ⟨0xEE, .inc, .absolute, 6, false⟩, ⟨0xFE, .inc, .absoluteX, 7, false⟩,
  ⟨0xE8, .inx, .implied, 2, false⟩, ⟨0xC8, .iny, .implied, 2, false⟩,
  ⟨0x4C, .jmp, .absolute, 3, false⟩, ⟨0x6C, .jmp, .indirect, 5, false⟩,
  ⟨0x20, .jsr, .absolute, 6, false⟩,
  ⟨0xA9, .lda, .immediate, 2, false⟩, ⟨0xA5, .lda, .zeroPage, 3, false⟩,
  ⟨0xB5, .lda, .zeroPageX, 4, false⟩, ⟨0xAD, .lda, .absolute, 4, false⟩,
  ⟨0xBD, .lda, .absoluteX, 4, true⟩, ⟨0xB9, .lda, .absoluteY, 4, true⟩,
  ⟨0xA1, .lda, .xIndirect, 6, false⟩, ⟨0xB1, .lda, .indirectY, 5, true⟩,
  ⟨0xA2, .ldx, .immediate, 2, false⟩, ⟨0xA6, .ldx, .zeroPage, 3, false⟩,
  ⟨0xB6, .ldx, .zeroPageY, 4, false⟩, ⟨0xAE, .ldx, .absolute, 4, false⟩,
  ⟨0xBE, .ldx, .absoluteY, 4, true⟩,
  ⟨0xA0, .ldy, .immediate, 2, false⟩, ⟨0xA4, .ldy, .zeroPage, 3, false⟩,
  ⟨0xB4, .ldy, .zeroPageX, 4, false⟩, ⟨0xAC, .ldy, .absolute, 4, false⟩,
  ⟨0xBC, .ldy, .absoluteX, 4, true⟩,
  ⟨0x4A, .lsr, .accumulator, 2, false⟩, ⟨0x46, .lsr, .zeroPage, 5, false⟩,
  ⟨0x56, .lsr, .zeroPageX, 6, false⟩, ⟨0x4E, .lsr, .absolute, 6, false⟩,
  ⟨0x5E, .lsr, .absoluteX, 7, false⟩, ⟨0xEA, .nop, .implied, 2, false⟩,
  ⟨0x09, .ora, .immediate, 2, false⟩, ⟨0x05, .ora, .zeroPage, 3, false⟩,
  ⟨0x15, .ora, .zeroPageX, 4, false⟩, ⟨0x0D, .ora, .absolute, 4, false⟩,
  ⟨0x1D, .ora, .absoluteX, 4, true⟩, ⟨0x19, .ora, .absoluteY, 4, true⟩,
  ⟨0x01, .ora, .xIndirect, 6, false⟩, ⟨0x11, .ora, .indirectY, 5, true⟩,
  ⟨0x48, .pha, .implied, 3, false⟩, ⟨0x08, .php, .implied, 3, false⟩,
  ⟨0x68, .pla, .implied, 4, false⟩, ⟨0x28, .plp, .implied, 4, false⟩,
  ⟨0x2A, .rol, .accumulator, 2, false⟩, ⟨0x26, .rol, .zeroPage, 5, false⟩,
  ⟨0x36, .rol, .zeroPageX, 6, false⟩, ⟨0x2E, .rol, .absolute, 6, false⟩,
  ⟨0x3E, .rol, .absoluteX, 7, false⟩,
  ⟨0x6A, .ror, .accumulator, 2, false⟩, ⟨0x66, .ror, .zeroPage, 5, false⟩,
  ⟨0x76, .ror, .zeroPageX, 6, false⟩, ⟨0x6E, .ror, .absolute, 6, false⟩,
  ⟨0x7E, .ror, .absoluteX, 7, false⟩,
  ⟨0x40, .rti, .implied, 6, false⟩, ⟨0x60, .rts, .implied, 6, false⟩,
  ⟨0xE9, .sbc, .immediate, 2, false⟩, ⟨0xE5, .sbc, .zeroPage, 3, false⟩,
  ⟨0xF5, .sbc, .zeroPageX, 4, false⟩, ⟨0xED, .sbc, .absolute, 4, false⟩,
  ⟨0xFD, .sbc, .absoluteX, 4, true⟩, ⟨0xF9, .sbc, .absoluteY, 4, true⟩,
  ⟨0xE1, .sbc, .xIndirect, 6, false⟩, ⟨0xF1, .sbc, .indirectY, 5, true⟩,
  ⟨0x38, .sec, .implied, 2, false⟩, ⟨0xF8, .sed, .implied, 2, false⟩,
  ⟨0x78, .sei, .implied, 2, false⟩,
  ⟨0x85, .sta, .zeroPage, 3, false⟩, ⟨0x95, .sta, .zeroPageX, 4, false⟩,
  ⟨0x8D, .sta, .absolute, 4, false⟩, ⟨0x9D, .sta, .absoluteX, 5, false⟩,
  ⟨0x99, .sta, .absoluteY, 5, false⟩, ⟨0x81, .sta, .xIndirect, 6, false⟩,
  ⟨0x91, .sta, .indirectY, 6, false⟩,
  ⟨0x86, .stx, .zeroPage, 3, false⟩, ⟨0x96, .stx, .zeroPageY, 4, false⟩,
  ⟨0x8E, .stx, .absolute, 4, false⟩,
  ⟨0x84, .sty, .zeroPage, 3, false⟩, ⟨0x94, .sty, .zeroPageX, 4, false⟩,
  ⟨0x8C, .sty, .absolute, 4, false⟩,
  ⟨0xAA, .tax, .implied, 2, false⟩, ⟨0xA8, .tay, .implied, 2, false⟩,
  ⟨0xBA, .tsx, .implied, 2, false⟩, ⟨0x8A, .txa, .implied, 2, false⟩,
  ⟨0x9A, .txs, .implied, 2, false⟩, ⟨0x98, .tya, .implied, 2, false⟩]

/-- `MCS6502OpcodeTable[opcode]`: `none` for an unoccupied slot. -/
def opcodeTable (opcode : Byte) : Option Instruction :=
  instructions.find? fun i => i.opcode == opcode

/-- `LengthForInstruction`. -/
def lengthForInstruction (i : Instruction) : Word :=
  match i.mode with
  | .implied | .accumulator => 1
  | .immediate | .zeroPage | .zeroPageX | .zeroPageY | .xIndirect | .indirectY
  | .relative => 2
  | .absolute | .absoluteX | .absoluteY | .indirect => 3

/-! ## §3 Flags and bus accesses -/

section Bus

variable {σ : Type}

/-- Change the registers. -/
def modifyCpu (f : Cpu → Cpu) : CoreM σ Unit :=
  modify fun c => { c with cpu := f c.cpu }

/-- The registers. -/
def getCpu : CoreM σ Cpu := do
  return (← get).cpu

/-- `CTXP_ISSET`. -/
def Cpu.isSet (c : Cpu) (f : Byte) : Bool := c.p &&& f != 0

/-- `CTXP_SET` or `CTXP_CLEAR`, by `b`. -/
def Cpu.setFlag (f : Byte) (b : Bool) (c : Cpu) : Cpu :=
  { c with p := if b then c.p ||| f else c.p &&& ~~~f }

/-- `UpdateZero` then `UpdateNegative`. -/
def Cpu.updateZeroNegative (val : Byte) (c : Cpu) : Cpu :=
  (c.setFlag statusZ (val == 0)).setFlag statusN (val &&& 0x80 != 0)

/-- Count cycles towards `timingForLastOperation`. -/
def Cpu.addTiming (n : Nat) (c : Cpu) : Cpu :=
  { c with timingForLastOperation := c.timingForLastOperation + n }

variable (bus : DataBus σ)

/-- `MCS6502ReadByte`. -/
def mcs6502ReadByte (addr : Word) : CoreM σ Byte :=
  modifyGet fun c =>
    let (byte, s) := bus.readByte addr c.bus
    (byte, { c with bus := s })

/-- `MCS6502WriteByte`. -/
def mcs6502WriteByte (addr : Word) (byte : Byte) : CoreM σ Unit :=
  modify fun c => { c with bus := bus.writeByte addr byte c.bus }

/-- The address of the stack byte at `sp`. -/
def stackAddress (sp : Byte) : Word := 0x0100 + sp.setWidth 16

/-- `PushByte`. -/
def pushByte (byte : Byte) : CoreM σ Unit := do
  mcs6502WriteByte bus (stackAddress (← getCpu).sp) byte
  modifyCpu fun c => { c with sp := c.sp - 1 }

/-- The status byte as `PushFlags` pushes it. -/
def pushedFlags (b : Bool) (p : Byte) : Byte :=
  if b then (p ||| 0x20) ||| statusB else (p ||| 0x20) &&& ~~~statusB

/-- `PushFlags`. -/
def pushFlags (b : Bool) : CoreM σ Unit := do
  pushByte bus (pushedFlags b (← getCpu).p)

/-- `PullByte`. -/
def pullByte : CoreM σ Byte := do
  modifyCpu fun c => { c with sp := c.sp + 1 }
  mcs6502ReadByte bus (stackAddress (← getCpu).sp)

/-- The word of a low and a high byte. -/
def wordOf (lo hi : Byte) : Word := hi.setWidth 16 <<< 8 ||| lo.setWidth 16

/-- The low byte of a word. -/
def lowByte (w : Word) : Byte := w.setWidth 8

/-- The high byte of a word. -/
def highByte (w : Word) : Byte := (w >>> 8).setWidth 8

/-- `ReadWordAtAddress`. -/
def readWordAtAddress (addr : Word) : CoreM σ Word := do
  let veclo ← mcs6502ReadByte bus addr
  let vechi ← mcs6502ReadByte bus (addr + 1)
  return wordOf veclo vechi

/-! ## §4 Interrupt entries -/

/-- The body shared by `HandleIRQ`, `HandleNMI` and `BRK`: push a return address and the
    status, mask interrupts and load the program counter from a vector. -/
def enterVector (returnPC : Word) (b : Bool) (vector : Word) : CoreM σ Unit := do
  pushByte bus (highByte returnPC)
  pushByte bus (lowByte returnPC)
  pushFlags bus b
  modifyCpu (Cpu.setFlag statusI true)
  let target ← readWordAtAddress bus vector
  modifyCpu fun c => { c with pc := target }

/-- `HandleIRQ`. -/
def handleIRQ : CoreM σ Unit := do
  modifyCpu fun c => { c with irqPending := false }
  enterVector bus (← getCpu).pc false irqVectorAddress
  modifyCpu fun c => { c with timingForLastOperation := 7 }

/-- `HandleNMI`. -/
def handleNMI : CoreM σ Unit := do
  modifyCpu fun c => { c with nmiPending := false }
  enterVector bus (← getCpu).pc false nmiVectorAddress
  modifyCpu fun c => { c with timingForLastOperation := 7 }

/-- `MCS6502IRQ`: ignored while masked, queued while an operation is pending. -/
def mcs6502IRQ : CoreM σ Unit := do
  let c ← getCpu
  if c.isSet statusI then
    return ()
  else if c.pendingTiming > 0 then
    modifyCpu fun c => { c with irqPending := true }
  else do
    handleIRQ bus
    modifyCpu fun c => { c with pendingTiming := c.timingForLastOperation }

/-- `MCS6502NMI`: queued while an operation is pending. -/
def mcs6502NMI : CoreM σ Unit := do
  if (← getCpu).pendingTiming > 0 then
    modifyCpu fun c => { c with nmiPending := true }
  else do
    handleNMI bus
    modifyCpu fun c => { c with pendingTiming := c.timingForLastOperation }

/-! ## §5 Operands -/

/-- `ADDRESSES_ON_DIFFERENT_PAGES`. -/
def onDifferentPages (addr₁ addr₂ : Word) : Bool :=
  addr₁ &&& 0xFF00 != addr₂ &&& 0xFF00

/-- `EffectiveOperandAddressForInstruction`, with `crossesPageBoundary` (left `false` by the
    modes that do not set it). -/
def effectiveOperandAddress (i : Instruction) : CoreM σ (Word × Bool) := do
  let c ← getCpu
  match i.mode with
  | .zeroPage => return ((← mcs6502ReadByte bus (c.pc + 1)).setWidth 16, false)
  | .zeroPageX => return (((← mcs6502ReadByte bus (c.pc + 1)) + c.x).setWidth 16, false)
  | .zeroPageY => return (((← mcs6502ReadByte bus (c.pc + 1)) + c.y).setWidth 16, false)
  | .absolute => return (← readWordAtAddress bus (c.pc + 1), false)
  | .absoluteX =>
    let baseAddr ← readWordAtAddress bus (c.pc + 1)
    let finalAddr := baseAddr + c.x.setWidth 16
    return (finalAddr, onDifferentPages baseAddr finalAddr)
  | .absoluteY =>
    let baseAddr ← readWordAtAddress bus (c.pc + 1)
    let finalAddr := baseAddr + c.y.setWidth 16
    return (finalAddr, onDifferentPages baseAddr finalAddr)
  | .indirect =>
    let loIndirect ← mcs6502ReadByte bus (c.pc + 1)
    let hiIndirect ← mcs6502ReadByte bus (c.pc + 2)
    let lo ← mcs6502ReadByte bus (wordOf loIndirect hiIndirect)
    -- no carry into the high byte: the second fetch wraps inside its page
    let hi ← if loIndirect == 0xFF then mcs6502ReadByte bus (wordOf 0 hiIndirect)
      else mcs6502ReadByte bus (wordOf loIndirect hiIndirect + 1)
    return (wordOf lo hi, false)
  | .xIndirect =>
    let addr := c.x + (← mcs6502ReadByte bus (c.pc + 1))
    return (← readWordAtAddress bus (addr.setWidth 16), false)
  | .indirectY =>
    let baseAddr ← mcs6502ReadByte bus (c.pc + 1)
    let finalAddr := (← readWordAtAddress bus (baseAddr.setWidth 16)) + c.y.setWidth 16
    return (finalAddr, onDifferentPages (baseAddr.setWidth 16) finalAddr)
  | .relative =>
    let offset ← mcs6502ReadByte bus (c.pc + 1)
    let addr := c.pc + 2 + offset.signExtend 16
    return (addr, onDifferentPages addr c.pc)
  | .immediate | .accumulator | .implied => return (0, false)

/-- How the code of a mnemonic reaches its operand. -/
structure Operand (σ : Type) where
  address : CoreM σ Word
  read : CoreM σ Byte
  write : Byte → CoreM σ Unit

/-- `ReadOperandValueForCurrentInstruction`. -/
def readOperandValue (i : Instruction) : CoreM σ Byte := do
  match i.mode with
  | .immediate => mcs6502ReadByte bus ((← getCpu).pc + 1)
  | .accumulator => return (← getCpu).a
  | _ =>
    let (addr, crossesPageBoundary) ← effectiveOperandAddress bus i
    if crossesPageBoundary && i.timingAddOne then modifyCpu (Cpu.addTiming 1)
    mcs6502ReadByte bus addr

/-- `WriteResultForCurrentInstruction`: it computes the effective address again. -/
def writeResult (i : Instruction) (result : Byte) : CoreM σ Unit := do
  match i.mode with
  | .accumulator => modifyCpu fun c => { c with a := result }
  | _ => mcs6502WriteByte bus (← effectiveOperandAddress bus i).1 result

/-- The operand of a decoded instruction. -/
def operandOf (i : Instruction) : Operand σ where
  address := do return (← effectiveOperandAddress bus i).1
  read := readOperandValue bus i
  write := writeResult bus i

/-- `ExecuteConditionalBranch`. -/
def executeConditionalBranch (i : Instruction) (condition : Bool) : CoreM σ Unit := do
  if condition then
    let (target, crossesPageBoundary) ← effectiveOperandAddress bus i
    modifyCpu fun c => ({ c with pc := target } : Cpu).addTiming 3
    if i.timingAddOne && crossesPageBoundary then modifyCpu (Cpu.addTiming 1)
  else
    modifyCpu fun c => ({ c with pc := c.pc + lengthForInstruction i } : Cpu).addTiming 2

end Bus

/-! ## §6 Arithmetic -/

/-- `BCDFromInteger`. -/
def bcdFromInteger (integer : Int) : Byte :=
  if 0 ≤ integer ∧ integer < 100 then
    BitVec.ofNat 8 (integer.toNat / 10) <<< 4 ||| BitVec.ofNat 8 (integer.toNat % 10)
  else 0

/-- `IntegerFromBCD`: the input is not checked to be BCD. -/
def integerFromBCD (bcd : Byte) : Int :=
  ((bcd &&& 0xF0) >>> 4).toNat * 10 + (bcd &&& 0x0F).toNat

/-- The carry flag as a number. -/
def Cpu.carry (c : Cpu) : Nat := if c.isSet statusC then 1 else 0

/-- Binary addition with carry to the accumulator, as `ADC` does it and as `SBC` does it
    with the complemented operand. -/
def Cpu.addBinary (operand : Byte) (c : Cpu) : Cpu :=
  let sum := c.a.toNat + operand.toNat + c.carry
  let vres := c.a.toInt + operand.toInt + c.carry
  let result := BitVec.ofNat 8 sum
  ((({ c with a := result } : Cpu).setFlag statusC (sum > 0xFF)).updateZeroNegative
    result).setFlag statusV (vres > 127 || vres < -128)

/-- The decimal branch of `ADC`. -/
def Cpu.addDecimal (operand : Byte) (c : Cpu) : Cpu :=
  let sum := integerFromBCD operand + integerFromBCD c.a + c.carry
  let result := bcdFromInteger (if sum > 99 then sum - 100 else sum)
  (({ c with a := result } : Cpu).setFlag statusC (sum > 99)).updateZeroNegative result

/-- The decimal branch of `SBC`. -/
def Cpu.subDecimal (operand : Byte) (c : Cpu) : Cpu :=
  let difference := integerFromBCD c.a - integerFromBCD operand - (1 - c.carry : Int)
  let result := bcdFromInteger (if difference < 0 then difference + 100 else difference)
  (({ c with a := result } : Cpu).setFlag statusC (difference ≥ 0)).updateZeroNegative result

/-- `CMP`, `CPX` and `CPY`, by the register compared. -/
def Cpu.compare (register operand : Byte) (c : Cpu) : Cpu :=
  (c.setFlag statusC (operand ≤ register)).updateZeroNegative (register - operand)

/-! ## §7 Execution -/

section Execute

variable {σ : Type} (bus : DataBus σ)

/-- The code of each mnemonic over its operand, with `branch` for the conditional branches.
    The result is `doNotUpdatePC`. -/
def executeOp (m : Mnemonic) (o : Operand σ) (branch : Bool → CoreM σ Unit) :
    CoreM σ Bool := do
  match m with
  | .adc =>
    let operand ← o.read
    modifyCpu fun c =>
      if !c.isSet statusD then c.addBinary operand else c.addDecimal operand
    return false
  | .and =>
    let operand ← o.read
    modifyCpu fun c => ({ c with a := c.a &&& operand } : Cpu).updateZeroNegative (c.a &&& operand)
    return false
  | .asl =>
    let val ← o.read
    modifyCpu fun c => (c.setFlag statusC (val &&& 0x80 != 0)).updateZeroNegative (val <<< 1)
    o.write (val <<< 1)
    return false
  | .bcc => branch (!(← getCpu).isSet statusC); return true
  | .bcs => branch ((← getCpu).isSet statusC); return true
  | .beq => branch ((← getCpu).isSet statusZ); return true
  | .bit =>
    let operand ← o.read
    modifyCpu fun c =>
      ((c.setFlag statusN (operand &&& 0x80 != 0)).setFlag statusZ (c.a &&& operand == 0)).setFlag
        statusV (operand &&& 0x40 != 0)
    return false
  | .bmi => branch ((← getCpu).isSet statusN); return true
  | .bne => branch (!(← getCpu).isSet statusZ); return true
  | .bpl => branch (!(← getCpu).isSet statusN); return true
  | .brk =>
    -- BRK can replace a two byte instruction: RTI returns behind it
    enterVector bus ((← getCpu).pc + 2) true irqVectorAddress
    return true
  | .bvc => branch (!(← getCpu).isSet statusV); return true
  | .bvs => branch ((← getCpu).isSet statusV); return true
  | .clc => modifyCpu (Cpu.setFlag statusC false); return false
  | .cld => modifyCpu (Cpu.setFlag statusD false); return false
  | .cli => modifyCpu (Cpu.setFlag statusI false); return false
  | .clv => modifyCpu (Cpu.setFlag statusV false); return false
  | .cmp =>
    let operand ← o.read
    modifyCpu fun c => c.compare c.a operand
    return false
  | .cpx =>
    let operand ← o.read
    modifyCpu fun c => c.compare c.x operand
    return false
  | .cpy =>
    let operand ← o.read
    modifyCpu fun c => c.compare c.y operand
    return false
  | .dec =>
    let val ← o.read
    o.write (val - 1)
    modifyCpu (Cpu.updateZeroNegative (val - 1))
    return false
  | .dex =>
    modifyCpu fun c => ({ c with x := c.x - 1 } : Cpu).updateZeroNegative (c.x - 1)
    return false
  | .dey =>
    modifyCpu fun c => ({ c with y := c.y - 1 } : Cpu).updateZeroNegative (c.y - 1)
    return false
  | .eor =>
    let operand ← o.read
    modifyCpu fun c => ({ c with a := c.a ^^^ operand } : Cpu).updateZeroNegative (c.a ^^^ operand)
    return false
  | .inc =>
    let value ← o.read
    o.write (value + 1)
    modifyCpu (Cpu.updateZeroNegative (value + 1))
    return false
  | .inx =>
    modifyCpu fun c => ({ c with x := c.x + 1 } : Cpu).updateZeroNegative (c.x + 1)
    return false
  | .iny =>
    modifyCpu fun c => ({ c with y := c.y + 1 } : Cpu).updateZeroNegative (c.y + 1)
    return false
  | .jmp =>
    let target ← o.address
    modifyCpu fun c => { c with pc := target }
    return true
  | .jsr =>
    let destAddr ← o.address
    let returnAddr := (← getCpu).pc + 2
    pushByte bus (highByte returnAddr)
    pushByte bus (lowByte returnAddr)
    modifyCpu fun c => { c with pc := destAddr }
    return true
  | .lda =>
    let operand ← o.read
    modifyCpu fun c => ({ c with a := operand } : Cpu).updateZeroNegative operand
    return false
  | .ldx =>
    let operand ← o.read
    modifyCpu fun c => ({ c with x := operand } : Cpu).updateZeroNegative operand
    return false
  | .ldy =>
    let operand ← o.read
    modifyCpu fun c => ({ c with y := operand } : Cpu).updateZeroNegative operand
    return false
  | .lsr =>
    let val ← o.read
    modifyCpu fun c =>
      ((c.setFlag statusC (val &&& 0x01 != 0)).setFlag statusZ (val >>> 1 == 0)).setFlag
        statusN false
    o.write (val >>> 1)
    return false
  | .nop => return false
  | .ora =>
    let operand ← o.read
    modifyCpu fun c => ({ c with a := c.a ||| operand } : Cpu).updateZeroNegative (c.a ||| operand)
    return false
  | .pha => pushByte bus (← getCpu).a; return false
  | .php => pushFlags bus true; return false
  | .pla =>
    let val ← pullByte bus
    modifyCpu fun c => ({ c with a := val } : Cpu).updateZeroNegative val
    return false
  | .plp =>
    let p ← pullByte bus
    modifyCpu fun c => { c with p := p &&& ~~~(0x20 ||| statusB) }
    return false
  | .rol =>
    let val ← o.read
    let initialCarry := (← getCpu).isSet statusC
    let result := val <<< 1 ||| (if initialCarry then 1 else 0)
    modifyCpu (Cpu.setFlag statusC (val &&& 0x80 != 0))
    o.write result
    modifyCpu (Cpu.updateZeroNegative result)
    return false
  | .ror =>
    let val ← o.read
    let initialCarry := (← getCpu).isSet statusC
    let result := val >>> 1 ||| (if initialCarry then 0x80 else 0)
    modifyCpu (Cpu.setFlag statusC (val &&& 0x01 != 0))
    o.write result
    modifyCpu (Cpu.updateZeroNegative result)
    return false
  | .rti =>
    let p ← pullByte bus
    modifyCpu fun c => { c with p := p &&& ~~~(0x20 ||| statusB) }
    let lo ← pullByte bus
    let hi ← pullByte bus
    modifyCpu fun c => { c with pc := wordOf lo hi }
    return true
  | .rts =>
    let lo ← pullByte bus
    let hi ← pullByte bus
    modifyCpu fun c => { c with pc := wordOf lo hi + 1 }
    return true
  | .sbc =>
    let operand ← o.read
    modifyCpu fun c =>
      if !c.isSet statusD then c.addBinary (~~~operand) else c.subDecimal operand
    return false
  | .sec => modifyCpu (Cpu.setFlag statusC true); return false
  | .sed => modifyCpu (Cpu.setFlag statusD true); return false
  | .sei => modifyCpu (Cpu.setFlag statusI true); return false
  | .sta =>
    let addr ← o.address
    mcs6502WriteByte bus addr (← getCpu).a
    return false
  | .stx =>
    let addr ← o.address
    mcs6502WriteByte bus addr (← getCpu).x
    return false
  | .sty =>
    let addr ← o.address
    mcs6502WriteByte bus addr (← getCpu).y
    return false
  | .tax =>
    modifyCpu fun c => ({ c with x := c.a } : Cpu).updateZeroNegative c.a
    return false
  | .tay =>
    modifyCpu fun c => ({ c with y := c.a } : Cpu).updateZeroNegative c.a
    return false
  | .tsx =>
    modifyCpu fun c => ({ c with x := c.sp } : Cpu).updateZeroNegative c.sp
    return false
  | .txa =>
    modifyCpu fun c => ({ c with a := c.x } : Cpu).updateZeroNegative c.x
    return false
  | .txs => modifyCpu fun c => { c with sp := c.x }; return false
  | .tya =>
    modifyCpu fun c => ({ c with a := c.y } : Cpu).updateZeroNegative c.y
    return false

/-- Decode and execute an instruction that has been fetched. -/
def execute (i : Instruction) : CoreM σ ExecResult := do
  let originalPC := (← getCpu).pc
  let doNotUpdatePC ← executeOp bus i.mnemonic (operandOf bus i) (executeConditionalBranch bus i)
  if !doNotUpdatePC then
    modifyCpu fun c => { c with pc := c.pc + lengthForInstruction i }
  modifyCpu (Cpu.addTiming i.timing)
  return if originalPC == (← getCpu).pc then .halting else .running

/-- The opcode fetch of `MCS6502ExecNext` and what follows from it. -/
def fetchExecute : CoreM σ ExecResult := do
  match opcodeTable (← mcs6502ReadByte bus (← getCpu).pc) with
  | none => return .invalidOperation
  | some i => execute bus i

/-- `MCS6502ExecNext`: a queued interrupt goes first, the NMI before the IRQ. -/
def mcs6502ExecNext : CoreM σ ExecResult := do
  modifyCpu fun c => { c with pendingTiming := 0, timingForLastOperation := 0 }
  let c ← getCpu
  -- what has been queued goes first, and no instruction is executed in its place
  if c.nmiPending then
    handleNMI bus
    return .running
  else if c.irqPending then
    handleIRQ bus
    return .running
  else
    fetchExecute bus

end Execute

end Xv6502.Emulator
