import Xv6502.Emulator.Assembly
import Xv6502.Emulator.CoreFrame
import Xv6502.Emulator.VectorEntry
import Xv6502.Lib.Lockstep

/-!
# Code in Memory

The assembly code of the kernel is written with the operands in place and with labels to branch
to. The core has the bytes only: it fetches an opcode, looks it up, and fetches the operand from
behind it, for some instructions twice. Here is shown that it executes what has been written, line
by line (`core_executes_code`): on any bus, with devices or without, as long as the bytes of the
code are read back as they are and nothing that a line does changes them.
-/

namespace Xv6502.Emulator

open Xv6502.Lib

variable {σ : Type}

/-! ## §1 Lines -/

/-- The instructions that go on with the next one and enter no vector. -/
def Mnemonic.straight : Mnemonic → Bool
  | .bcc | .bcs | .beq | .bmi | .bne | .bpl | .bvc | .bvs => false
  | .brk | .jmp | .jsr | .rti | .rts => false
  | _ => true

/-- When a conditional branch is taken. -/
def Mnemonic.takes (d : Cpu) : Mnemonic → Option Bool
  | .bcc => some (!d.isSet statusC)
  | .bcs => some (d.isSet statusC)
  | .beq => some (d.isSet statusZ)
  | .bmi => some (d.isSet statusN)
  | .bne => some (!d.isSet statusZ)
  | .bpl => some (!d.isSet statusN)
  | .bvc => some (!d.isSet statusV)
  | .bvs => some (d.isSet statusV)
  | _ => none

/-- The conditional branches. -/
def Mnemonic.conditional : Mnemonic → Bool
  | .bcc | .bcs | .beq | .bmi | .bne | .bpl | .bvc | .bvs => true
  | _ => false

/-- A line of code: an entry of the instruction table, with a number or with the label of a line. -/
inductive Line where
  | op (i : Instruction) (operand : Word)
  | branch (i : Instruction) (label : Nat)
  deriving DecidableEq

/-- The instruction of a line. -/
def Line.instruction : Line → Instruction
  | .op i _ => i
  | .branch i _ => i

/-- The operand of an instruction in place, as the addressing mode reads the number. -/
def operandIn (bus : DataBus σ) (mode : AddressingMode) (operand : Word) : Operand σ :=
  let zeroPage : Word := (lowByte operand).setWidth 16
  match mode with
  | .implied | .relative => implied
  | .accumulator => ⟨pure 0, do return (← getCpu).a, fun byte => modifyCpu fun d => { d with a := byte }⟩
  | .immediate => immediate (lowByte operand)
  | .zeroPage => absolute bus zeroPage
  | .zeroPageX => memoryOperand bus do return (lowByte operand + (← getCpu).x).setWidth 16
  | .zeroPageY => memoryOperand bus do return (lowByte operand + (← getCpu).y).setWidth 16
  | .absolute => absolute bus operand
  | .absoluteX => indexedX bus operand
  | .absoluteY => memoryOperand bus do return operand + (← getCpu).y.setWidth 16
  | .indirect => implied
  | .xIndirect =>
    memoryOperand bus do readWordAtAddress bus (((← getCpu).x + lowByte operand).setWidth 16)
  | .indirectY => indirectIndexedY bus zeroPage

/-- What a line does besides going on. -/
def Line.execute (bus : DataBus σ) : Line → Ctx σ → Ctx σ
  | .op i operand => exec bus (i.mnemonic, operandIn bus i.mode operand)
  | .branch _ _ => id

/-- The line that comes next. -/
def Line.next (line : Nat) (d : Cpu) : Line → Nat
  | .op _ _ => line + 1
  | .branch i label => if i.mnemonic.takes d = some true then label else line + 1

/-- Where a run of the code has got to. -/
structure Place (σ : Type) where
  line : Nat
  ctx : Ctx σ

/-- One line is executed; there is nothing to execute behind the last one. -/
def stepLine (bus : DataBus σ) (code : List Line) (s : Place σ) : Option (Place σ) :=
  code[s.line]?.map fun l => ⟨l.next s.line s.ctx.cpu, l.execute bus s.ctx⟩

/-- A number of lines. -/
def runLines (bus : DataBus σ) (code : List Line) : Nat → Place σ → Option (Place σ)
  | 0, s => some s
  | n + 1, s => (stepLine bus code s).bind (runLines bus code n)

/-! ## §2 Bytes -/

/-- Where a line lies, from the first byte of the code. -/
def offsetOfLine (code : List Line) (line : Nat) : Nat :=
  ((code.take line).map fun l => (lengthForInstruction l.instruction).toNat).sum

/-- The operand bytes hold this number: a branch holds how far it is from its end to the label. -/
def Line.number (code : List Line) (line : Nat) : Line → Word
  | .op _ operand => operand
  | .branch _ label =>
    BitVec.ofNat 16 (offsetOfLine code label) - (BitVec.ofNat 16 (offsetOfLine code line) + 2)

/-- The bytes of a line. -/
def Line.bytes (code : List Line) (line : Nat) (l : Line) : List Byte :=
  [l.instruction.opcode, lowByte (l.number code line), highByte (l.number code line)].take
    (lengthForInstruction l.instruction).toNat

/-- The bytes of some lines, the first of which has this number. -/
def assembleFrom (code : List Line) : Nat → List Line → List Byte
  | _, [] => []
  | line, l :: ls => l.bytes code line ++ assembleFrom code (line + 1) ls

/-- The bytes of a piece of code. -/
def assemble (code : List Line) : List Byte := assembleFrom code 0 code

/-- The bytes are read back at `base` as long as `I` holds, and no read ends that. -/
structure Reads (bus : DataBus σ) (I : σ → Prop) (base : Word) (bytes : List Byte) : Prop where
  fetch : ∀ j byte s, bytes[j]? = some byte → I s →
    bus.readByte (base + BitVec.ofNat 16 j) s = (byte, s)
  reads : ∀ addr s, I s → I (bus.readByte addr s).2

/-- A line that the core can execute: its instruction is in the table and goes on with the next
    line, or it is a branch to a label that is near enough. -/
def Line.Ok (code : List Line) (line : Nat) (l : Line) : Prop :=
  opcodeTable l.instruction.opcode = some l.instruction ∧
    match l with
    | .op i _ => i.mnemonic.straight = true
    | .branch i _ => i.mode = .relative ∧ i.mnemonic.conditional = true ∧
        (lowByte (l.number code line)).signExtend 16 = l.number code line

/-- The bytes at `base` are those of the line, as long as `I` holds. -/
structure LineAt (bus : DataBus σ) (I : σ → Prop) (base : Word) (i : Instruction) (number : Word) :
    Prop where
  opcode : ∀ s, I s → bus.readByte base s = (i.opcode, s)
  low : 2 ≤ lengthForInstruction i → ∀ s, I s → bus.readByte (base + 1) s = (lowByte number, s)
  high : 3 ≤ lengthForInstruction i → ∀ s, I s → bus.readByte (base + 2) s = (highByte number, s)
  reads : ∀ addr s, I s → I (bus.readByte addr s).2

/-! ## §3 The core beside the line -/

/-- The registers that code computes with. -/
structure Work where
  a : Byte
  x : Byte
  y : Byte
  sp : Byte
  p : Byte

/-- The other registers of the core. -/
structure Clock where
  pc : Word
  pendingTiming : Nat
  timingForLastOperation : Nat
  irqPending : Bool
  nmiPending : Bool

def Cpu.work (d : Cpu) : Work := ⟨d.a, d.x, d.y, d.sp, d.p⟩

def Cpu.clock (d : Cpu) : Clock :=
  ⟨d.pc, d.pendingTiming, d.timingForLastOperation, d.irqPending, d.nmiPending⟩

/-- The core with these registers. -/
abbrev Cpu.ofWork (w : Work) (k : Clock) : Cpu :=
  ⟨w.a, w.x, w.y, w.sp, k.pc, w.p, k.pendingTiming, k.timingForLastOperation, k.irqPending,
    k.nmiPending⟩

/-- The core computes with the same registers on the same bus, its program counter and its interrupt
    queue are these, and the bus can be relied on in `I`. -/
structure Beside (I : σ → Prop) (pc : Word) (queue : InterruptQueue) (c c' : Ctx σ) : Prop where
  work : c.cpu.work = c'.cpu.work
  bus : c.bus = c'.bus
  pc : c.cpu.pc = pc
  queue : c.cpu.queue = queue
  code : I c.bus

/-- The same without any reliance on the bus. -/
abbrev Along (pc : Word) (queue : InterruptQueue) (c c' : Ctx σ) : Prop :=
  Beside (fun _ => True) pc queue c c'

section Programs

variable {bus : DataBus σ} {I : σ → Prop} {base : Word} {queue : InterruptQueue} {i : Instruction}
  {number : Word}

theorem Beside.along {c c' : Ctx σ} (h : Beside I base queue c c') : Along base queue c c' :=
  ⟨h.work, h.bus, h.pc, h.queue, trivial⟩

theorem beside_modifyCpu {f : Cpu → Cpu}
    (hWork : ∀ w k k', (f (.ofWork w k)).work = (f (.ofWork w k')).work)
    (hPc : ∀ d, (f d).pc = d.pc) (hQueue : ∀ d, (f d).queue = d.queue) :
    Relates (Beside I base queue) Eq (Beside I base queue) (modifyCpu f : CoreM σ Unit)
      (modifyCpu f) := by
  intro c c' h
  refine ⟨rfl, ?_, h.bus, (hPc _).trans h.pc, (hQueue _).trans h.queue, h.code⟩
  show (f c.cpu).work = (f c'.cpu).work
  have hSame := hWork c.cpu.work c.cpu.clock c'.cpu.clock
  rwa [show Cpu.ofWork c.cpu.work c'.cpu.clock = c'.cpu by rw [h.work]; rfl] at hSame

/-- The core counts the time it takes. -/
theorem beside_timing {f : Cpu → Cpu} (hWork : ∀ d, (f d).work = d.work)
    (hPc : ∀ d, (f d).pc = d.pc) (hQueue : ∀ d, (f d).queue = d.queue) :
    Relates (Beside I base queue) (fun _ _ => True) (Beside I base queue)
      (modifyCpu f : CoreM σ Unit) (pure ()) := by
  intro c c' h
  exact ⟨trivial, (hWork _).trans h.work, h.bus, (hPc _).trans h.pc, (hQueue _).trans h.queue, h.code⟩

/-- Both look at the registers. -/
theorem beside_getCpu {β β' : Type} {good : β → β' → Prop} {R : Ctx σ → Ctx σ → Prop}
    {next : Cpu → CoreM σ β} {next' : Cpu → CoreM σ β'}
    (hNext : ∀ w k k', k.pc = base →
      Relates (Beside I base queue) good R (next (.ofWork w k)) (next' (.ofWork w k'))) :
    Relates (Beside I base queue) good R (getCpu >>= next) (getCpu >>= next') := by
  intro c c' h
  have hSame := hNext c.cpu.work c.cpu.clock c'.cpu.clock h.pc c c' h
  rwa [show Cpu.ofWork c.cpu.work c'.cpu.clock = c'.cpu by rw [h.work]; rfl] at hSame

/-- The core alone looks at its registers. -/
theorem beside_getCpu_left {β β' : Type} {good : β → β' → Prop} {R : Ctx σ → Ctx σ → Prop}
    {next : Cpu → CoreM σ β} {prog' : CoreM σ β'}
    (hNext : ∀ d, d.pc = base → Relates (Beside I base queue) good R (next d) prog') :
    Relates (Beside I base queue) good R (getCpu >>= next) prog' := by
  intro c c' h
  exact hNext c.cpu h.pc c c' h

theorem beside_readByte (hReads : ∀ addr s, I s → I (bus.readByte addr s).2) (addr : Word) :
    Relates (Beside I base queue) Eq (Beside I base queue) (mcs6502ReadByte bus addr)
      (mcs6502ReadByte bus addr) := by
  intro c c' h
  refine ⟨?_, h.work, ?_, h.pc, h.queue, hReads addr _ h.code⟩
  · show (bus.readByte addr c.bus).1 = (bus.readByte addr c'.bus).1
    rw [h.bus]
  · show (bus.readByte addr c.bus).2 = (bus.readByte addr c'.bus).2
    rw [h.bus]

/-- Behind a store nothing of the line is fetched any more. -/
theorem beside_writeByte (addr : Word) (byte : Byte) :
    Relates (Beside I base queue) Eq (Along base queue) (mcs6502WriteByte bus addr byte)
      (mcs6502WriteByte bus addr byte) := by
  intro c c' h
  refine ⟨rfl, h.work, ?_, h.pc, h.queue, trivial⟩
  show bus.writeByte addr byte c.bus = bus.writeByte addr byte c'.bus
  rw [h.bus]

/-- The core fetches a byte of the line. -/
theorem beside_fetch {addr : Word} {byte : Byte}
    (hFetch : ∀ s, I s → bus.readByte addr s = (byte, s)) :
    Relates (Beside I base queue) (fun a (_ : Unit) => a = byte) (Beside I base queue)
      (mcs6502ReadByte bus addr) (pure ()) := by
  intro c c' h
  have hRead := hFetch c.bus h.code
  refine ⟨?_, h.work, ?_, h.pc, h.queue, ?_⟩
  · show (bus.readByte addr c.bus).1 = byte
    rw [hRead]
  · show (bus.readByte addr c.bus).2 = c'.bus
    rw [hRead]
    exact h.bus
  · show I (bus.readByte addr c.bus).2
    rw [hRead]
    exact h.code

theorem beside_readWord (hReads : ∀ addr s, I s → I (bus.readByte addr s).2) (addr : Word) :
    Relates (Beside I base queue) Eq (Beside I base queue) (readWordAtAddress bus addr)
      (readWordAtAddress bus addr) :=
  relates_bind_eq (beside_readByte hReads _) fun _ =>
    relates_bind_eq (beside_readByte hReads _) fun _ => relates_pure rfl

/-! ## §4 Operands -/

/-- The core fetches the byte behind the opcode and goes on. -/
theorem LineAt.fetch_low {β β' : Type} {good : β → β' → Prop} {R : Ctx σ → Ctx σ → Prop}
    {prog' : CoreM σ β'} {next : Byte → CoreM σ β} (h : LineAt bus I base i number)
    (hLength : 2 ≤ lengthForInstruction i)
    (hNext : Relates (Beside I base queue) good R (next (lowByte number)) prog') :
    Relates (Beside I base queue) good R (mcs6502ReadByte bus (base + 1) >>= next) prog' := by
  apply relates_left (beside_fetch (h.low hLength))
  rintro _ rfl
  exact hNext

/-- The core fetches the two bytes behind the opcode and goes on. -/
theorem LineAt.fetch_word {β β' : Type} {good : β → β' → Prop} {R : Ctx σ → Ctx σ → Prop}
    {prog' : CoreM σ β'} {next : Word → CoreM σ β} (h : LineAt bus I base i number)
    (hLength : 3 ≤ lengthForInstruction i)
    (hNext : Relates (Beside I base queue) good R (next number) prog') :
    Relates (Beside I base queue) good R (readWordAtAddress bus (base + 1) >>= next) prog' := by
  have hHigh : ∀ s, I s → bus.readByte (base + 1 + 1) s = (highByte number, s) := by
    rw [BitVec.add_assoc]
    exact h.high hLength
  have hLow : 2 ≤ lengthForInstruction i := by
    have hLe : (2 : Word) ≤ 3 := by decide
    exact BitVec.le_trans hLe hLength
  unfold readWordAtAddress
  rw [bind_assoc]
  apply h.fetch_low hLow
  rw [bind_assoc]
  apply relates_left (beside_fetch hHigh)
  rintro _ rfl
  rw [pure_bind, wordOf_low_high]
  exact hNext

/-- The core computes the address that the operand names, with a note on the page. -/
theorem beside_effective (h : LineAt bus I base i number) (hMode : i.mode.inMemory = true) :
    Relates (Beside I base queue) (fun a a' => a.1 = a') (Beside I base queue)
      (effectiveOperandAddress bus i) (operandIn bus i.mode number).address := by
  obtain ⟨opcode, mnemonic, mode, timing, addOne⟩ := i
  unfold effectiveOperandAddress
  cases mode
  case zeroPage =>
    refine beside_getCpu_left fun d hd => ?_
    rw [hd]
    exact h.fetch_low (Nat.le_refl 2) (relates_pure rfl)
  case zeroPageX =>
    refine beside_getCpu fun w k k' hk => ?_
    dsimp only
    rw [hk]
    exact h.fetch_low (Nat.le_refl 2) (relates_pure rfl)
  case zeroPageY =>
    refine beside_getCpu fun w k k' hk => ?_
    dsimp only
    rw [hk]
    exact h.fetch_low (Nat.le_refl 2) (relates_pure rfl)
  case absolute =>
    refine beside_getCpu_left fun d hd => ?_
    rw [hd]
    exact h.fetch_word (Nat.le_refl 3) (relates_pure rfl)
  case absoluteX =>
    refine beside_getCpu fun w k k' hk => ?_
    dsimp only
    rw [hk]
    exact h.fetch_word (Nat.le_refl 3) (relates_pure rfl)
  case absoluteY =>
    refine beside_getCpu fun w k k' hk => ?_
    dsimp only
    rw [hk]
    exact h.fetch_word (Nat.le_refl 3) (relates_pure rfl)
  case xIndirect =>
    refine beside_getCpu fun w k k' hk => ?_
    dsimp only
    rw [hk]
    refine h.fetch_low (Nat.le_refl 2) ?_
    rw [← bind_pure (readWordAtAddress bus _)]
    refine relates_bind_eq (beside_readWord h.reads _) fun addr => relates_pure rfl
  case indirectY =>
    -- the core looks at `y` first
    show Relates _ _ _ _ (getCpu >>= fun d =>
      readWordAtAddress bus ((lowByte number).setWidth 16) >>= fun addr =>
        pure (addr + d.y.setWidth 16))
    refine beside_getCpu fun w k k' hk => ?_
    dsimp only
    rw [hk]
    refine h.fetch_low (Nat.le_refl 2) ?_
    refine relates_bind_eq (beside_readWord h.reads _) fun addr => relates_pure rfl
  all_goals cases hMode

/-- What an instruction that uses its operand may do with it, by the mode. -/
def AddressingMode.readable (mode : AddressingMode) : Bool :=
  mode.inMemory || mode == .immediate || mode == .accumulator

theorem beside_operand_address (h : LineAt bus I base i number) (hMode : i.mode.inMemory = true) :
    Relates (Beside I base queue) Eq (Beside I base queue) (operandOf bus i).address
      (operandIn bus i.mode number).address := by
  show Relates _ _ _ (effectiveOperandAddress bus i >>= fun a => pure a.1) _
  rw [← bind_pure (operandIn bus i.mode number).address]
  refine relates_bind (beside_effective h hMode) ?_
  rintro ⟨addr, crosses⟩ _ rfl
  exact relates_pure rfl

theorem read_of_inMemory {mode : AddressingMode} (hMode : mode.inMemory = true) :
    (operandIn bus mode number).read =
      (do mcs6502ReadByte bus (← (operandIn bus mode number).address)) := by
  cases mode
  all_goals first
    | rfl
    | cases hMode

theorem write_of_inMemory {mode : AddressingMode} (hMode : mode.inMemory = true) (byte : Byte) :
    (operandIn bus mode number).write byte =
      (do mcs6502WriteByte bus (← (operandIn bus mode number).address) byte) := by
  cases mode
  all_goals first
    | rfl
    | cases hMode

/-- `ReadOperandValueForCurrentInstruction`. -/
theorem beside_operand_read (h : LineAt bus I base i number) (hMode : i.mode.readable = true) :
    Relates (Beside I base queue) Eq (Beside I base queue) (operandOf bus i).read
      (operandIn bus i.mode number).read := by
  by_cases hMemory : i.mode.inMemory = true
  -- the operand is in memory: its address comes from the instruction, its value from there
  · have hRead : readOperandValue bus i = effectiveOperandAddress bus i >>= fun a =>
        if a.2 && i.timingAddOne then do
          modifyCpu (Cpu.addTiming 1)
          mcs6502ReadByte bus a.1
        else mcs6502ReadByte bus a.1 := by
      unfold readOperandValue
      split
      · next hEq =>
        rw [hEq] at hMemory
        cases hMemory
      · next hEq =>
        rw [hEq] at hMemory
        cases hMemory
      · rfl
    show Relates _ _ _ (readOperandValue bus i) _
    rw [hRead, read_of_inMemory hMemory]
    refine relates_bind (beside_effective h hMemory) ?_
    rintro ⟨addr, crosses⟩ _ rfl
    dsimp only
    split
    · refine relates_left (beside_timing (fun _ => rfl) (fun _ => rfl) fun _ => rfl) fun _ _ => ?_
      exact beside_readByte h.reads addr
    · exact beside_readByte h.reads addr
  · show Relates _ _ _ (readOperandValue bus i) _
    obtain ⟨opcode, mnemonic, mode, timing, addOne⟩ := i
    unfold readOperandValue
    cases mode
    -- the operand is the byte behind the opcode itself
    case immediate =>
      refine beside_getCpu_left fun d hd => ?_
      rw [hd, ← bind_pure (mcs6502ReadByte bus (base + 1))]
      exact h.fetch_low (Nat.le_refl 2) (relates_pure rfl)
    case accumulator => exact beside_getCpu fun w k k' hk => relates_pure rfl
    all_goals first
      | exact absurd rfl hMemory
      | cases hMode

/-- `WriteResultForCurrentInstruction`. -/
theorem beside_operand_write (h : LineAt bus I base i number)
    (hMode : i.mode.inMemory = true ∨ i.mode = .accumulator) (byte : Byte) :
    Relates (Beside I base queue) Eq (Along base queue) ((operandOf bus i).write byte)
      ((operandIn bus i.mode number).write byte) := by
  show Relates _ _ _ (writeResult bus i byte) _
  rcases hMode with hMemory | hAccumulator
  -- an operand in memory is written where it would be read
  · have hWrite : writeResult bus i byte = (do
        mcs6502WriteByte bus (← effectiveOperandAddress bus i).1 byte) := by
      unfold writeResult
      split
      · next hEq =>
        rw [hEq] at hMemory
        cases hMemory
      · rfl
    rw [hWrite, write_of_inMemory hMemory]
    refine relates_bind (beside_effective h hMemory) ?_
    rintro ⟨addr, crosses⟩ _ rfl
    exact beside_writeByte addr byte
  · unfold writeResult
    rw [hAccumulator]
    exact Relates.weaken (beside_modifyCpu (fun _ _ _ => rfl) (fun _ => rfl) fun _ => rfl)
      fun _ _ => Beside.along

/-! ## §5 Instructions -/

/-- The instructions that read their operand. -/
def Mnemonic.reads : Mnemonic → Bool
  | .adc | .and | .asl | .bit | .cmp | .cpx | .cpy | .dec | .eor | .inc => true
  | .lda | .ldx | .ldy | .lsr | .ora | .rol | .ror | .sbc => true
  | _ => false

theorem beside_along {β β' : Type} {good : β → β' → Prop} {prog : CoreM σ β} {prog' : CoreM σ β'}
    (h : Relates (Beside I base queue) good (Beside I base queue) prog prog') :
    Relates (Beside I base queue) good (Along base queue) prog prog' :=
  h.weaken fun _ _ => Beside.along

theorem beside_pushByte (byte : Byte) :
    Relates (Beside I base queue) Eq (Along base queue) (pushByte bus byte) (pushByte bus byte) :=
  beside_getCpu fun _ _ _ _ => relates_bind_eq (beside_writeByte _ _) fun _ =>
    beside_modifyCpu (fun _ _ _ => rfl) (fun _ => rfl) fun _ => rfl

theorem beside_pushFlags (b : Bool) :
    Relates (Beside I base queue) Eq (Along base queue) (pushFlags bus b) (pushFlags bus b) :=
  beside_getCpu fun _ _ _ _ => beside_pushByte _

theorem beside_pullByte (hReads : ∀ addr s, I s → I (bus.readByte addr s).2) :
    Relates (Beside I base queue) Eq (Beside I base queue) (pullByte bus) (pullByte bus) :=
  relates_bind_eq (beside_modifyCpu (fun _ _ _ => rfl) (fun _ => rfl) fun _ => rfl) fun _ =>
    beside_getCpu fun _ _ _ _ => beside_readByte hReads _

theorem beside_done : Relates (Beside I base queue) Eq (Along base queue)
    (pure false : CoreM σ Bool) (pure false) :=
  beside_along (relates_pure rfl)

private theorem work_adc (operand : Byte) (w : Work) (k k' : Clock) :
    ((fun d : Cpu => if !d.isSet statusD then d.addBinary operand else d.addDecimal operand)
      (.ofWork w k)).work =
    ((fun d : Cpu => if !d.isSet statusD then d.addBinary operand else d.addDecimal operand)
      (.ofWork w k')).work := by
  have hMode : (Cpu.ofWork w k).isSet statusD = (Cpu.ofWork w k').isSet statusD := rfl
  dsimp only
  rw [hMode]
  split <;> rfl

private theorem work_sbc (operand : Byte) (w : Work) (k k' : Clock) :
    ((fun d : Cpu => if !d.isSet statusD then d.addBinary (~~~operand) else d.subDecimal operand)
      (.ofWork w k)).work =
    ((fun d : Cpu => if !d.isSet statusD then d.addBinary (~~~operand) else d.subDecimal operand)
      (.ofWork w k')).work := by
  have hMode : (Cpu.ofWork w k).isSet statusD = (Cpu.ofWork w k').isSet statusD := rfl
  dsimp only
  rw [hMode]
  split <;> rfl

/-- **The code of a mnemonic** does the same with the operand fetched and with the operand in
    place. -/
theorem beside_executeOp (hReads : ∀ addr s, I s → I (bus.readByte addr s).2) (m : Mnemonic)
    (hStraight : m.straight = true) {o o' : Operand σ} {branch branch' : Bool → CoreM σ Unit}
    (hAddress : m.stores = true → Relates (Beside I base queue) Eq (Beside I base queue)
      o.address o'.address)
    (hRead : m.reads = true → Relates (Beside I base queue) Eq (Beside I base queue) o.read o'.read)
    (hWrite : m.writes = true → ∀ byte, Relates (Beside I base queue) Eq (Along base queue)
      (o.write byte) (o'.write byte)) :
    Relates (Beside I base queue) Eq (Along base queue) (executeOp bus m o branch)
      (executeOp bus m o' branch') := by
  -- each mnemonic is made of the accesses that are related above; the four with a choice in them
  -- are written out
  unfold executeOp
  cases m
  case adc =>
    refine relates_bind_eq (hRead rfl) fun operand => ?_
    refine relates_bind_eq (beside_modifyCpu (work_adc operand) ?_ ?_) fun _ => beside_done
    all_goals
      intro d
      split <;> rfl
  case sbc =>
    refine relates_bind_eq (hRead rfl) fun operand => ?_
    refine relates_bind_eq (beside_modifyCpu (work_sbc operand) ?_ ?_) fun _ => beside_done
    all_goals
      intro d
      split <;> rfl
  case rol =>
    refine relates_bind_eq (hRead rfl) fun val => beside_getCpu fun w k k' hk => ?_
    refine relates_bind_eq (beside_modifyCpu (fun _ _ _ => rfl) (fun _ => rfl) fun _ => rfl)
      fun _ => ?_
    refine relates_bind_eq (hWrite rfl _) fun _ => ?_
    exact relates_bind_eq (beside_modifyCpu (fun _ _ _ => rfl) (fun _ => rfl) fun _ => rfl)
      fun _ => beside_done
  case ror =>
    refine relates_bind_eq (hRead rfl) fun val => beside_getCpu fun w k k' hk => ?_
    refine relates_bind_eq (beside_modifyCpu (fun _ _ _ => rfl) (fun _ => rfl) fun _ => rfl)
      fun _ => ?_
    refine relates_bind_eq (hWrite rfl _) fun _ => ?_
    exact relates_bind_eq (beside_modifyCpu (fun _ _ _ => rfl) (fun _ => rfl) fun _ => rfl)
      fun _ => beside_done
  all_goals try (cases hStraight; done)
  all_goals
    dsimp only
    repeat' with_reducible first
      | exact beside_done
      | exact beside_modifyCpu (fun _ _ _ => rfl) (fun _ => rfl) fun _ => rfl
      | exact hRead rfl
      | exact hAddress rfl
      | exact hWrite rfl _
      | exact beside_writeByte _ _
      | exact beside_pushByte _
      | exact beside_pushFlags _
      | exact beside_pullByte hReads
      | refine beside_getCpu fun _ _ _ _ => ?_
      | apply relates_bind_eq
      | intro _

theorem returns_executeOp {m : Mnemonic} (hStraight : m.straight = true) (o : Operand σ)
    (branch : Bool → CoreM σ Unit) : Returns (fun updated => updated = false)
      (executeOp bus m o branch) := by
  unfold executeOp
  cases m
  all_goals first
    | (cases hStraight; done)
    | (dsimp only
       repeat' with_reducible first
         | exact returns_pure rfl
         | refine returns_bind fun _ => ?_)

/-- In the instruction table each instruction has the modes that its code can do with. -/
theorem modes_of_table : ∀ i ∈ instructions,
    (i.mnemonic.reads = true → i.mode.readable = true) ∧
      (i.mnemonic.writes = true → i.mode.inMemory = true ∨ i.mode = .accumulator) ∧
      (i.mnemonic.stores = true → i.mode.inMemory = true) := by
  decide +kernel

theorem base_ne_next (base : Word) (i : Instruction) :
    (base == base + lengthForInstruction i) = false := by
  have hLength : lengthForInstruction i ≠ 0 := by
    unfold lengthForInstruction
    split <;> decide
  simpa using hLength

/-- The end of an instruction that goes on with the next one. -/
theorem execute_run {c e : Ctx σ}
    (hOp : (executeOp bus i.mnemonic (operandOf bus i) (executeConditionalBranch bus i)).run c =
      (false, e)) :
    (execute bus i).run c =
      (if c.cpu.pc == e.cpu.pc + lengthForInstruction i then .halting else .running,
        ⟨Cpu.addTiming i.timing { e.cpu with pc := e.cpu.pc + lengthForInstruction i }, e.bus⟩) := by
  have hGet : (getCpu : CoreM σ Cpu).run c = (c.cpu, c) := rfl
  unfold execute
  rw [run_bind_eq hGet]
  dsimp only
  rw [run_bind_eq hOp]
  rfl

/-- The operation of a line, and the program counter goes on. -/
theorem LineAt.execute (h : LineAt bus I base i number) (hTable : opcodeTable i.opcode = some i)
    (hStraight : i.mnemonic.straight = true) {c c' : Ctx σ} (hRel : Beside I base queue c c') :
    ((Emulator.execute bus i).run c).1 = .running ∧
      Along (base + lengthForInstruction i) queue ((Emulator.execute bus i).run c).2
        (exec bus (i.mnemonic, operandIn bus i.mode number) c') := by
  obtain ⟨hReadable, hWritable, hStorable⟩ := modes_of_table i (mem_of_table hTable)
  have hOp : Relates (Beside I base queue) Eq (Along base queue)
      (executeOp bus i.mnemonic (operandOf bus i) (executeConditionalBranch bus i))
      (executeOp bus i.mnemonic (operandIn bus i.mode number) fun _ => pure ()) :=
    beside_executeOp h.reads i.mnemonic hStraight
      (fun hStores => beside_operand_address h (hStorable hStores))
      (fun hReads => beside_operand_read h (hReadable hReads))
      (fun hWrites => beside_operand_write h (hWritable hWrites))
  obtain ⟨-, hEnd⟩ := hOp c c' hRel
  have hFalse : ((executeOp bus i.mnemonic (operandOf bus i)
      (executeConditionalBranch bus i)).run c).1 = false :=
    returns_executeOp hStraight _ _ c
  rw [execute_run (Prod.ext hFalse rfl), hRel.pc, hEnd.pc, base_ne_next]
  exact ⟨rfl, hEnd.work, hEnd.bus, rfl, hEnd.queue, trivial⟩

/-! ## §6 Branches -/

/-- The end of an instruction that sets the program counter itself. -/
theorem execute_run_jump {c e : Ctx σ}
    (hOp : (executeOp bus i.mnemonic (operandOf bus i) (executeConditionalBranch bus i)).run c =
      (true, e)) : ((execute bus i).run c).2 = ⟨Cpu.addTiming i.timing e.cpu, e.bus⟩ := by
  have hGet : (getCpu : CoreM σ Cpu).run c = (c.cpu, c) := rfl
  unfold execute
  rw [run_bind_eq hGet]
  dsimp only
  rw [run_bind_eq hOp]
  rfl

/-- What the code of a conditional branch does. -/
theorem executeOp_takes {m : Mnemonic} {o : Operand σ} {branch : Bool → CoreM σ Unit} {c : Ctx σ}
    {taken : Bool} (hTakes : m.takes c.cpu = some taken) :
    (executeOp bus m o branch).run c = (true, ((branch taken).run c).2) := by
  cases m
  all_goals first
    | (cases hTakes; rfl)
    | cases hTakes

/-- The core goes elsewhere. -/
theorem beside_jump {f : Cpu → Cpu} {target : Word} (hWork : ∀ d, (f d).work = d.work)
    (hPc : ∀ d, d.pc = base → (f d).pc = target) (hQueue : ∀ d, (f d).queue = d.queue) :
    Relates (Beside I base queue) (fun _ _ => True) (Along target queue)
      (modifyCpu f : CoreM σ Unit) (pure ()) := by
  intro c c' h
  exact ⟨trivial, (hWork _).trans h.work, h.bus, hPc _ h.pc, (hQueue _).trans h.queue, trivial⟩

/-- Where a branch leads to. -/
def branchTarget (base number : Word) (taken : Bool) : Word :=
  if taken then base + 2 + (lowByte number).signExtend 16 else base + 2

theorem LineAt.conditionalBranch (h : LineAt bus I base i number) (hMode : i.mode = .relative)
    (taken : Bool) :
    Relates (Beside I base queue) (fun _ _ => True)
      (Along (branchTarget base number taken) queue)
      (executeConditionalBranch bus i taken) (pure ()) := by
  obtain ⟨opcode, mnemonic, mode, timing, addOne⟩ := i
  obtain rfl : mode = .relative := hMode
  unfold executeConditionalBranch
  cases taken with
  | false =>
    rw [if_neg Bool.false_ne_true]
    refine beside_jump (fun _ => rfl) (fun d hd => ?_) fun _ => rfl
    subst hd
    rfl
  | true =>
    rw [if_pos rfl]
    -- the offset is a byte of the code
    unfold effectiveOperandAddress
    rw [bind_assoc]
    refine beside_getCpu_left fun d hd => ?_
    dsimp only
    rw [hd, bind_assoc]
    refine h.fetch_low (Nat.le_refl 2) ?_
    rw [pure_bind]
    dsimp only
    refine relates_left (beside_jump (fun _ => rfl) (fun _ _ => rfl) fun _ => rfl) fun _ _ => ?_
    split
    · exact beside_timing (fun _ => rfl) (fun _ => rfl) fun _ => rfl
    · exact relates_pure trivial

/-- A conditional branch, and the program counter is where the branch leads to. -/
theorem LineAt.branch (h : LineAt bus I base i number) (hMode : i.mode = .relative) {c c' : Ctx σ}
    {taken : Bool} (hTakes : i.mnemonic.takes c'.cpu = some taken)
    (hRel : Beside I base queue c c') :
    Along (branchTarget base number taken) queue ((Emulator.execute bus i).run c).2 c' := by
  have hSame : i.mnemonic.takes c.cpu = some taken := by
    rw [← hTakes]
    have hFlags : c.cpu.p = c'.cpu.p := congrArg Work.p hRel.work
    unfold Mnemonic.takes Cpu.isSet
    rw [hFlags]
  obtain ⟨-, hEnd⟩ := h.conditionalBranch hMode taken c c' hRel
  rw [execute_run_jump (executeOp_takes hSame)]
  exact ⟨hEnd.work, hEnd.bus, hEnd.pc, hEnd.queue, trivial⟩

theorem takes_of_conditional {m : Mnemonic} (h : m.conditional = true) (d : Cpu) :
    ∃ taken, m.takes d = some taken := by
  cases m
  all_goals first
    | exact ⟨_, rfl⟩
    | cases h

/-! ## §7 Runs -/

/-- One line, with the opcode fetched and looked up. -/
theorem LineAt.execNext (h : LineAt bus I base i number) (hTable : opcodeTable i.opcode = some i)
    {c : Ctx σ} (hIrq : c.cpu.irqPending = false) (hNmi : c.cpu.nmiPending = false)
    (hPc : c.cpu.pc = base) (hCode : I c.bus) :
    ((mcs6502ExecNext bus).run c).2 = ((Emulator.execute bus i).run
      ⟨{ c.cpu with pendingTiming := 0, timingForLastOperation := 0 }, c.bus⟩).2 := by
  have hFetch := h.opcode c.bus hCode
  -- the opcode of the line in place is the one of the table
  have hDecode : opcodeTable (bus.readByte c.cpu.pc c.bus).1 = some i := by
    rw [hPc, hFetch]
    exact hTable
  have hSame : (bus.readByte c.cpu.pc c.bus).2 = c.bus := by rw [hPc, hFetch]
  have hRun := @fetchExecute_run σ bus
    ⟨{ c.cpu with pendingTiming := 0, timingForLastOperation := 0 }, c.bus⟩ i hDecode
  rw [execNext_run, hNmi, hIrq, if_neg Bool.false_ne_true, if_neg Bool.false_ne_true, hRun]
  show ((Emulator.execute bus i).run ⟨_, (bus.readByte c.cpu.pc c.bus).2⟩).2 = _
  rw [hSame]

/-- The core has got to a line with the same registers and the same bus. -/
structure Arrived (start : Word) (code : List Line) (c : Ctx σ) (s : Place σ) : Prop where
  work : c.cpu.work = s.ctx.cpu.work
  bus : c.bus = s.ctx.bus
  pc : c.cpu.pc = start + BitVec.ofNat 16 (offsetOfLine code s.line)
  irq : c.cpu.irqPending = false
  nmi : c.cpu.nmiPending = false

variable {start : Word} {code : List Line} {k n : Nat} {l : Line}

theorem offsetOfLine_succ (hLine : code[k]? = some l) :
    offsetOfLine code (k + 1) =
      offsetOfLine code k + (lengthForInstruction l.instruction).toNat := by
  unfold offsetOfLine
  rw [List.take_add_one, hLine]
  simp

/-- **Step lemma**: the core executes the line that it has got to. -/
theorem Arrived.step {c : Ctx σ} {s s' : Place σ} (h : Arrived start code c s)
    (hLine : code[s.line]? = some l) (hOk : l.Ok code s.line)
    (hAt : LineAt bus I (start + BitVec.ofNat 16 (offsetOfLine code s.line)) l.instruction
      (l.number code s.line)) (hCode : I s.ctx.bus) (hStep : stepLine bus code s = some s') :
    Arrived start code ((mcs6502ExecNext bus).run c).2 s' := by
  unfold stepLine at hStep
  rw [hLine, Option.map_some] at hStep
  obtain rfl := Option.some.inj hStep
  -- both sides run on one bus, which holds the code
  have hBus : I c.bus := by
    rw [h.bus]
    exact hCode
  have hRel : Beside I (start + BitVec.ofNat 16 (offsetOfLine code s.line)) ⟨0, false, false⟩
      ⟨{ c.cpu with pendingTiming := 0, timingForLastOperation := 0 }, c.bus⟩ s.ctx := by
    refine ⟨h.work, h.bus, h.pc, ?_, hBus⟩
    simp [Cpu.queue, h.irq, h.nmi]
  rw [hAt.execNext hOk.1 h.irq h.nmi h.pc hBus]
  have hArrived : ∀ {pc : Word} {d d' : Ctx σ}, Along pc ⟨0, false, false⟩ d d' →
      pc = start + BitVec.ofNat 16 (offsetOfLine code (l.next s.line s.ctx.cpu)) →
      Arrived start code d ⟨l.next s.line s.ctx.cpu, d'⟩ := by
    intro pc d d' hAlong hPc
    exact ⟨hAlong.work, hAlong.bus, hAlong.pc.trans hPc,
      congrArg InterruptQueue.irqPending hAlong.queue,
      congrArg InterruptQueue.nmiPending hAlong.queue⟩
  cases l with
  | op i operand =>
    refine hArrived (hAt.execute hOk.1 hOk.2 hRel).2 ?_
    rw [Line.next, offsetOfLine_succ hLine, BitVec.ofNat_add, BitVec.ofNat_toNat,
      BitVec.setWidth_eq, BitVec.add_assoc, Line.instruction]
  | branch i label =>
    obtain ⟨hMode, hConditional, hNear⟩ := hOk.2
    -- the flags decide for both sides alike
    obtain ⟨taken, hTakes⟩ : ∃ taken, i.mnemonic.takes s.ctx.cpu = some taken :=
      takes_of_conditional hConditional s.ctx.cpu
    refine hArrived (hAt.branch hMode hTakes hRel) ?_
    have hNext : (Line.branch i label).next s.line s.ctx.cpu =
        if taken = true then label else s.line + 1 := by
      unfold Line.next
      dsimp only
      rw [hTakes]
      cases taken <;> rfl
    -- 8-bit offset of the branch, added to the address behind it, gives the label's line
    unfold branchTarget
    rw [hNext]
    cases taken with
    | true =>
      rw [if_pos rfl, if_pos rfl, hNear, Line.number]
      generalize BitVec.ofNat 16 (offsetOfLine code label) = target
      generalize BitVec.ofNat 16 (offsetOfLine code s.line) = here
      bv_omega
    | false =>
      have hLength : lengthForInstruction i = 2 := by
        unfold lengthForInstruction
        rw [hMode]
      rw [if_neg Bool.false_ne_true, if_neg Bool.false_ne_true, offsetOfLine_succ hLine,
        Line.instruction, hLength, BitVec.ofNat_add, BitVec.add_assoc]
      rfl

theorem bytes_length (line : Nat) (l : Line) :
    (l.bytes code line).length = (lengthForInstruction l.instruction).toNat := by
  have hLength : (lengthForInstruction l.instruction).toNat ≤ 3 := by
    unfold lengthForInstruction
    split <;> decide
  unfold Line.bytes
  rw [List.length_take]
  exact Nat.min_eq_left hLength

/-- The bytes of a line among those of the code. -/
theorem assembleFrom_getElem? {ls : List Line} {m j : Nat} {byte : Byte} (hLine : ls[j]? = some l)
    (hByte : (l.bytes code (m + j))[n]? = some byte) :
    (assembleFrom code m ls)[offsetOfLine ls j + n]? = some byte := by
  induction ls generalizing m j with
  | nil => cases hLine
  | cons l' ls ih =>
    rw [assembleFrom]
    cases j with
    | zero =>
      obtain rfl := Option.some.inj hLine
      rw [Nat.add_zero] at hByte
      obtain ⟨hLess, -⟩ := List.getElem?_eq_some_iff.mp hByte
      rw [show offsetOfLine (l' :: ls) 0 = 0 from rfl, Nat.zero_add, List.getElem?_append_left hLess]
      exact hByte
    | succ j =>
      have hOffset : offsetOfLine (l' :: ls) (j + 1) =
          (l'.bytes code m).length + offsetOfLine ls j := by
        rw [bytes_length]
        simp [offsetOfLine]
      rw [hOffset, Nat.add_assoc, List.getElem?_append_right (Nat.le_add_right _ _),
        Nat.add_sub_cancel_left]
      refine ih hLine ?_
      rwa [Nat.add_right_comm, Nat.add_assoc]

/-- Each line of the code can be fetched. -/
theorem Reads.lineAt (h : Reads bus I start (assemble code)) (hLine : code[k]? = some l) :
    LineAt bus I (start + BitVec.ofNat 16 (offsetOfLine code k)) l.instruction (l.number code k) := by
  -- the bytes of a line lie one behind the other in the assembled code
  have hByte : ∀ {j byte}, (l.bytes code k)[j]? = some byte → ∀ s, I s →
      bus.readByte (start + BitVec.ofNat 16 (offsetOfLine code k) + BitVec.ofNat 16 j) s =
        (byte, s) := by
    intro j byte hByte s hCode
    rw [BitVec.add_assoc, ← BitVec.ofNat_add]
    refine h.fetch _ byte s (assembleFrom_getElem? hLine ?_) hCode
    rwa [Nat.zero_add]
  refine ⟨?_, ?_, ?_, h.reads⟩
  · have hOpcode : (l.bytes code k)[0]? = some l.instruction.opcode := by
      unfold Line.bytes lengthForInstruction
      split <;> rfl
    simpa using hByte hOpcode
  · intro hLength
    have hLow : (l.bytes code k)[1]? = some (lowByte (l.number code k)) := by
      unfold Line.bytes
      cases hCase : l.instruction.mode
      all_goals
        simp only [lengthForInstruction, hCase] at hLength ⊢
        first
          | rfl
          | exact absurd hLength (by decide)
    exact hByte hLow
  · intro hLength
    have hHigh : (l.bytes code k)[2]? = some (highByte (l.number code k)) := by
      unfold Line.bytes
      cases hCase : l.instruction.mode
      all_goals
        simp only [lengthForInstruction, hCase] at hLength ⊢
        first
          | rfl
          | exact absurd hLength (by decide)
    exact hByte hHigh

/-- **Main theorem**: if the bytes of the code are read back at `start`, and every line that is
    executed has left it so, then after as many calls of `MCS6502ExecNext` as lines have been
    executed the core has got to the same line, with the same registers and the same bus. -/
theorem core_executes_code (hReads : Reads bus I start (assemble code))
    (hOk : ∀ k l, code[k]? = some l → Line.Ok code k l) {c : Ctx σ} {s s' : Place σ}
    (h : Arrived start code c s) (hRun : runLines bus code n s = some s')
    (hKept : ∀ m < n, ∀ u, runLines bus code m s = some u → I u.ctx.bus) :
    Arrived start code ((fun c => ((mcs6502ExecNext bus).run c).2)^[n] c) s' := by
  -- on the steps; the bus keeps the code over each
  induction n generalizing c s with
  | zero =>
    obtain rfl := Option.some.inj hRun
    exact h
  | succ n ih =>
    obtain ⟨u, hStep, hRest⟩ := Option.bind_eq_some_iff.mp hRun
    obtain ⟨l, hLine, -⟩ := Option.map_eq_some_iff.mp hStep
    have hNext := h.step hLine (hOk _ l hLine) (hReads.lineAt hLine)
      (hKept 0 (Nat.succ_pos n) s rfl) hStep
    rw [Function.iterate_succ_apply]
    refine ih hNext hRest fun m hm v hv => hKept (m + 1) (Nat.succ_lt_succ hm) v ?_
    rw [runLines, hStep, Option.bind_some]
    exact hv

end Programs

/-! ## §8 Code in a ROM -/

/-- A bus with nothing but these bytes on it, from `start` on. -/
def romBus (start : Word) (bytes : List Byte) : DataBus Unit where
  readByte addr _ := (bytes.getD (addr - start).toNat 0xff, ())
  writeByte _ _ _ := ()

theorem reads_rom (start : Word) {bytes : List Byte} (hLength : bytes.length ≤ 0x10000) :
    Reads (romBus start bytes) (fun _ => True) start bytes where
  fetch j byte s hByte _ := by
    obtain ⟨hLess, -⟩ := List.getElem?_eq_some_iff.mp hByte
    have hOffset : (start + BitVec.ofNat 16 j - start).toNat = j := by
      rw [BitVec.add_comm, BitVec.add_sub_cancel, BitVec.toNat_ofNat]
      omega
    show (bytes.getD (start + BitVec.ofNat 16 j - start).toNat 0xff, ()) = (byte, s)
    rw [hOffset, List.getD_eq_getElem?_getD, hByte]
    rfl
  reads _ _ _ := trivial

/-- `x` counts down to 0. -/
def countdown (n : Byte) : List Line := [.op ⟨0xA2, .ldx, .immediate, 2, false⟩ (n.setWidth 16),
  .op ⟨0xCA, .dex, .implied, 2, false⟩ 0, .branch ⟨0xD0, .bne, .relative, 0, true⟩ 1]

theorem countdown_ok : ∀ k l, (countdown 3)[k]? = some l → Line.Ok (countdown 3) k l := by
  intro k l hLine
  match k, hLine with
  | 0, hLine =>
    cases hLine
    exact ⟨by decide, rfl⟩
  | 1, hLine =>
    cases hLine
    exact ⟨by decide, rfl⟩
  | 2, hLine =>
    cases hLine
    exact ⟨by decide, rfl, rfl, by decide⟩

/-- The core at the start of the code. -/
def countdownStart : Ctx Unit := ⟨⟨0, 0, 0, 0xff, 0x0200, 0x20, 0, 0, false, false⟩, ()⟩

/-- Seven instructions later it is behind the last line. -/
theorem core_executes_countdown : ∃ s, runLines (romBus 0x0200 (assemble (countdown 3)))
      (countdown 3) 7 ⟨0, countdownStart⟩ = some s ∧ s.line = 3 ∧ s.ctx.cpu.x = 0 ∧
    Arrived 0x0200 (countdown 3)
      ((fun c => ((mcs6502ExecNext (romBus 0x0200 (assemble (countdown 3)))).run c).2)^[7]
        countdownStart) s := by
  refine ⟨_, rfl, rfl, rfl, ?_⟩
  exact core_executes_code (reads_rom 0x0200 (by decide)) countdown_ok
    (c := countdownStart) (s := ⟨0, countdownStart⟩) ⟨rfl, rfl, rfl, rfl, rfl⟩ rfl
    fun _ _ _ _ => trivial

end Xv6502.Emulator
