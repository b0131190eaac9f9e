import Xv6502.Lib.Interruptible
import Xv6502.Emulator.LowMemory

/-!
# Interrupts of the Kernel

`_kernel_vector` of `kernel/trampoline.s`, which takes the interrupts that come while the kernel
runs. It keeps the registers and the zero page of the compiled code on the hardware stack, finds the
flags behind them to tell a `BRK` from a hardware interrupt, calls a C function, and takes everything
back. The C function may be interrupted in turn, and so may the rest of the handler where it has left
interrupts on.

- `Handled`: an interruption with all those nested in it, from the intercept of the MMU to the
  `RTI`.
- `Resumed`: what the interrupted code finds again.
-/

namespace Xv6502.Kernel.Vector

open Xv6502.Emulator Xv6502.Lib.Interruptible

/-! ## §1 The code -/

/-- The C functions that the handler calls. -/
inductive Routine where
  | deviceInterrupt
  | kernelDebugger
  deriving DecidableEq

/-- Code of the kernel. -/
abbrev KernelCode := Code (Statement Board) Routine Machine

/-- What `bne` and `beq` look at. -/
def zeroSet (m : Machine) : Bool := m.cpu.isSet statusZ

/-- What `bpl` looks at. -/
def negativeSet (m : Machine) : Bool := m.cpu.isSet statusN

/-- `_kernel_vector` up to the test of the "B" flag. -/
def saveContext (zpsavespace : Byte) : KernelCode :=
  .seq (.ops [(.pha, implied), (.txa, implied), (.pha, implied), (.tya, implied), (.pha, implied),
      (.ldx, immediate 0)])
    (.seq (.again (.ops [(.lda, indexedX machineBus 0), (.pha, implied), (.inx, implied),
        (.cpx, immediate zpsavespace)]) fun m => !zeroSet m)
      (.ops [(.tsx, implied), (.lda, indexedX machineBus (0x0104 + zpsavespace.setWidth 16)),
        (.and, immediate 0x10)]))

/-- `_kernel_vector` from `@restore_zp` on. -/
def restoreContext (zpsavespace : Byte) : KernelCode :=
  .seq (.ops [(.ldx, immediate zpsavespace), (.dex, implied)])
    (.seq (.again (.ops [(.pla, implied), (.sta, indexedX machineBus 0), (.dex, implied)])
        fun m => !negativeSet m)
      (.ops [(.pla, implied), (.tay, implied), (.pla, implied), (.tax, implied), (.pla, implied),
        (.rti, implied)]))

/-- `_kernel_vector`. -/
def kernelVector (zpsavespace : Byte) : KernelCode :=
  .seq (saveContext zpsavespace)
    (.seq (.branch zeroSet (.call .deviceInterrupt) (.call .kernelDebugger))
      (restoreContext zpsavespace))

/-! ## §2 Interruptions -/

/-- What the fetch of `MMU_pre_exec` latches for an instruction. -/
def latch (opcode : Byte) (m : Machine) : Machine :=
  m.setMmu fun u =>
    { u with opcode := opcode, inUser := u.pageTable mmuLastSegment != kernelFrame }

/-- `MCS6502ExecNext` begins. -/
def beginExec (m : Machine) : Machine :=
  { m with cpu := { m.cpu with pendingTiming := 0, timingForLastOperation := 0 } }

/-- An instruction of the kernel. Besides the interrupts the MMU has to do with `RTI` only. -/
def execInstruction (i : Statement Board) (m : Machine) : Machine :=
  if i.1 = .rti then mmuPostExec (exec machineBus i (beginExec (latch opcodeRti m)))
  else exec machineBus i (beginExec m)

/-- The two ways to interrupt the kernel. -/
inductive Interruption where
  | irq
  | brk
  deriving DecidableEq

/-- The handler is entered. -/
def enter : Interruption → Machine → Machine
  | .irq, m => beginExec (preExecIntercept m)
  | .brk, m => exec machineBus (.brk, implied) (beginExec (preExecIntercept (latch opcodeBrk m)))

/-- Where the interrupted code goes on. -/
def resumesAt : Interruption → Word → Word
  | .irq, pc => pc
  | .brk, pc => pc + 2

/-- The kernel is between two instructions and can be interrupted. -/
structure Interruptible (k : Interruption) (m : Machine) : Prop where
  mapped : m.bus.mmu.KernelMapped
  idle : m.cpu.Idle
  takes : takesIrq m = (k == .irq)

/-- There is also room on its stack. -/
structure Ready (zpsavespace : Byte) (k : Interruption) (m : Machine) : Prop extends
    Interruptible k m where
  room : zpsavespace.toNat + 6 ≤ m.cpu.sp.toNat

/-- The devices move; they do not store into the memory. -/
def Devices (m m' : Machine) : Prop :=
  m'.cpu = m.cpu ∧ m'.bus.ram = m.bus.ram ∧ m'.bus.mmu = m.bus.mmu

/-- The C functions: what a call may do when this may happen in the course of it. -/
abbrev Calls := (Machine → Machine → Prop) → Routine → Machine → Machine → Prop

/-- The handler's code, where interrupts may be handled. Its own instructions are no `BRK`s, the
    compiled code may have some. -/
def semantics (calls : Calls) (handled : Interruption → Machine → Machine → Prop) :
    Semantics (Statement Board) Routine Machine where
  exec := execInstruction
  calls := calls fun m m' => Devices m m' ∨ ∃ k, handled k m m'
  between m m' := Devices m m' ∨ handled .irq m m'

/-- An interruption with those nested in it, less than `depth` deep. -/
def Handled (zpsavespace : Byte) (calls : Calls) : Nat → Interruption → Machine → Machine → Prop
  | 0 => fun _ _ _ => False
  | depth + 1 => fun k m m' => Ready zpsavespace k m ∧
      Runs (semantics calls (Handled zpsavespace calls depth)) (kernelVector zpsavespace)
        (enter k m) m'

/-! ## §3 What is found again -/

/-- The bits of the status that are flags. -/
def flags (p : Byte) : Byte := p &&& ~~~(0x20 ||| statusB)

/-- The kernel between two instructions, after its first entry. -/
structure Inside (m : Machine) : Prop where
  mapped : m.bus.mmu.KernelMapped
  prev : m.bus.mmu.prev = kernelFrame
  idle : m.cpu.Idle

/-- What the interrupted code finds again: the registers, the zero page of the compiled code, the
    stack above its pointer and the mapping. -/
structure Resumed (zpsavespace : Byte) (m m' : Machine) (pc : Word) : Prop where
  a : m'.cpu.a = m.cpu.a
  x : m'.cpu.x = m.cpu.x
  y : m'.cpu.y = m.cpu.y
  p : flags m'.cpu.p = flags m.cpu.p
  sp : m'.cpu.sp = m.cpu.sp
  pc : m'.cpu.pc = pc
  zeroPage : ∀ i < zpsavespace.toNat, m'.bus.low i = m.bus.low i
  stack : ∀ s : Byte, m.cpu.sp < s → m'.bus.low (0x100 + s.toNat) = m.bus.low (0x100 + s.toNat)
  frame : m'.bus.mmu.pageTable 0 = m.bus.mmu.pageTable 0
  inside : Inside m'

/-- The C functions return with a balanced hardware stack: if the interruptions they meet are
    transparent, they leave the stack above and the mapping as they have found them. -/
def Balanced (zpsavespace : Byte) (calls : Calls) : Prop :=
  ∀ meanwhile : Machine → Machine → Prop,
    (∀ m m', Inside m → meanwhile m m' → ∃ pc, Resumed zpsavespace m m' pc) →
    ∀ r m m', Inside m → calls meanwhile r m m' →
      Inside m' ∧ m'.cpu.sp = m.cpu.sp ∧ m'.bus.mmu.pageTable 0 = m.bus.mmu.pageTable 0 ∧
      ∀ s : Byte, m.cpu.sp < s → m'.bus.low (0x100 + s.toNat) = m.bus.low (0x100 + s.toNat)

end Xv6502.Kernel.Vector
