import Xv6502.Emulator.Board

/-!
# The Loop Body of `CPU_step`

`MMU_pre_exec` and `MMU_post_exec`, which watch every instruction from outside the core,
and the iteration of `CPU_step` made of them and `MCS6502ExecNext`; then the steps of the
devices, which `Machine_step` makes between two batches of iterations.
-/

namespace Xv6502.Emulator

/-! ## §1 The opcodes the MMU watches -/

/-- `valid_opcode_table`, row by row. -/
def validOpcodeRows : List (List Nat) := [
  [1, 1, 0, 0, 0, 1, 1, 0, 1, 1, 1, 0, 0, 1, 1, 0],
  [1, 1, 0, 0, 0, 1, 1, 0, 1, 1, 0, 0, 0, 1, 1, 0],
  [1, 1, 0, 0, 1, 1, 1, 0, 1, 1, 1, 0, 1, 1, 1, 0],
  [1, 1, 0, 0, 0, 1, 1, 0, 1, 1, 0, 0, 0, 1, 1, 0],
  [1, 1, 0, 0, 0, 1, 1, 0, 1, 1, 1, 0, 1, 1, 1, 0],
  [1, 1, 0, 0, 0, 1, 1, 0, 1, 1, 0, 0, 0, 1, 1, 0],
  [1, 1, 0, 0, 0, 1, 1, 0, 1, 1, 1, 0, 1, 1, 1, 0],
  [1, 1, 0, 0, 0, 1, 1, 0, 1, 1, 0, 0, 0, 1, 1, 0],
  [0, 1, 0, 0, 1, 1, 1, 0, 1, 0, 1, 0, 1, 1, 1, 0],
  [1, 1, 0, 0, 1, 1, 1, 0, 1, 1, 1, 0, 0, 1, 0, 0],
  [1, 1, 1, 0, 1, 1, 1, 0, 1, 1, 1, 0, 1, 1, 1, 0],
  [1, 1, 0, 0, 1, 1, 1, 0, 1, 1, 1, 0, 1, 1, 1, 0],
  [1, 1, 0, 0, 1, 1, 1, 0, 1, 1, 1, 0, 1, 1, 1, 0],
  [1, 1, 0, 0, 0, 1, 1, 0, 1, 1, 0, 0, 0, 1, 1, 0],
  [1, 1, 0, 0, 1, 1, 1, 0, 1, 1, 1, 0, 1, 1, 1, 0],
  [1, 1, 0, 0, 0, 1, 1, 0, 1, 1, 0, 0, 0, 1, 1, 0]]

/-- `valid_opcode_table[opcode]`. -/
def validOpcode (opcode : Byte) : Bool :=
  validOpcodeRows.flatten.getD opcode.toNat 0 != 0

/-- The opcode of `BRK`. -/
def opcodeBrk : Byte := 0x00
/-- The opcode of `RTI`. -/
def opcodeRti : Byte := 0x40

/-- The test of the privilege and invalid opcode watchdog, less `in_user`: `SEI`, `PLP`,
    `RTI` or an invalid opcode. -/
def watchedOpcode (opcode : Byte) : Bool :=
  opcode == 0x78 || opcode == 0x28 || opcode == 0x40 || !validOpcode opcode

/-! ## §2 `MMU_pre_exec` and `MMU_post_exec` -/

/-- Change the MMU of a machine. -/
def Ctx.setMmu (m : Machine) (f : Mmu → Mmu) : Machine :=
  { m with bus := { m.bus with mmu := f m.bus.mmu } }

/-- Save the entry of the last segment in `prev` and map the kernel there. -/
def Mmu.enterKernel (u : Mmu) : Mmu :=
  { u with
    prev := u.pageTable mmuLastSegment
    pageTable := Function.update u.pageTable mmuLastSegment kernelFrame }

/-- `PLIC_lower`: only the pending flag, the line is acknowledged by software. -/
def plicLower (b : Board) : Board :=
  { b with plic := { b.plic with pendingIrq := false } }

/-- `PLIC_raise`. -/
def plicRaise (b : Board) (pin : Byte) : Board :=
  { b with plic := { interruptsLines := b.plic.interruptsLines ||| pin, pendingIrq := true } }

/-- `m->plic->pending_irq && !(m->cpu->p & MCS6502_STATUS_I)`. -/
def takesIrq (m : Machine) : Bool :=
  m.bus.plic.pendingIrq && !m.cpu.isSet statusI

/-- The first statements of `MMU_pre_exec`: fetch the opcode, latch it, and see whether the
    CPU is in user space. -/
def preExecFetch (m : Machine) : Machine :=
  let (opcode, b) := machineRead m.cpu.pc m.bus
  Ctx.setMmu { m with bus := b } fun u =>
    { u with opcode := opcode, inUser := u.pageTable mmuLastSegment != kernelFrame }

/-- Hardware IRQ and `BRK` intercept. -/
def preExecIntercept (m : Machine) : Machine :=
  if takesIrq m then
    let m := m.setMmu Mmu.enterKernel
    ((mcs6502IRQ machineBus).run { m with bus := plicLower m.bus }).2
  else if m.bus.mmu.opcode = opcodeBrk then m.setMmu Mmu.enterKernel
  else m

/-- Privilege and invalid opcode watchdog. -/
def preExecWatchdog (m : Machine) : Machine :=
  let opcode := m.bus.mmu.opcode
  if m.bus.mmu.inUser && watchedOpcode opcode then
    let m := m.setMmu fun u =>
      { u with
        watchdog := opcode
        cause := if !validOpcode opcode then mmuCauseInvalidOpcode else mmuCausePrivilege }
    ((mcs6502NMI machineBus).run (m.setMmu Mmu.enterKernel)).2
  else m

/-- Memory access violation watchdog. -/
def preExecViolation (m : Machine) : Machine :=
  if m.bus.mmu.pendingNmi then
    let m := (m.setMmu fun u => { u with cause := mmuCauseV }).setMmu Mmu.enterKernel
    ((mcs6502NMI machineBus).run (m.setMmu fun u => { u with pendingNmi := false })).2
  else m

/-- `MMU_pre_exec`. -/
def mmuPreExec (m : Machine) : Machine :=
  preExecViolation (preExecWatchdog (preExecIntercept (preExecFetch m)))

/-- `MMU_post_exec`. -/
def mmuPostExec (m : Machine) : Machine :=
  if m.bus.mmu.opcode = opcodeRti ∧ m.bus.mmu.inUser = false then
    m.setMmu fun u => { u with pageTable := Function.update u.pageTable mmuLastSegment u.prev }
  else m

/-- `MCS6502ExecNext` on the machine. -/
def execNext (m : Machine) : Machine :=
  ((mcs6502ExecNext machineBus).run m).2

/-- One iteration of the loop of `CPU_step`. -/
def cpuStepIteration (m : Machine) : Machine :=
  mmuPostExec (execNext (mmuPreExec m))

/-! ## §3 Device steps -/

/-- The LBA registers as one number. -/
def Disk.lba (d : Disk) : Nat := d.lbaHigh.toNat * 0x100 + d.lbaLow.toNat

/-- The first `n` bytes of a sector of the image in the buffer, as `fread` puts them there. -/
def Disk.readSector (d : Disk) (n : Nat) : Disk :=
  { d with buffer := fun i =>
      if i < n then d.file (d.lba * diskSectorSize + i) else d.buffer i }

/-- The first `n` bytes of the buffer in a sector of the image, as `fwrite` puts them there. -/
def Disk.writeSector (d : Disk) (n : Nat) : Disk :=
  { d with file := fun i =>
      if d.lba * diskSectorSize ≤ i ∧ i < d.lba * diskSectorSize + n then
        d.buffer (i - d.lba * diskSectorSize)
      else d.file i }

/-- `Disk_step`; `result` is the number of bytes `fread` or `fwrite` moves if a transfer is
    due. A short transfer returns before the line is raised. -/
def diskStep (result : Nat) (b : Board) : Board :=
  if b.disk.status = diskStatusBusy then
    let d := { b.disk with delay := b.disk.delay - 1 }
    -- the operation is due
    if d.delay = 0 then
      if d.cmd = diskCmdRead then
        if result ≠ diskSectorSize then
          { b with disk := { d.readSector result with status := diskStatusError } }
        else
          plicRaise { b with disk := { d.readSector result with status := diskStatusReady } }
            plicPinDisk
      else if d.cmd = diskCmdWrite then
        if result ≠ diskSectorSize then
          { b with disk := { d.writeSector result with status := diskStatusError } }
        else
          plicRaise { b with disk := { d.writeSector result with status := diskStatusReady } }
            plicPinDisk
      -- neither a read nor a write was asked for
      else plicRaise { b with disk := { d with status := diskStatusError } } plicPinDisk
    else { b with disk := d }
  else b

/-- `Uart_step`; `c` is the byte read from the terminal, if any. `none` is the power-off of
    the ESC key. -/
def uartStep (c : Option Byte) (b : Board) : Option Board :=
  let display (b : Board) : Board :=
    if b.uart.status &&& uartStatusTxReady = 0 then
      { b with uart := { b.uart with status := b.uart.status ||| uartStatusTxReady } }
    else b
  match c with
  | some c =>
    -- ESC ends the emulator
    if c = 0x1B then none
    else
      let uart := { b.uart with rx := c, status := b.uart.status ||| uartStatusRxReady }
      some (display (plicRaise { b with uart := uart } plicPinUartRx))
  | none => some (display b)

/-- `Timer_step`. -/
def timerStep (b : Board) : Board :=
  if b.timer.ctrl = timerEnableFalse then b
  else
    let counter := wordOf b.timer.counterLow b.timer.counterHigh - 1
    -- the counter starts again from its latches and the line is raised
    if counter = 0 then
      plicRaise { b with timer := { b.timer with
        counterHigh := b.timer.latchHigh, counterLow := b.timer.latchLow } } plicPinTimer
    else
      { b with timer := { b.timer with
        counterHigh := highByte counter, counterLow := lowByte counter } }

end Xv6502.Emulator
