import Xv6502.Emulator.Core
import Mathlib.Logic.Function.Basic
import Mathlib.Data.Fin.Basic

/-!
# The Board: Devices, MMU and Bus

Everything on the bus of the CPU core (`machine/machine.c`): RAM, ROM, UART, disk, MMU,
timer and PLIC, with `MMU_translate`, `Machine_read` and `Machine_write`.

The chains of range tests of `Machine_read` and `Machine_write` are kept in the source's
order. The `Machine` is the core together with its board.
-/

namespace Xv6502.Emulator

/-! ## §1 Devices -/

/-- `ROM`. -/
structure Rom where
  romEnable : Byte
  data : Nat → Byte

/-- `Uart`. -/
structure Uart where
  tx : Byte
  rx : Byte
  status : Byte
  deriving DecidableEq

/-- `Disk`; `file` is the content of the disk image. -/
structure Disk where
  file : Nat → Byte
  buffer : Nat → Byte
  cmd : Byte
  status : Byte
  lbaLow : Byte
  lbaHigh : Byte
  delay : Int

/-- `MMU`. -/
structure Mmu where
  pageTable : Segment → Frame
  prev : Frame
  watchdog : Byte
  cause : Byte
  va : Word
  opcode : Byte
  inUser : Bool
  pendingNmi : Bool

/-- `Timer`. -/
structure Timer where
  ctrl : Byte
  latchLow : Byte
  latchHigh : Byte
  counterLow : Byte
  counterHigh : Byte
  deriving DecidableEq

/-- `PLIC`. -/
structure Plic where
  interruptsLines : Byte
  pendingIrq : Bool
  deriving DecidableEq

/-- What `Machine` holds besides the core. `ram` is indexed by the physical address; only
    the addresses below `RAM_SIZE` are ever used. -/
structure Board where
  ram : Nat → Byte
  rom : Rom
  uart : Uart
  disk : Disk
  mmu : Mmu
  timer : Timer
  plic : Plic

/-! ## §2 Translation -/

/-- The segment of a CPU address. -/
def segmentOf (va : Word) : Segment := ⟨va.toNat / 0x1000, by omega⟩

/-- The offset of a CPU address in its segment. -/
def offsetOf (va : Word) : Nat := va.toNat % 0x1000

/-- What `MMU_translate` returns for an unmapped address: `-1` in `uint32_t`. -/
def unmappedAddress : Nat := 0xffffffff

/-- The physical address `MMU_translate` computes. -/
def physicalAddress (mmu : Mmu) (va : Word) : Nat :=
  if mmu.pageTable (segmentOf va) = mmuFrameInvalid then unmappedAddress
  else (mmu.pageTable (segmentOf va)).toNat * 0x1000 + offsetOf va

/-- The access to `va` goes through an invalid page-table entry. -/
def Mmu.faults (mmu : Mmu) (va : Word) : Prop :=
  mmu.pageTable (segmentOf va) = mmuFrameInvalid

instance (mmu : Mmu) (va : Word) : Decidable (mmu.faults va) :=
  inferInstanceAs (Decidable (_ = _))

/-- What `MMU_translate` does to the MMU: a violation is latched, to be delivered when the
    instruction has finished. -/
def mmuTranslate (mmu : Mmu) (va : Word) : Mmu :=
  if mmu.faults va then { mmu with va := va, pendingNmi := true } else mmu

/-! ## §3 The bus -/

/-- `Machine_read` behind the translation: the byte at a physical address. -/
def readPhysical (b : Board) (addr : Nat) : Byte :=
  -- the order of `Machine_read`: a device hides the RAM behind it
  if addr = plicInterruptLines then b.plic.interruptsLines
  else if addr = timerCtrl then b.timer.ctrl
  else if addr = timerLatchHigh then b.timer.latchHigh
  else if addr = timerLatchLow then b.timer.latchLow
  else if addr = timerCounterHigh then b.timer.counterHigh
  else if addr = timerCounterLow then b.timer.counterLow
  else if mmuPageTable ≤ addr ∧ addr < mmuPageTable + 16 then
    b.mmu.pageTable (Fin.ofNat 16 (addr - mmuPageTable))
  else if addr = mmuPrevRegister then b.mmu.prev
  else if addr = mmuWatchdogRegister then b.mmu.watchdog
  else if addr = mmuCauseRegister then b.mmu.cause
  else if addr = mmuVaRegisterLow then lowByte b.mmu.va
  else if addr = mmuVaRegisterHigh then highByte b.mmu.va
  else if addr = romEnable then b.rom.romEnable
  else if romBase ≤ addr ∧ addr < romBase + romSize ∧ b.rom.romEnable ≠ 0 then
    b.rom.data (addr - romBase)
  else if diskBuf ≤ addr ∧ addr < diskBuf + diskSectorSize then b.disk.buffer (addr - diskBuf)
  else if addr = diskCmd then b.disk.cmd
  else if addr = diskStat then b.disk.status
  else if addr = diskLba then b.disk.lbaLow
  else if addr = diskLba + 1 then b.disk.lbaHigh
  else if addr = uartRx then b.uart.rx
  else if addr = uartTx then b.uart.tx
  else if addr = uartStat then b.uart.status
  else if addr < ramSize then b.ram addr
  else 0xff

/-- What a read of a physical address changes: the UART's receive flag. -/
def readEffect (b : Board) (addr : Nat) : Board :=
  if addr = uartRx then
    { b with uart := { b.uart with status := b.uart.status &&& ~~~uartStatusRxReady } }
  else b

/-- The board after the translation of `va`. -/
def Board.translate (b : Board) (va : Word) : Board :=
  { b with mmu := mmuTranslate b.mmu va }

/-- `Machine_read`. -/
def machineRead (addr : Word) (b : Board) : Byte × Board :=
  let physicalAddr := physicalAddress b.mmu addr
  let b := b.translate addr
  (readPhysical b physicalAddr, readEffect b physicalAddr)

/-- `Machine_write` behind the translation. -/
def writePhysical (b : Board) (addr : Nat) (byte : Byte) : Board :=
  if addr = plicInterruptLines then
    { b with plic := { b.plic with interruptsLines := byte } }
  else if addr = timerCtrl then
    if byte = timerEnableTrue then
      { b with timer := { b.timer with
          ctrl := byte, counterHigh := b.timer.latchHigh, counterLow := b.timer.latchLow } }
    else { b with timer := { b.timer with ctrl := byte } }
  -- the latches are copied to the counter when the timer is enabled, or runs out
  else if addr = timerLatchHigh then { b with timer := { b.timer with latchHigh := byte } }
  else if addr = timerLatchLow then { b with timer := { b.timer with latchLow := byte } }
  else if addr = timerCounterHigh then { b with timer := { b.timer with counterHigh := byte } }
  else if addr = timerCounterLow then { b with timer := { b.timer with counterLow := byte } }
  else if mmuPageTable ≤ addr ∧ addr < mmuPageTable + 16 then
    { b with mmu := { b.mmu with
        pageTable := Function.update b.mmu.pageTable (Fin.ofNat 16 (addr - mmuPageTable)) byte } }
  else if addr = mmuPrevRegister then { b with mmu := { b.mmu with prev := byte } }
  else if addr = mmuCauseRegister then { b with mmu := { b.mmu with cause := byte } }
  else if addr = romEnable then { b with rom := { b.rom with romEnable := byte } }
  else if diskBuf ≤ addr ∧ addr < diskBuf + diskSectorSize then
    { b with disk := { b.disk with
        buffer := Function.update b.disk.buffer (addr - diskBuf) byte } }
  -- the store to the command register starts the operation
  else if addr = diskCmd then
    if byte = diskCmdRead ∨ byte = diskCmdWrite then
      { b with disk := { b.disk with
          cmd := byte, status := diskStatusBusy, delay := diskLatency } }
    else { b with disk := { b.disk with cmd := byte } }
  else if addr = diskLba then { b with disk := { b.disk with lbaLow := byte } }
  else if addr = diskLba + 1 then { b with disk := { b.disk with lbaHigh := byte } }
  else if addr = uartTx then
    { b with uart := { b.uart with
        tx := byte, status := b.uart.status &&& ~~~uartStatusTxReady } }
  else if addr < ramSize then { b with ram := Function.update b.ram addr byte }
  else b

/-- `Machine_write`. -/
def machineWrite (addr : Word) (byte : Byte) (b : Board) : Board :=
  writePhysical (b.translate addr) (physicalAddress b.mmu addr) byte

/-- The bus connected to the core by `Machine_create`. -/
def machineBus : DataBus Board where
  readByte := machineRead
  writeByte := machineWrite

/-- `Machine`. -/
abbrev Machine := Ctx Board

/-! ## §4 Accesses outside the device page -/

/-- The physical address is one of the device page `0xFC00 .. 0xFFFF`. -/
def InDevicePage (addr : Nat) : Prop := 0xfc00 ≤ addr ∧ addr ≤ 0xffff

/-- Outside the device page a read returns the RAM byte, if there is one. -/
theorem readPhysical_of_not_device (b : Board) {addr : Nat} (hDev : ¬ InDevicePage addr) :
    readPhysical b addr = if addr < ramSize then b.ram addr else 0xff := by
  unfold InDevicePage at hDev
  unfold readPhysical
  simp only [plicInterruptLines, timerCtrl, timerLatchHigh, timerLatchLow, timerCounterHigh,
    timerCounterLow, mmuPageTable, mmuPrevRegister, mmuWatchdogRegister, mmuCauseRegister,
    mmuVaRegisterLow, mmuVaRegisterHigh, romEnable, romBase, romSize, diskBuf, diskSectorSize,
    diskCmd, diskStat, diskLba, uartRx, uartTx, uartStat]
  iterate 13 refine (if_neg (by omega)).trans ?_
  -- the ROM test also asks for `rom_enable`
  refine (if_neg (fun hRom => by obtain ⟨hBase, hTop, -⟩ := hRom; omega)).trans ?_
  iterate 8 refine (if_neg (by omega)).trans ?_
  rfl

/-- Outside the device page a read changes nothing. -/
theorem readEffect_of_not_device (b : Board) {addr : Nat} (hDev : ¬ InDevicePage addr) :
    readEffect b addr = b := by
  unfold InDevicePage at hDev
  unfold readEffect
  have hRx : addr ≠ uartRx := by unfold uartRx; omega
  rw [if_neg hRx]

/-- Outside the device page a write changes at most the RAM byte. -/
theorem writePhysical_of_not_device (b : Board) {addr : Nat} (byte : Byte)
    (hDev : ¬ InDevicePage addr) :
    writePhysical b addr byte =
      if addr < ramSize then { b with ram := Function.update b.ram addr byte } else b := by
  unfold InDevicePage at hDev
  unfold writePhysical
  simp only [plicInterruptLines, timerCtrl, timerLatchHigh, timerLatchLow, timerCounterHigh,
    timerCounterLow, mmuPageTable, mmuPrevRegister, mmuCauseRegister, romEnable, diskBuf,
    diskSectorSize, diskCmd, diskLba, uartTx]
  iterate 15 refine (if_neg (by omega)).trans ?_
  rfl

end Xv6502.Emulator
