import Mathlib.Data.BitVec

/-!
# The Memory Map of the Machine

The constants of `machine/machine.h`: the physical addresses of the memory mapped
devices, the sizes of the machine, and the values of its status and pin registers.

Physical addresses are natural numbers (the emulator computes them in `uint32_t` and
they stay below `2 ^ 20`, or are the all-ones value of an unmapped access); bytes and
CPU addresses are bit vectors of the emulator's widths.
-/

namespace Xv6502.Emulator

/-- `uint8_t`. -/
abbrev Byte := BitVec 8

/-- `uint16_t`: a CPU (virtual) address or a 16-bit register pair. -/
abbrev Word := BitVec 16

/-- A physical frame number, as held in a page-table entry. -/
abbrev Frame := Byte

/-- A segment of the 64 KB virtual space: the top four bits of a CPU address. -/
abbrev Segment := Fin 16

instance neZeroSegments : NeZero 16 := ⟨by decide⟩

/-! ## §1 Physical addresses -/

/-- `RAM_SIZE`: 1 MB. -/
def ramSize : Nat := 0x100000

/-- `DISK_BUF`: the 512 byte sector buffer. -/
def diskBuf : Nat := 0xfc00
/-- `DISK_STAT`. -/
def diskStat : Nat := 0xfe00
/-- `DISK_CMD`. -/
def diskCmd : Nat := 0xfe01
/-- `DISK_LBA`: low byte here, high byte at the next address. -/
def diskLba : Nat := 0xfe02

/-- `UART_TX`. -/
def uartTx : Nat := 0xfe10
/-- `UART_RX`. -/
def uartRx : Nat := 0xfe11
/-- `UART_STAT`. -/
def uartStat : Nat := 0xfe12

/-- `MMU_PAGE_TABLE`: 16 bytes. -/
def mmuPageTable : Nat := 0xfe20
/-- `MMU_PREV_REGISTER`. -/
def mmuPrevRegister : Nat := 0xfe40
/-- `MMU_WATCHDOG_REGISTER`. -/
def mmuWatchdogRegister : Nat := 0xfe41
/-- `MMU_CAUSE_REGISTER`. -/
def mmuCauseRegister : Nat := 0xfe42
/-- `MMU_VA_REGISTER_LOW`. -/
def mmuVaRegisterLow : Nat := 0xfe43
/-- `MMU_VA_REGISTER_HIGH`. -/
def mmuVaRegisterHigh : Nat := 0xfe44

/-- `TIMER_LATCH_LOW`. -/
def timerLatchLow : Nat := 0xfe52
/-- `TIMER_LATCH_HIGH`. -/
def timerLatchHigh : Nat := 0xfe53
/-- `TIMER_COUNTER_LOW`. -/
def timerCounterLow : Nat := 0xfe54
/-- `TIMER_COUNTER_HIGH`. -/
def timerCounterHigh : Nat := 0xfe55
/-- `TIMER_CTRL`. -/
def timerCtrl : Nat := 0xfe56

/-- `PLIC_INTERRUPT_LINES`. -/
def plicInterruptLines : Nat := 0xfe60

/-- `ROM_ENABLE`. -/
def romEnable : Nat := 0xfef0
/-- `ROM_BASE`. -/
def romBase : Nat := 0xff00
/-- `ROM_SIZE`. -/
def romSize : Nat := 0x100

/-! ## §2 Sizes and register values -/

/-- `DISK_SECTOR_SIZE`. -/
def diskSectorSize : Nat := 512
/-- `DISK_LATENCY`: steps a sector transfer takes. -/
def diskLatency : Int := 200
/-- `MMU_LAST_SEGMENT`. -/
def mmuLastSegment : Segment := 15
/-- The frame number `MMU_LAST_SEGMENT` is compared with and mapped to. -/
def kernelFrame : Frame := 15
/-- `MMU_FRAME_INVALID`: the page-table entry of an unmapped segment. -/
def mmuFrameInvalid : Frame := 0xff

/-- `UART_STATUS_RX_READY`. -/
def uartStatusRxReady : Byte := 0x01
/-- `UART_STATUS_TX_READY`. -/
def uartStatusTxReady : Byte := 0x02

/-- `DISK_CMD_READ`. -/
def diskCmdRead : Byte := 1
/-- `DISK_CMD_WRITE`. -/
def diskCmdWrite : Byte := 2

/-- `DISK_STATUS_BUSY`. -/
def diskStatusBusy : Byte := 1
/-- `DISK_STATUS_READY`. -/
def diskStatusReady : Byte := 2
/-- `DISK_STATUS_ERROR`. -/
def diskStatusError : Byte := 3

/-- `TIMER_ENABLE_FALSE`. -/
def timerEnableFalse : Byte := 0
/-- `TIMER_ENABLE_TRUE`. -/
def timerEnableTrue : Byte := 1

/-- `PLIC_PIN_TIMER`. -/
def plicPinTimer : Byte := 0x01
/-- `PLIC_PIN_UART_RX`. -/
def plicPinUartRx : Byte := 0x02
/-- `PLIC_PIN_DISK`. -/
def plicPinDisk : Byte := 0x08

/-- `MMU_CAUSE_V`: an access through an invalid page-table entry. -/
def mmuCauseV : Byte := 0x01
/-- `MMU_CAUSE_INVALID_OPCODE`. -/
def mmuCauseInvalidOpcode : Byte := 0x10
/-- `MMU_CAUSE_PRIVILEGE`: RTI, PLP or SEI in user space. -/
def mmuCausePrivilege : Byte := 0x20

end Xv6502.Emulator
