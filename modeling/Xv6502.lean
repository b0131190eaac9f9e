import Xv6502.Kernel.Window
import Xv6502.Kernel.DeviceInterrupt
import Xv6502.Kernel.TimeSlice
import Xv6502.Kernel.FrameRuns
import Xv6502.Emulator.TrapEntry
import Xv6502.Block.Requests
import Xv6502.Block.Refinement
import Xv6502.Block.Queue
import Xv6502.Kernel.ProcessTree
import Xv6502.Kernel.Killing
import Xv6502.Kernel.TimedSleep
import Xv6502.Kernel.RoundRobin
import Xv6502.Kernel.SchedulerRefinement
import Xv6502.Kernel.ForkStack
import Xv6502.Kernel.SuspendedWindows
import Xv6502.Kernel.InterruptMask
import Xv6502.Kernel.UartBuffer
import Xv6502.Block.AllocLoop
import Xv6502.Block.DiskStatus
import Xv6502.Kernel.HeapBreak
import Xv6502.Kernel.UserCopy
import Xv6502.Block.CacheLinks
import Xv6502.Emulator.Violation
import Xv6502.Boot.BootChain
import Xv6502.Block.AllocatorRuns
import Xv6502.Kernel.ForkCopies
import Xv6502.Kernel.UserMode
import Xv6502.Kernel.MemoryAccounts
import Xv6502.Emulator.Preemption
import Xv6502.Emulator.TimerPeriod
import Xv6502.Kernel.MemoryCopy
import Xv6502.Kernel.Printk
import Xv6502.Block.Replacement
import Xv6502.Kernel.ConsoleWrite
import Xv6502.Kernel.ConsoleRead
import Xv6502.Kernel.FirstDispatch
import Xv6502.Kernel.KernelVector
import Xv6502.Block.Liveness
import Xv6502.Kernel.TrapRoundTrip
