import Xv6502.Lib.MaskedProgram
import Xv6502.Lib.Transition
import Xv6502.Kernel.Scheduler

/-!
# The Interrupt Mask

`sleep`, `wakeup` and `scheduler` are to be called with interrupts off, and `INTER_ON` and
`INTER_OFF` do not nest: a function that turns interrupts on when it returns turns them on for its
caller too. This module follows the I flag through the kernel: every function by its control flow,
with the places where it turns interrupts on and off and calls one of the three, the processes
switched at any time in favour of any other, and interrupts wherever the flag allows them.

All callers keep to the rule but one: `proc_dump`, reached by Ctrl-D from the UART handler, turns
interrupts on in the middle of `device_interrupt`, in front of the disk handler. And `fs_init`,
reached by the first `kernel_irq`, does so in front of `device_interrupt` itself.
-/

namespace Xv6502.Kernel

open Xv6502.Emulator Xv6502.Lib

/-! ## §1 The functions of the kernel -/

/-- The functions that must be called with interrupts off. -/
inductive Routine where
  | sleep
  | wakeup
  | scheduler
  deriving DecidableEq, Repr

/-- What a call of `device_interrupt` finds, each at the moment it looks. -/
structure Pins where
  /-- `which_device & PLIC_PIN_TIMER`. -/
  timer : Bool
  /-- `systicks` has come to `next_wakeup_call`. -/
  expired : Bool
  /-- `which_device & PLIC_PIN_UART_RX`. -/
  uartRx : Bool
  /-- `UART_STATUS_RX_READY`. -/
  rxReady : Bool
  data : Byte
  /-- The ring buffer has room. -/
  room : Bool
  /-- `which_device & PLIC_PIN_DISK`. -/
  disk : Bool
  /-- `DISK_STATUS_READY`, and a buffer in the queue. -/
  diskReady : Bool
  /-- The sector was the last one of its block. -/
  blockDone : Bool
  deriving DecidableEq, Repr

/-- `CTRL('D')`. -/
def ctrlD : Byte := 0x04

/-- The control flow of a function. -/
abbrev Code := Masked.Prog Routine Pins

namespace Code

open Masked.Prog

/-- `panic`. -/
def panic : Code := seq mask stop

/-- `wakeup`. -/
def wakeup : Code := enter .wakeup

/-- `scheduler`: any number of idle loops, then the switch. -/
def scheduler : Code := seq (enter .scheduler) (seq (loop (seq unmask mask)) switch)

/-- `sleep`. -/
def sleep : Code := seq (enter .sleep) scheduler

/-- `yield`. -/
def yield : Code := seq mask (seq scheduler unmask)

/-- `proc_dump`. -/
def procDump : Code := seq mask unmask

/-- `sys_exit`. -/
def sysExit : Code :=
  either panic (seq mask (seq wakeup (seq (loop (either skip wakeup)) (seq scheduler panic))))

/-- `sys_wait`; it returns with interrupts off if the exit code cannot be copied. -/
def sysWait : Code := seq mask (seq (loop sleep) (either skip unmask))

/-- `sys_kill`. -/
def sysKill : Code := either skip (seq mask unmask)

/-- `sys_sleep`. -/
def sysSleep : Code := either skip (seq mask (seq (loop sleep) unmask))

/-- `sys_fork`. -/
def sysFork : Code := either skip (either panic (seq yield (loop yield)))

/-- `console_read`. -/
def consoleRead : Code := loop (seq mask (either (seq sleep unmask) unmask))

/-- `uart_putc`. -/
def uartPutc : Code := loop yield

/-- `console_write`. -/
def consoleWrite : Code := loop uartPutc

/-- `sys_read`: the other drivers panic. -/
def sysRead : Code := either skip (either consoleRead panic)

/-- `sys_write`. -/
def sysWrite : Code := either skip (either consoleWrite panic)

/-- `buffer_get`; its tail calls are a loop. -/
def bufferGet : Code :=
  seq (loop (seq mask (seq sleep unmask))) (seq mask (either unmask panic))

/-- `disk_submit`. -/
def diskSubmit : Code := seq mask (seq sleep unmask)

/-- `buffer_read`. -/
def bufferRead : Code := seq bufferGet (either skip diskSubmit)

/-- `buffer_write`. -/
def bufferWrite : Code := either panic diskSubmit

/-- `buffer_release`. -/
def bufferRelease : Code := either panic (seq mask (seq wakeup unmask))

/-- `block_zero`. -/
def blockZero : Code := seq bufferRead (seq bufferWrite bufferRelease)

/-- `block_alloc`. -/
def blockAlloc : Code :=
  seq (loop (seq bufferRead bufferRelease))
    (either skip (seq bufferRead (seq bufferWrite (seq bufferRelease blockZero))))

/-- The part of `fs_init` that writes a message to a new block. -/
def fsMessage : Code := seq blockAlloc (seq bufferRead (seq bufferWrite bufferRelease))

/-- `fs_init`. -/
def fsInit : Code :=
  seq bufferRead (seq bufferRelease (either panic (seq fsMessage fsMessage)))

/-- `timer_interrupt`. -/
def timerInterrupt (d : Pins) : Code := either panic (if d.expired then wakeup else skip)

/-- `uart_rx_interrupt`. -/
def uartRxInterrupt (d : Pins) : Code :=
  if d.rxReady then if d.data = ctrlD then procDump else if d.room then wakeup else skip else skip

/-- `disk_interrupt`. -/
def diskInterrupt (d : Pins) : Code := if d.diskReady && d.blockDone then wakeup else skip

/-- `device_interrupt`. -/
def deviceInterrupt (d : Pins) : Code :=
  seq (if d.timer then timerInterrupt d else skip)
    (seq (if d.uartRx then uartRxInterrupt d else skip) (if d.disk then diskInterrupt d else skip))

/-- `kernel_vector`. -/
def kernelVector : Code := await deviceInterrupt

/-- `kernel_prologue`. The first process that comes here, "init", mounts the file system; it cannot
    be killed. -/
def kernelPrologue (first : Bool) : Code := if first then fsInit else either sysExit skip

/-- `kernel_epilogue`. -/
def kernelEpilogue : Code := seq mask (either sysExit skip)

/-- The system calls. -/
def syscall : Code :=
  either sysFork (either sysExit (either sysWait (either sysKill (either sysSleep (either sysRead
    (either sysWrite (either panic skip)))))))

/-- `kernel_brk`. -/
def kernelBrk (first : Bool) : Code :=
  seq (kernelPrologue first) (seq unmask (seq (either sysExit syscall) kernelEpilogue))

/-- `kernel_irq`. -/
def kernelIrq (first : Bool) : Code :=
  seq (kernelPrologue first) (await fun d =>
    seq (deviceInterrupt d)
      (seq unmask (seq (if d.timer then either yield skip else skip) kernelEpilogue)))

/-- `kernel_nmi`. -/
def kernelNmi (first : Bool) : Code := seq (kernelPrologue first) (either panic sysExit)

/-- `main` behind the initialization: the first call of `scheduler` goes on to user mode. -/
def main : Code :=
  seq (enter .scheduler) (seq (loop (seq unmask mask)) kernelEpilogue)

end Code

/-! ## §2 The system -/

/-- How the kernel is entered from user mode. -/
inductive Entry where
  | brk
  | irq
  | nmi
  deriving DecidableEq, Repr

/-- What the trampolines call. -/
def Entry.code (first : Bool) : Entry → Code
  | .brk => Code.kernelBrk first
  | .irq => Code.kernelIrq first
  | .nmi => Code.kernelNmi first

/-- The kernel threads of the processes. A process without frames is in user mode. -/
structure Threads where
  running : Slot
  threads : Slot → Masked.Thread Routine Pins
  /-- The static variable of `kernel_prologue`. -/
  first : Bool

namespace Threads

/-- What can happen next. -/
inductive Event where
  | act (a : Masked.Act Routine Pins)
  /-- A trap from user mode; the CPU sets the I flag. -/
  | trap (e : Entry)
  /-- `context_switch` to a process that has called `scheduler` before. -/
  | resume (p : Slot)
  /-- `first_context_switch`; the flags of the new process come from the byte that its copy of the
      stack happens to hold. -/
  | start (p : Slot) (masked : Bool)

/-- The running process gives the CPU away. -/
def Leaves (s : Threads) (k : List (Masked.Frame Routine Pins)) (m : Bool) : Prop :=
  s.threads s.running = ⟨.run .switch :: k, m⟩

/-- The step relation of the events. -/
inductive Step (s : Threads) : Event → Threads → Prop
  | act {a : Masked.Act Routine Pins} {r : Masked.Thread Routine Pins}
      (h : Masked.Thread.Step Code.kernelVector (s.threads s.running) a r) :
      Step s (.act a) { s with threads := Function.update s.threads s.running r }
  | trap (e : Entry) (h : (s.threads s.running).frames = []) :
      Step s (.trap e)
        { s with
          threads := Function.update s.threads s.running ⟨[.run (e.code s.first)], true⟩
          first := false }
  | resume {k : List (Masked.Frame Routine Pins)} {m : Bool} (p : Slot) (h : s.Leaves k m)
      (hKernel : (s.threads p).frames ≠ []) :
      Step s (.resume p)
        { s with threads := Function.update s.threads s.running ⟨k, m⟩, running := p }
  | start {k : List (Masked.Frame Routine Pins)} {m : Bool} (p : Slot) (masked : Bool)
      (h : s.Leaves k m) (hOther : p ≠ s.running) :
      Step s (.start p masked)
        { s with
          threads := Function.update (Function.update s.threads s.running ⟨k, m⟩) p
            ⟨[.run Code.kernelEpilogue], masked⟩
          running := p }

/-- `main`, with interrupts off since `crt0.s`. -/
def boot : Threads where
  running := 0
  threads := fun i => if i = 0 then ⟨[.run Code.main], true⟩ else ⟨[], true⟩
  first := true

end Threads

/-! ## §3 What the functions do to the mask -/

namespace Pins

/-- The timer wakes processes up. -/
def timerWakes (d : Pins) : Bool := d.timer && d.expired

/-- The UART handler wakes processes up. -/
def uartWakes (d : Pins) : Bool := d.uartRx && d.rxReady && d.data != ctrlD && d.room

/-- The UART handler prints the process table. -/
def dumps (d : Pins) : Bool := d.uartRx && d.rxReady && d.data == ctrlD

/-- The disk handler wakes a process up. -/
def diskWakes (d : Pins) : Bool := d.disk && d.diskReady && d.blockDone

/-- What `device_interrupt` may find: with interrupts off, not Ctrl-D together with the end of a
    block; with interrupts on, nothing to wake a process up for. -/
def Harmless (d : Pins) (masked : Bool) : Prop :=
  if masked then ¬ (d.dumps = true ∧ d.diskWakes = true)
  else d.timerWakes = false ∧ d.uartWakes = false ∧ d.diskWakes = false

end Pins

namespace Code

variable {post : Bool → Prop} {m : Bool}

end Code

/-! ## §4 Runs -/

namespace Threads

/-- The thread meets the preconditions of what it has to do. -/
def InOrder (t : Masked.Thread Routine Pins) : Prop :=
  Masked.Thread.Ok Pins.Harmless t.frames t.masked

variable {s t : Threads} {e : Event} {es : List Event}

/-- The rest of a thread that gives the CPU away is in order. -/
theorem Leaves.rest {k : List (Masked.Frame Routine Pins)} {m : Bool} (h : s.Leaves k m)
    (hOrder : ∀ p, InOrder (s.threads p)) : InOrder ⟨k, m⟩ := by
  have hRunning := hOrder s.running
  rw [h] at hRunning
  exact hRunning

/-- The disk has finished a block. -/
def blockRead : Pins where
  timer := false
  expired := false
  uartRx := false
  rxReady := false
  data := 0
  room := true
  disk := true
  diskReady := true
  blockDone := true

end Threads

end Xv6502.Kernel
