import Xv6502.Kernel.Scheduler
import Xv6502.Emulator.Board
import Xv6502.Lib.CyclicSearch

/-!
# The Life of the Processes

The process table of `kernel/proc.c` with the system calls that create, end, wait for, kill
and delay processes, the traps of `kernel/trap.c` around them, and the timer interrupt of
`kernel/timer.c` and the wakeups of the device drivers between any two steps.

A PCB is a record of its process. A step is what the running process does from one place
where interrupts or other processes can come in between to the next; where it stands is
its `Place`. The bodies of the system calls that leave the process table alone appear as
what they can do to it: sleep, yield, change the memory of their process and return.
-/

namespace Xv6502.Kernel

open Xv6502.Emulator Xv6502.Lib

/-! ## §1 Processes -/

/-- The contents of a frame. -/
abbrev Page := Nat → Byte

/-- A tick count, `uint32_t`. -/
abbrev Ticks := BitVec 32

/-- What a process sleeps on: the pointer given to `sleep`. -/
inductive Channel where
  | null
  /-- An entry of `proc_table`. -/
  | proc (p : Slot)
  /-- `&systicks`. -/
  | systicks
  /-- A buffer of the cache, or the ring buffer of the console. -/
  | device (n : Nat)
  deriving DecidableEq, Repr

/-- How the kernel is entered from user mode. -/
inductive Trap where
  /-- A `BRK`, with the system call number in Y. -/
  | brk (number : Byte)
  | irq
  /-- An NMI, with the cause and the watchdog register of the MMU. -/
  | nmi (cause watchdog : Byte)
  deriving DecidableEq, Repr

/-- Where a process stands. -/
inductive Place where
  | user
  /-- A new process: `kernel_epilogue`, then user mode. -/
  | fresh
  /-- In `fs_init`, called by the prologue of the trap. -/
  | mounting (trap : Trap)
  /-- Behind `kernel_prologue`. -/
  | trapped (trap : Trap)
  /-- Behind `yield()` in `kernel_irq`. -/
  | irqYield
  /-- At the page loop of `sys_fork`, with its locals `child`, `child_pid` and `segment`. -/
  | forking (child : Slot) (childPid : Word) (segment : Nat)
  /-- Behind `sleep(current_process)` in `sys_wait`, with its local `user_exit_code`. -/
  | waiting (userExitCode : Word)
  /-- At the loop of `sys_sleep`, with its locals `ticks` and `total` and the `systicks` the
      call began at. -/
  | timing (start ticks total : Ticks)
  /-- In a system call that does not touch the process table. -/
  | serving
  /-- The system call has returned to `kernel_brk`. -/
  | returning (value : Word)
  /-- Behind `scheduler()` in `sys_exit`. -/
  | exited
  deriving DecidableEq, Repr

/-- A `Proc` with its PCB. The context keeps A and X as one word, A below. -/
structure Proc where
  state : ProcState
  pid : Word
  uid : Byte
  /-- `NULL` for "init". -/
  parent : Option Slot
  /-- The pid of the process that killed this one. -/
  killed : Word
  channel : Channel
  exitCode : Byte
  ax : Word
  top : Word
  /-- The frames of the page table. -/
  pages : Segment → Option Page
  point : Place

/-- `proc_get_killed(p) != 0 && proc_get_pid(p) != 1`. -/
def Proc.doomed (p : Proc) : Bool := p.killed != 0 && p.pid != 1

/-- `proc_set_a`. -/
def Proc.setA (p : Proc) (a : Byte) : Proc := { p with ax := (p.ax &&& 0xff00) ||| a.setWidth 16 }

/-- Why `sys_exit` is called. -/
inductive ExitCause where
  /-- By the process itself, with the code in A. -/
  | called (code : Byte)
  | killed
  /-- By `kernel_nmi`. -/
  | fault (cause : Byte)
  /-- By `kernel_brk`, for a number without a system call. -/
  | unknown
  deriving DecidableEq, Repr

/-- The exit code of a process. -/
def ExitCause.code : ExitCause → Byte
  | .called code => code
  | .killed => 1
  | .fault cause => cause
  | .unknown => 1

/-- What has happened in a run. -/
inductive Notice where
  /-- `sys_fork` of a process has built a child. -/
  | forked (parent child : Word)
  | exited (pid : Word) (cause : ExitCause)
  /-- `sys_wait` of a process has freed a child and returns the result. -/
  | reaped (parent child result : Word)
  /-- `sys_kill` has found its victim. -/
  | killed (pid : Word)
  /-- `sys_sleep`, called at `start` for some ticks, returns 0. -/
  | slept (start ticks now : Ticks)
  deriving DecidableEq, Repr

/-- The processes and the variables of the kernel they share. -/
structure Table where
  procs : Slot → Proc
  /-- `current_process`. -/
  current : Slot
  /-- A process has been dispatched and has not called `scheduler()` again. -/
  running : Bool
  roundRobinIndex : Slot
  /-- `next_pid` of `pid_alloc`. -/
  nextPid : Word
  systicks : Ticks
  nextWakeupCall : Ticks
  /-- `kernel_prologue` has called `fs_init`. -/
  mounted : Bool
  /-- What has happened so far, the last first. -/
  log : List Notice

/-- `init_process`: `run_init_process` finds the first slot unused. -/
def initProcess : Slot := 0

namespace Table

/-- The running process. -/
def self (s : Table) : Proc := s.procs s.current

/-- Change a process. -/
def setProc (s : Table) (i : Slot) (f : Proc → Proc) : Table :=
  { s with procs := Function.update s.procs i (f (s.procs i)) }

/-- Change the running process. -/
def setSelf (s : Table) (f : Proc → Proc) : Table := s.setProc s.current f

/-- The running process moves on to a point. -/
def goto (s : Table) (point : Place) : Table := s.setSelf fun p => { p with point := point }

/-- Record a notice. -/
def note (s : Table) (notice : Notice) : Table := { s with log := notice :: s.log }

/-- The first slot with a test, in the order of the loops over `proc_table`. -/
def find (test : Slot → Bool) : Option Slot := search test maxProcCount 0

/-! ## §2 Sleeping, waking and switching -/

/-- `wakeup`. -/
def wakeup (s : Table) (channel : Channel) : Table :=
  { s with
    procs := fun i =>
      if (s.procs i).state = .sleeping ∧ (s.procs i).channel = channel then
        { s.procs i with state := .ready }
      else s.procs i }

/-- The running process calls `scheduler()` in a state, to be continued at a point. -/
def suspend (s : Table) (state : ProcState) (point : Place) : Table :=
  { s.setSelf fun p => { p with state := state, point := point } with running := false }

/-- `yield` up to the switch. -/
def yield (s : Table) (point : Place) : Table := s.suspend .ready point

/-- `sleep` up to the switch. -/
def sleep (s : Table) (channel : Channel) (point : Place) : Table :=
  (s.setSelf fun p => { p with channel := channel }).suspend .sleeping point

/-- The switch of `scheduler` to process `p`. A process that comes out of `sleep` has its
    channel set to `NULL` at once; it is `NULL` already for one that comes out of `yield` and for
    a new one. -/
def dispatch (s : Table) (p : Slot) : Table :=
  -- the scan goes on behind the process it has found
  { s.setProc p fun q => { q with state := .running, channel := .null } with
    current := p
    running := true
    roundRobinIndex := p + 1 }

/-- `timer_interrupt`; the kernel panics when `systicks` wraps around. -/
def timerInterrupt (s : Table) : Option Table :=
  let now := s.systicks + 1
  if now = 0 then none
  -- the sleepers look at the clock themselves; each that sleeps on stores its time again
  else if s.nextWakeupCall ≤ now then
    some { ({ s with systicks := now }).wakeup .systicks with nextWakeupCall := 0xffffffff }
  else some { s with systicks := now }

/-! ## §3 Exit -/

/-- A turn of the loop of `sys_exit` that gives the children of process `me` to "init". -/
def adopt (me : Slot) (s : Table) (i : Slot) : Table :=
  if (s.procs i).state ≠ .unused ∧ (s.procs i).parent = some me then
    let s := s.setProc i fun p => { p with parent := some initProcess }
    -- "init" may be waiting for a child already
    if (s.procs i).state = .zombie then s.wakeup (.proc initProcess) else s
  else s

/-- The loop of `sys_exit`. -/
def reparent (s : Table) (me : Slot) : Table := (List.finRange maxProcCount).foldl (adopt me) s

/-- `wakeup(my_parent)` of `sys_exit`. -/
def wakeParent (s : Table) : Option Slot → Table
  | none => s.wakeup .null
  | some q => s.wakeup (.proc q)

/-- `sys_exit` up to the switch; "init" must not exit. -/
def exit (s : Table) (cause : ExitCause) : Option Table :=
  if s.current = initProcess then none
  else
    let s := s.setSelf fun p =>
      { p with pages := fun _ => none, exitCode := p.ax.setWidth 8 }
    let s := s.wakeParent s.self.parent
    -- the process is a zombie before its children are given away
    let s := s.suspend .zombie .exited
    some ((s.reparent s.current).note (.exited s.self.pid cause))

/-- `kernel_epilogue` and the return to user mode. -/
def epilogue (s : Table) : Option Table :=
  if s.self.doomed then (s.setSelf fun p => p.setA 1).exit .killed else some (s.goto .user)

/-- A trap from user mode up to the end of `kernel_prologue`. -/
def prologue (s : Table) (trap : Trap) (ax : Word) : Option Table :=
  if s.self.doomed then (s.setSelf fun p => p.setA 1).exit .killed
  else
    let s := s.setSelf fun p => { p with ax := ax }
    -- the first trap of all mounts the file system
    if s.mounted then some (s.goto (.trapped trap))
    else some { s.goto (.mounting trap) with mounted := true }

/-! ## §4 Wait and kill -/

/-- `copy_to_user` of one byte to the running process. -/
def copyToUser (s : Table) (dest : Word) (value : Byte) : Option Table :=
  if s.self.top ≤ dest then none
  else
    -- below the top a segment may still be unmapped
    match s.self.pages (segmentOf dest) with
    | none => none
    | some page =>
      some (s.setSelf fun p =>
        { p with
          pages := Function.update p.pages (segmentOf dest)
            (some (Function.update page (dest.toNat % 0x1000) value)) })

/-- The test of `sys_wait`, `sys_exit` for a child of the running process. -/
def isChild (s : Table) (i : Slot) : Bool :=
  (s.procs i).state != .unused && (s.procs i).parent == some s.current

/-- `proc_free`. -/
def free (s : Table) (i : Slot) : Table := s.setProc i fun p => { p with state := .unused }

/-- `sys_wait` frees a zombie and returns its pid, through the local `uint8_t res`. -/
def reap (s : Table) (i : Slot) : Table :=
  let res : Byte := (s.procs i).pid.setWidth 8
  ((s.free i).goto (.returning (res.setWidth 16))).note
    (.reaped s.self.pid (s.procs i).pid (res.setWidth 16))

/-- A turn of the endless loop of `sys_wait`, with its locals `user_exit_code` and
    `has_children`. -/
def waitTurn (s : Table) (userExitCode : Word) (hasChildren : Bool) : Table :=
  match find fun i => s.isChild i && (s.procs i).state == .zombie with
  | some i =>
    -- a null pointer asks for no code
    if userExitCode = 0 then s.reap i
    else
      match s.copyToUser userExitCode (s.procs i).exitCode with
      | none => s.goto (.returning (-1))
      | some s => s.reap i
  | none =>
    -- `has_children` stays set over a sleep, as the local of the source does
    if hasChildren || (find s.isChild).isSome then s.sleep (.proc s.current) (.waiting userExitCode)
    else s.goto (.returning (-1))

/-- The test of `sys_kill` for its victim. -/
def isVictim (s : Table) (pid : Word) (i : Slot) : Bool :=
  (s.procs i).state != .unused && (s.procs i).state != .zombie && (s.procs i).pid == pid &&
    (s.procs i).uid == s.self.uid

/-- What `sys_kill` does to its victim. -/
def mark (s : Table) (i : Slot) : Table :=
  (s.setProc i fun p =>
    { p with
      killed := s.self.pid
      -- the victim is woken up, in whatever it sleeps
      state := if p.state = .sleeping then .ready else p.state }).note (.killed (s.procs i).pid)

/-- `sys_kill`. -/
def kill (s : Table) : Table :=
  -- "init" cannot be killed
  if s.self.ax ≤ 1 then s.goto (.returning (-1))
  else
    match find (s.isVictim s.self.ax) with
    | some i => (s.mark i).goto (.returning 0)
    | none => s.goto (.returning (-1))

/-! ## §5 Fork and sleep -/

/-- The child of `sys_fork`: the copy of the kernel stack frame takes over the PCB of its parent
    but for the pid, the parent, the return value and the page table. -/
def newborn (s : Table) : Proc :=
  { s.self with
    state := .building
    pid := s.nextPid
    parent := some s.current
    ax := 0
    pages := fun _ => none
    point := .fresh }

/-- `proc_alloc` with the copy of the kernel stack frame in `sys_fork`. -/
def create (s : Table) (child : Slot) : Table :=
  { (s.setProc child fun _ => s.newborn).note (.forked s.self.pid s.nextPid) with
    nextPid := s.nextPid + 1 }

/-- `sys_fork` up to its first `yield()`; `frame` tells whether `kalloc()` finds a frame for the
    kernel stack. `pid_alloc` panics when the pids have run out. -/
def fork (s : Table) (frame : Bool) : Option Table :=
  match find fun i => (s.procs i).state == .unused with
  | none => some (s.goto (.returning (-1)))
  | some child =>
    if frame then
      -- `pid_alloc` has given out all pids and panics
      if s.nextPid = 0 then none
      else some ((s.create child).yield (.forking child s.nextPid 0))
    else some (s.goto (.returning (-1)))

/-- The next mapped segment of the page loop of `sys_fork`. -/
def nextMapped (pages : Segment → Option Page) (segment : Nat) : Option Segment :=
  (List.finRange 16).find? fun k => decide (segment ≤ k.val) && (pages k).isSome

/-- `sys_fork` from a turn of its page loop to the next `yield()` or its end; `frame` tells
    whether `kalloc()` finds a frame for the page. -/
def clone (s : Table) (child : Slot) (childPid : Word) (segment : Nat) (frame : Bool) : Table :=
  match nextMapped s.self.pages segment with
  | some k =>
    if frame then
      (s.setProc child fun p => { p with pages := Function.update p.pages k (s.self.pages k) }).yield
        (.forking child childPid (k.val + 1))
    -- the slot is given back; what happens to its frames is in `Frames`
    else (s.free child).goto (.returning (-1))
  | none => (s.setProc child fun p => { p with state := .new }).goto (.returning childPid)

/-- `total` of `sys_sleep`. -/
def sleepTotal (systicks ticks : Ticks) : Ticks :=
  let total := ticks + systicks
  if total < systicks then 0xffffffff else total

/-- A turn of the endless loop of `sys_sleep`. -/
def sleepTurn (s : Table) (start ticks total : Ticks) : Table :=
  -- checked before the first sleep and behind each
  if total ≤ s.systicks then (s.note (.slept start ticks s.systicks)).goto (.returning 0)
  else
    { s with nextWakeupCall := if total < s.nextWakeupCall then total else s.nextWakeupCall }.sleep
      .systicks (.timing start ticks total)

/-- `sys_sleep` up to its first `sleep()` or its end; `ticks` is the argument, if
    `syscall_populate_argument` can read it. -/
def sysSleep (s : Table) (ticks : Option Ticks) : Table :=
  match ticks with
  | none => s.goto (.returning (-1))
  | some ticks => s.sleepTurn s.systicks ticks (sleepTotal s.systicks ticks)

/-! ## §6 The steps -/

/-- The entries of `syscalls_table`. -/
inductive Syscall where
  | fork
  | exit
  | wait
  | kill
  | sbrk
  | sleep
  | getpid
  | close
  | open
  | write
  | read
  | ioctl
  deriving DecidableEq, Repr

/-- `syscalls_table`, as `syscall_init` fills it. -/
def syscallsTable (number : Byte) : Option Syscall :=
  if number = 0x46 then some .fork
  else if number = 0x45 then some .exit
  else if number = 0x57 then some .wait
  else if number = 0x4b then some .kill
  else if number = 0x42 then some .sbrk
  else if number = 0x53 then some .sleep
  else if number = 0x47 then some .getpid
  else if number = 0x63 then some .close
  else if number = 0x6f then some .open
  else if number = 0x77 then some .write
  else if number = 0x72 then some .read
  else if number = 0x69 then some .ioctl
  else none

/-- `kernel_brk` up to the next place it can be left at; `sys_fork` and `sys_sleep` begin by
    events of their own. -/
def kernelBrk (s : Table) (number : Byte) : Option Table :=
  match syscallsTable number with
  -- no such system call: the process ends with code 1
  | none => (s.setSelf fun p => { p with ax := 1 }).exit .unknown
  | some .exit => s.exit (.called (s.self.ax.setWidth 8))
  | some .wait => some (s.waitTurn s.self.ax false)
  | some .kill => some s.kill
  | some .getpid => some (s.goto (.returning s.self.pid))
  | some .fork | some .sleep => none
  | some _ => some (s.goto .serving)

/-- `kernel_nmi` reports the cause instead of a panic. -/
def nmiReported (cause watchdog : Byte) : Bool :=
  if cause &&& 0x01 ≠ 0 then true
  else if cause &&& 0x0e ≠ 0 then false
  else if cause &&& 0x20 ≠ 0 then watchdog == 0x78 || watchdog == 0x28 || watchdog == 0x40
  else cause &&& 0x10 ≠ 0

/-- `kernel_nmi` behind its prologue. -/
def kernelNmi (s : Table) (cause watchdog : Byte) : Option Table :=
  if nmiReported cause watchdog then
    (s.setSelf fun p => { p with ax := cause.setWidth 16 }).exit (.fault cause)
  else none

/-- What can happen next. -/
inductive Event where
  /-- `scheduler()` dispatches a process. -/
  | dispatch (p : Slot)
  /-- A timer interrupt, taken in the kernel or from user mode. -/
  | tick
  /-- An interrupt handler or a driver wakes the sleepers on a device up. -/
  | wakeup (device : Nat)
  /-- User code stores a byte. -/
  | store (addr : Word) (value : Byte)
  /-- A trap from user mode, with the A and X registers. -/
  | trap (trap : Trap) (ax : Word)
  /-- `fs_init` or the body of a system call sleeps. -/
  | block (device : Nat)
  /-- `fs_init` returns. -/
  | mounted
  /-- `kernel_irq` calls `yield()`. -/
  | preempt
  /-- The running process goes on in the kernel. -/
  | proceed
  /-- `sys_fork` begins. -/
  | fork (frame : Bool)
  /-- `sys_fork` goes on with its page loop. -/
  | clone (frame : Bool)
  /-- `sys_sleep` begins. -/
  | sleep (ticks : Option Ticks)
  /-- The body of a system call yields. -/
  | pause
  /-- The body of a system call changes the memory of its process. -/
  | remap (top : Word) (pages : Segment → Option Page)
  /-- The body of a system call returns. -/
  | finish (value : Word)

/-- The CPU is in user mode. -/
def inUser (s : Table) : Bool := s.running && s.self.point == .user

/-- The running process goes on from where it stands. -/
def proceed (s : Table) : Option Table :=
  match s.self.point with
  | .fresh | .irqYield | .trapped .irq => s.epilogue
  | .returning value => (s.setSelf fun p => { p with ax := value }).epilogue
  | .trapped (.brk number) => s.kernelBrk number
  | .trapped (.nmi cause watchdog) => s.kernelNmi cause watchdog
  | .waiting userExitCode => some (s.waitTurn userExitCode true)
  | .timing start ticks total => some (s.sleepTurn start ticks total)
  | _ => none

/-- The process is at the beginning of a system call. -/
def atSyscall (s : Table) (call : Syscall) : Prop :=
  match s.self.point with
  | .trapped (.brk number) => syscallsTable number = some call
  | _ => False

instance (s : Table) (call : Syscall) : Decidable (s.atSyscall call) := by
  unfold atSyscall
  split <;> infer_instance

/-- What the running process does. -/
def act (s : Table) : Event → Option Table
  | .store addr value =>
    if s.self.point = .user then
      match s.self.pages (segmentOf addr) with
      | none => none
      | some page =>
        some (s.setSelf fun p =>
          { p with
            pages := Function.update p.pages (segmentOf addr)
              (some (Function.update page (addr.toNat % 0x1000) value)) })
    else none
  | .trap trap ax => if s.self.point = .user then s.prologue trap ax else none
  | .block device =>
    match s.self.point with
    | .mounting trap => some (s.sleep (.device device) (.mounting trap))
    | .serving => some (s.sleep (.device device) .serving)
    | _ => none
  | .mounted =>
    match s.self.point with
    | .mounting trap => some (s.goto (.trapped trap))
    | _ => none
  | .preempt => if s.self.point = .trapped .irq then some (s.yield .irqYield) else none
  | .proceed => s.proceed
  | .fork frame => if s.atSyscall .fork then s.fork frame else none
  | .clone frame =>
    match s.self.point with
    | .forking child childPid segment => some (s.clone child childPid segment frame)
    | _ => none
  | .sleep ticks => if s.atSyscall .sleep then some (s.sysSleep ticks) else none
  | .pause => if s.self.point = .serving then some (s.yield .serving) else none
  | .remap top pages =>
    if s.self.point = .serving then some (s.setSelf fun p => { p with top := top, pages := pages })
    else none
  | .finish value => if s.self.point = .serving then some (s.goto (.returning value)) else none
  | _ => none

/-- The test of `scheduler` for a process. -/
def runnable (s : Table) (i : Slot) : Bool := (s.procs i).state.runnable

/-- One event; `none` if it cannot happen, or if the kernel panics. -/
def perform (s : Table) (e : Event) : Option Table :=
  match e with
  | .dispatch p =>
    if s.running = false ∧ search s.runnable maxProcCount s.roundRobinIndex = some p then
      some (s.dispatch p)
    else none
  | .tick => if s.inUser then none else s.timerInterrupt
  | .wakeup device => if s.inUser then none else some (s.wakeup (.device device))
  | e => if s.running then s.act e else none

/-- The step relation of the events. -/
def Step (s : Table) (e : Event) (t : Table) : Prop := s.perform e = some t

/-- The slot of a process that does not exist yet. -/
def emptySlot : Proc where
  state := .unused
  pid := 0
  uid := 0
  parent := none
  killed := 0
  channel := .null
  exitCode := 0
  ax := 0
  top := 0
  pages := fun _ => none
  point := .exited

/-- The process `run_init_process` makes, with its code in the frame of segment 0. -/
def initProc (code : Page) (top : Word) : Proc :=
  { emptySlot with
    state := .new
    pid := 1
    top := top
    pages := fun k => if k = 0 then some code else none
    point := .fresh }

/-- The first call of `scheduler()`: only the process "init" exists. -/
def boot (code : Page) (top : Word) : Table where
  procs := fun i => if i = initProcess then initProc code top else emptySlot
  current := initProcess
  running := false
  roundRobinIndex := 0
  nextPid := 2
  systicks := 0
  nextWakeupCall := 0xffffffff
  mounted := false
  log := []

end Table

end Xv6502.Kernel
