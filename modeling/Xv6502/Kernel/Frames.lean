import Xv6502.Kernel.Scheduler

/-!
# Frames, Page Tables and the System Calls That Move Them

The frame allocator of `kernel/kalloc.c` and the system calls of `kernel/proc.c` that
allocate and free frames: `sys_fork`, `sys_exit`, `sys_wait`, `sys_sbrk` and `sys_kill`.

Memory is kept by frames. The PCB of a process, and so its page table, lies in the frame of
its kernel stack, where `kfree` and the copies of `sys_fork` can reach it. The loops of the
source are recursive functions; a step of the model is what the kernel does between two
calls of `yield`, `sleep` or `scheduler`, with one exception: the frame that the page loop
of `sys_fork` has taken from `kalloc` and not stored yet is a state of its own.
-/

namespace Xv6502.Kernel

open Xv6502.Emulator

/-! ## §1 `kalloc` and `kfree` -/

/-- `PAGE_TABLE_SIZE`. -/
def pageTableSize : Nat := 16
/-- `FRAME_UNUSED`. -/
def frameUnused : Frame := mmuFrameInvalid
/-- `CACHE_SIZE`: the number of buffers. -/
def cacheSize : Nat := 16
/-- `PCB_OFFSET`: where the PCB begins in the frame of the kernel stack, with the page table
    as its first field. -/
def pcbOffset : Nat := 0x200

/-- The free stack, its top first, and the memory, by frame and offset. -/
structure Pool where
  free : List Frame
  mem : Frame → Nat → Byte

namespace Pool

/-- `kalloc_init`: the frames from 255 down to 16 are pushed, the `FRAME_UNUSED` among them. -/
def init (mem : Frame → Nat → Byte) : Pool where
  free := (List.range 240).map fun i => BitVec.ofNat 8 (pageTableSize + i)
  mem := mem

/-- `kalloc`. -/
def kalloc (pool : Pool) : Frame × Pool :=
  match pool.free with
  | [] => (frameUnused, pool)
  | frame :: rest => (frame, { pool with free := rest })

/-- `n` calls of `kalloc`. -/
def kallocs (pool : Pool) : Nat → List Frame × Pool
  | 0 => ([], pool)
  | n + 1 =>
    let (frame, next) := pool.kalloc
    let (frames, last) := kallocs next n
    (frame :: frames, last)

/-- `kfree`: empty slots and the static kernel frames are left alone. -/
def kfree (pool : Pool) (frame : Frame) : Pool :=
  if frame = frameUnused ∨ frame.toNat < pageTableSize then pool
  else
    { free := frame :: pool.free
      -- the freed frame is filled with the letter F
      mem := Function.update pool.mem frame fun _ => 0x46 }

/-- `pcb->page_table[segment]` of the PCB in a frame. The index is not checked. -/
def entry (pool : Pool) (kernelFrame : Frame) (segment : Nat) : Frame :=
  pool.mem kernelFrame (pcbOffset + segment)

/-- One byte of memory stored. -/
def store (pool : Pool) (frame : Frame) (offset : Nat) (byte : Byte) : Pool :=
  { pool with mem := Function.update pool.mem frame (Function.update (pool.mem frame) offset byte) }

/-- `pcb->page_table[segment] = frame`. -/
def setEntry (pool : Pool) (kernelFrame : Frame) (segment : Nat) (frame : Frame) : Pool :=
  pool.store kernelFrame (pcbOffset + segment) frame

/-- `memcpy` of a whole frame. -/
def copyFrame (pool : Pool) (dst src : Frame) : Pool :=
  { pool with mem := Function.update pool.mem dst (pool.mem src) }

/-- `proc_set_page_table`. -/
def setTable (pool : Pool) (kernelFrame : Frame) (table : Nat → Frame) : Pool :=
  { pool with
    mem := Function.update pool.mem kernelFrame fun offset =>
      if pcbOffset ≤ offset ∧ offset < pcbOffset + pageTableSize then table (offset - pcbOffset)
      else pool.mem kernelFrame offset }

/-! ## §2 The loops -/

/-- The loop of `sys_exit`: free the segments from `segment` on, `n` of them, and clear their
    entries. -/
def exitLoop (pool : Pool) (kernelFrame : Frame) (segment : Nat) : Nat → Pool
  | 0 => pool
  | n + 1 =>
    let frame := pool.entry kernelFrame segment
    let next :=
      if frame ≠ frameUnused then (pool.kfree frame).setEntry kernelFrame segment frameUnused
      else pool
    exitLoop next kernelFrame (segment + 1) n

/-- One turn of the rollback in `sys_fork`: free what the entry names. It is not cleared. -/
def freeEntry (pool : Pool) (kernelFrame : Frame) (segment : Nat) : Pool :=
  if pool.entry kernelFrame segment ≠ frameUnused then
    pool.kfree (pool.entry kernelFrame segment)
  else pool

/-- The turns of the rollback for the segments `segment, …, 1`. -/
def rollbackLoop (pool : Pool) (kernelFrame : Frame) : Nat → Pool
  | 0 => pool
  | segment + 1 => rollbackLoop (pool.freeEntry kernelFrame (segment + 1)) kernelFrame segment

/-- The rollback of `sys_fork`, `do … while(segment)` with an `uint8_t`: from 0 it goes round
    through 255. -/
def forkRollback (pool : Pool) (kernelFrame : Frame) (segment : Nat) : Pool :=
  if segment = 0 then (pool.freeEntry kernelFrame 0).rollbackLoop kernelFrame 255
  else pool.rollbackLoop kernelFrame segment

/-- The loop `for(segment; segment > low; segment--)` of `sys_sbrk`, which shrinks the heap
    and rolls back its growth. The page table is a local copy. -/
def freeDown (pool : Pool) (table : Nat → Frame) (low : Nat) : Nat → (Nat → Frame) × Pool
  | 0 => (table, pool)
  | segment + 1 =>
    if low < segment + 1 then
      if table (segment + 1) ≠ frameUnused then
        freeDown (pool.kfree (table (segment + 1)))
          (Function.update table (segment + 1) frameUnused) low segment
      else freeDown pool table low segment
    else (table, pool)

/-- The growing loop of `sys_sbrk` from `segment` on, `n` turns; `none` if memory runs out. -/
def growLoop (pool : Pool) (table : Nat → Frame) (oldSegment segment : Nat) :
    Nat → Option (Nat → Frame) × Pool
  | 0 => (some table, pool)
  | n + 1 =>
    if table segment = frameUnused then
      let (frame, next) := pool.kalloc
      if frame = frameUnused then (none, (next.freeDown table oldSegment segment).2)
      else growLoop next (Function.update table segment frame) oldSegment (segment + 1) n
    else growLoop pool table oldSegment (segment + 1) n

end Pool

/-! ## §3 Processes -/

/-- The process a system call belongs to, between two points where the kernel may switch. -/
inductive Task where
  /-- In user mode, or in a system call that holds no frame. -/
  | user
  /-- In the page loop of `sys_fork`, with the local `parent_page_table`. -/
  | fork (child : Slot) (segment : Nat) (table : Nat → Frame)
  /-- Behind the `kalloc` of that loop. -/
  | forkHolding (child : Slot) (segment : Fin pageTableSize) (table : Nat → Frame)
      (frame : Frame)
  /-- In the loop of `sys_wait`. -/
  | wait

/-- What the system calls use of `Proc` and `PCB`, less the page table: it is in memory. -/
structure ProcEntry where
  state : ProcState
  /-- `kernel_low_memory[0]`. -/
  kernelFrame : Frame
  parent : Slot
  top : Word
  task : Task

/-- The kernel's state, as far as frames are concerned. -/
structure KernelState where
  pool : Pool
  procs : Slot → ProcEntry
  current : Slot
  /-- `current_process` runs; else the kernel is in `scheduler()`. -/
  running : Bool
  /-- The frames of the buffers and of the inode cache. -/
  cache : List Frame

namespace KernelState

/-- `current_process`. -/
def self (k : KernelState) : ProcEntry := k.procs k.current

/-- Change a process. -/
def setProc (k : KernelState) (p : Slot) (f : ProcEntry → ProcEntry) : KernelState :=
  { k with procs := Function.update k.procs p (f (k.procs p)) }

/-- Change `current_process`. -/
def setSelf (k : KernelState) (f : ProcEntry → ProcEntry) : KernelState := k.setProc k.current f

/-- The current process enters `scheduler()` in a state. -/
def suspend (k : KernelState) (state : ProcState) : KernelState :=
  { k.setSelf fun e => { e with state := state } with running := false }

/-- The first `UNUSED` slot, as `proc_alloc` looks for it. -/
def firstUnused (k : KernelState) : Option Slot :=
  (List.finRange 512).find? fun p => (k.procs p).state = .unused

/-! ## §4 `sys_sbrk` -/

/-- `(top == 0) ? 0 : (top - 1) >> 12`. -/
def segmentBelow (top : Word) : Nat := if top = 0 then 0 else (top - 1).toNat / 0x1000

/-- `sys_sbrk`. The sum of the top and the increment is one of 16 bits, so that
    `overflow_check` is never out of range. -/
def sbrk (k : KernelState) (increment : Word) : KernelState :=
  let kernelFrame := k.self.kernelFrame
  let table := k.pool.entry kernelFrame
  let newTop := k.self.top + increment
  let oldSegment := segmentBelow k.self.top
  let newSegment := segmentBelow newTop
  let commit (table : Nat → Frame) (pool : Pool) : KernelState :=
    { k.setSelf fun e => { e with top := newTop } with
      pool := pool.setTable kernelFrame table }
  if 0 < increment.toInt then
    -- growing stores the table only if every segment got its frame
    match k.pool.growLoop table oldSegment oldSegment (newSegment + 1 - oldSegment) with
    | (some table, pool) => commit table pool
    | (none, pool) => { k with pool := pool }
  else if increment.toInt < 0 then
    -- shrinking cannot fail
    let (table, pool) := k.pool.freeDown table newSegment oldSegment
    commit table pool
  else commit table k.pool

/-! ## §5 `sys_fork` -/

/-- `proc_alloc` in the slot it has found and the copy of the kernel frame, up to the first
    `yield()`. -/
def forkInto (k : KernelState) (child : Slot) : KernelState :=
  let (frame, pool) := k.pool.kalloc
  -- `kernel_low_memory[0]` is set even if there is no frame
  let k := { k.setProc child fun e => { e with kernelFrame := frame } with pool := pool }
  if frame = frameUnused then k
  else
    let kernelFrame := k.self.kernelFrame
    let table := k.pool.entry kernelFrame
    let pool := (k.pool.copyFrame frame kernelFrame).setTable frame fun _ => frameUnused
    let k := { k with pool := pool }.setProc child fun e =>
      { e with state := .building, parent := k.current, top := k.self.top, task := .user }
    (k.setSelf fun e => { e with task := .fork child 0 table }).suspend .ready

/-- `sys_fork` up to its first `yield()`. -/
def forkStart (k : KernelState) : KernelState :=
  match k.firstUnused with
  | none => k
  | some child => k.forkInto child

/-- The turn of the page loop for a segment, up to `kalloc`; behind the last segment the child
    is published. -/
def forkPage (k : KernelState) (child : Slot) (segment : Nat) (table : Nat → Frame) : KernelState :=
  if hSegment : segment < pageTableSize then
    if table segment = frameUnused then
      k.setSelf fun e => { e with task := .fork child (segment + 1) table }
    else
      let (frame, pool) := k.pool.kalloc
      if frame = frameUnused then
        -- roll everything back, then `proc_free(child)`
        let pool := pool.forkRollback (k.procs child).kernelFrame segment
        let k := { k with pool := pool.kfree (k.procs child).kernelFrame }
        (k.setProc child fun e => { e with state := .unused }).setSelf fun e =>
          { e with task := .user }
      else
        { k.setSelf fun e =>
            { e with task := .forkHolding child ⟨segment, hSegment⟩ table frame } with
          pool := pool }
  else
    (k.setProc child fun e => { e with state := .new }).setSelf fun e => { e with task := .user }

/-- The rest of the turn: store the frame, copy the page, and `yield()`. -/
def forkStore (k : KernelState) (child : Slot) (segment : Fin pageTableSize)
    (table : Nat → Frame) (frame : Frame) : KernelState :=
  let pool := (k.pool.setEntry (k.procs child).kernelFrame segment frame).copyFrame frame
    (table segment)
  ({ k with pool := pool }.setSelf fun e =>
    { e with task := .fork child (segment + 1) table }).suspend .ready

/-! ## §6 `sys_exit` and `sys_wait` -/

/-- The slot of `init_process`, the first one that `proc_alloc` hands out. -/
def initSlot : Slot := 0

/-- `sys_exit`: free the pages, become a zombie and give the children to "init". The wakeups
    of the parent and of "init" are events of their own. -/
def exit (k : KernelState) : KernelState :=
  let pool := k.pool.exitLoop k.self.kernelFrame 0 pageTableSize
  let procs := fun p =>
    if (k.procs p).state ≠ .unused ∧ (k.procs p).parent = k.current then
      { k.procs p with parent := initSlot }
    else k.procs p
  { k with pool := pool, procs := procs }.suspend .zombie

/-- The first child that `sys_wait` finds a zombie. -/
def zombieChild (k : KernelState) : Option Slot :=
  (List.finRange 512).find? fun p =>
    (k.procs p).state = .zombie ∧ (k.procs p).parent = k.current

/-- `proc_free`. -/
def procFree (k : KernelState) (p : Slot) : KernelState :=
  { k.setProc p fun e => { e with state := .unused } with
    pool := k.pool.kfree (k.procs p).kernelFrame }

/-- One turn of the loop of `sys_wait`: reap a zombie or `sleep(current_process)`. -/
def waitTurn (k : KernelState) : KernelState :=
  match k.zombieChild with
  | some p => (k.procFree p).setSelf fun e => { e with task := .user }
  | none => k.suspend .sleeping

/-! ## §7 Events -/

/-- What the running process does next. -/
inductive Action where
  /-- A store through its page table, by user code or by `copy_to_user`. -/
  | store (address : Word) (byte : Byte)
  /-- `yield()` outside `sys_fork`. -/
  | yield
  /-- `sleep()` outside `sys_wait`. -/
  | sleep
  | fork
  | sbrk (increment : Word)
  | exit
  | wait
  | kill (p : Slot)
  /-- `sys_fork` or `sys_wait` goes on. -/
  | proceed
  /-- `sys_wait` returns without a child: there is none, or its exit code cannot be stored. -/
  | giveUp

/-- What can happen next. -/
inductive Occurrence where
  /-- `scheduler()` switches to a process. -/
  | dispatch (p : Slot)
  /-- A process is woken up. -/
  | wakeup (p : Slot)
  /-- The kernel stores to the kernel stack or the PCB of a process, beside its page table.
      It is an assumption that no store but those of the system calls below reaches a page
      table; above all, the C stack of a process, which grows down towards its PCB, must not
      grow into it. -/
  | kernelStore (p : Slot) (offset : Nat) (byte : Byte)
  | act (action : Action)

/-- A store through the page table; an unmapped segment has no memory. -/
def userStore (k : KernelState) (address : Word) (byte : Byte) : Option KernelState :=
  let frame := k.pool.entry k.self.kernelFrame (address.toNat / 0x1000)
  if frame = frameUnused then none
  else some { k with pool := k.pool.store frame (address.toNat % 0x1000) byte }

/-- `sys_kill` finds its victim. -/
def kill (k : KernelState) (p : Slot) : KernelState :=
  if (k.procs p).state = .sleeping then k.setProc p fun e => { e with state := .ready } else k

/-- One action of the running process; `none` if it cannot do so. -/
def act (k : KernelState) (action : Action) : Option KernelState :=
  match k.self.task, action with
  | .user, .store address byte => k.userStore address byte
  | .wait, .store address byte => k.userStore address byte
  | .user, .yield => some (k.suspend .ready)
  | .user, .sleep => some (k.suspend .sleeping)
  | .user, .fork => some k.forkStart
  | .user, .sbrk increment => some (k.sbrk increment)
  -- `panic("init exited")`
  | .user, .exit => if k.current = initSlot then none else some k.exit
  | .user, .wait => some (k.setSelf fun e => { e with task := .wait })
  | .user, .kill p => if p = initSlot then none else some (k.kill p)
  | .fork child segment table, .proceed => some (k.forkPage child segment table)
  | .forkHolding child segment table frame, .proceed =>
    some (k.forkStore child segment table frame)
  | .wait, .proceed => some k.waitTurn
  | .wait, .giveUp => some (k.setSelf fun e => { e with task := .user })
  | _, _ => none

/-- One event; `none` if it cannot happen. -/
def perform (k : KernelState) : Occurrence → Option KernelState
  | .dispatch p =>
    if k.running = false ∧ (k.procs p).state.runnable = true then
      some { k.setProc p fun e => { e with state := .running } with current := p, running := true }
    else none
  | .wakeup p =>
    if (k.procs p).state = .sleeping then some (k.setProc p fun e => { e with state := .ready })
    else none
  -- any other store to a kernel frame: the C stack, the zero page, the PCB behind the page table
  | .kernelStore p offset byte =>
    if (k.procs p).state ≠ .unused ∧
        (offset < pcbOffset ∨ pcbOffset + pageTableSize ≤ offset) then
      some { k with pool := k.pool.store (k.procs p).kernelFrame offset byte }
    else none
  | .act action => if k.running = true then k.act action else none

/-- The step relation of the events. -/
def Step (k : KernelState) (e : Occurrence) (k' : KernelState) : Prop := k.perform e = some k'

/-- The first call of `scheduler()`: the buffers, the inode cache and "init" have got their
    frames, one after the other. `top` is where the code of "init" ends. -/
def boot (mem : Frame → Nat → Byte) (top : Word) : KernelState :=
  -- the caches take their frames first, then "init" its stack and its page
  let (buffers, pool) := (Pool.init mem).kallocs cacheSize
  let (inodes, pool) := pool.kallocs 1
  let (stack, pool) := pool.kalloc
  let pool := pool.setTable stack fun _ => frameUnused
  let (page, pool) := pool.kalloc
  { pool := pool.setEntry stack 0 page
    procs := fun p =>
      if p = initSlot then ⟨.new, stack, initSlot, top, .user⟩
      else ⟨.unused, 0, initSlot, 0, .user⟩
    current := initSlot
    running := false
    cache := buffers ++ inodes }

end KernelState

end Xv6502.Kernel
