import Xv6502.Block.FreeMap
import Xv6502.Block.Owners

/-!
# Allocating and Freeing Blocks

`block_alloc`, `block_zero` and `block_free` of `kernel/buffer.c` over the buffer cache. A call of
one of them is a sequence of updates: a block is read, changed, written and released. A process goes
from one sleep to the next at a time, and the other processes and the disk come in between; those
that are in none of the calls may use the cache for any block but the bitmap.
-/

namespace Xv6502.Block

open Xv6502.Emulator Xv6502.Lib

variable {P : Type}

/-! ## §1 The calls -/

/-- `ROOT_DRIVE`. -/
def rootDrive : Byte := 1

/-- What a process updates a block for. -/
inductive Task where
  /-- `block_alloc` looks for a free block, in the block of the bitmap that `block` belongs to. -/
  | search (block : Word)
  /-- `block_alloc` marks the block that it has found. -/
  | mark (found : Word)
  /-- `block_zero` of that block. -/
  | zero (found : Word)
  /-- `block_free`. -/
  | free (block : Word)
  deriving DecidableEq, Repr

/-- Where a process is in a call of `block_alloc` or `block_free`. -/
inductive Job where
  | idle
  /-- In front of `buffer_read`. -/
  | next (task : Task)
  /-- In `buffer_read`. -/
  | reading (task : Task)
  /-- `buffer_read` has returned the buffer. -/
  | read (task : Task) (b : BufferId)
  /-- In `buffer_write`. -/
  | writing (task : Task) (b : BufferId)
  /-- Behind `buffer_write`. -/
  | written (task : Task) (b : BufferId)
  deriving DecidableEq, Repr

/-- The block that is updated. -/
def Task.block (sb : SuperBlock) : Task → Word
  | .search block => bitBlock sb block
  | .mark found => bitBlock sb found
  | .zero found => found
  | .free block => bitBlock sb block

/-- The frame behind `memset(WINDOW2, 0, BLOCK_SIZE)`. -/
def zeroed (frame : Nat → Byte) : Nat → Byte := fun i => if i < blockSize then 0 else frame i

/-- The index of the bit of a block in its block of the bitmap, as `block_free` computes it. -/
def bitOffset (block : Word) : Nat := (block % bitsPerBlock).toNat

/-- The block layer with the calls of the processes. -/
structure Allocator (P : Type) where
  storage : Storage P
  /-- `sb`. -/
  sb : SuperBlock
  job : P → Job
  /-- The blocks that `block_alloc` has returned and that were not given to `block_free` since. -/
  live : Word → Bool

namespace Allocator

variable [DecidableEq P]

/-- What can happen next. -/
inductive Event (P : Type) where
  /-- The disk, or a process that is in none of the calls. -/
  | other (e : Storage.Event P)
  /-- A process calls `block_alloc`. -/
  | alloc (p : P)
  /-- A process calls `block_free`. -/
  | free (p : P) (block : Word)
  /-- A process goes on with its call. -/
  | goOn (p : P)
  /-- `block_alloc` has found a free block and marks it. -/
  | decided (p : P) (found : Word)
  /-- `block_alloc` returns. -/
  | returned (p : P) (block : Word)

def setJob (a : Allocator P) (p : P) (job : Job) : Allocator P :=
  { a with job := Function.update a.job p job }

/-- The bytes of a buffer. -/
def frame (a : Allocator P) (b : BufferId) : Nat → Byte := (a.storage.buffer b).frame

/-- A process uses the cache for blocks other than those of the bitmap. -/
def Foreign (a : Allocator P) (e : Storage.Event P) : Prop :=
  a.storage.Disciplined rootDrive e ∧
    match e with
    | .read _ _ block => ∀ n, n < a.sb.size → block ≠ bitBlock a.sb n
    | _ => True

/-- The event belongs to the rest of a `buffer_read`. -/
def OfRead (p : P) : Storage.Event P → Prop
  | .retry q => q = p
  | .readFrame q _ => q = p
  | .readDone q => q = p
  | _ => False

/-- The frame of a buffer is changed and `buffer_write` is called. -/
def Updates (s : Storage P) (p : P) (b : BufferId) (frame : Nat → Byte) (t : Storage P) : Prop :=
  ∃ u block, s.Step (.modify p b frame) u ∧ u.Step (.write p b block frame) t

/-- The step relation of the events. -/
inductive Step (a : Allocator P) : Event P → Allocator P → Prop
  | disk {e : Storage.Event P} {t : Storage P} (hDisk : e.ofDisk) (h : a.storage.Step e t) :
      Step a (.other e) { a with storage := t }
  | foreign {e : Storage.Event P} {t : Storage P} {p : P} (hIdle : a.job p = .idle)
      (hActor : e.actor = some p) (hForeign : a.Foreign e) (h : a.storage.Step e t) :
      Step a (.other e) { a with storage := t }
  | alloc (p : P) (hIdle : a.job p = .idle) (hCall : a.storage.call p = .none)
      (hSize : 0 < a.sb.size) :
      Step a (.alloc p) (a.setJob p (.next (.search 0)))
  | free (p : P) (block : Word) (hIdle : a.job p = .idle) (hCall : a.storage.call p = .none)
      (hLive : a.live block = true) :
      Step a (.free p block)
        { a.setJob p (.next (.free block)) with live := Function.update a.live block false }
  | read {p : P} {task : Task} {t : Storage P} (hJob : a.job p = .next task)
      (h : a.storage.Step (.read p rootDrive (task.block a.sb)) t) :
      Step a (.goOn p) { a.setJob p (.reading task) with storage := t }
  | wait {e : Storage.Event P} {p : P} {task : Task} {t : Storage P}
      (hJob : a.job p = .reading task) (hRead : OfRead p e) (h : a.storage.Step e t)
      (hCall : t.call p ≠ .none) :
      Step a (.goOn p) { a with storage := t }
  | got {e : Storage.Event P} {p : P} {task : Task} {b : BufferId} {t : Storage P}
      (hJob : a.job p = .reading task) (h : a.storage.Step e t)
      (hReturns : a.storage.Returns p (task.block a.sb) b e) :
      Step a (.goOn p) { a.setJob p (.read task b) with storage := t }
  | decide {p : P} {block found : Word} {b : BufferId} {t : Storage P}
      (hJob : a.job p = .read (.search block) b)
      (hFound : searchBlock (a.frame b) block a.sb.size = some found)
      (h : Updates a.storage p b (setBit (a.frame b) (found - block).toNat) t) :
      Step a (.decided p found) { a.setJob p (.writing (.mark found) b) with storage := t }
  | pass {p : P} {block : Word} {b : BufferId} {t : Storage P}
      (hJob : a.job p = .read (.search block) b)
      (hNone : searchBlock (a.frame b) block a.sb.size = none)
      (hMore : block + bitsPerBlock < a.sb.size) (h : a.storage.Step (.release p b) t) :
      Step a (.goOn p) { a.setJob p (.next (.search (block + bitsPerBlock))) with storage := t }
  | full {p : P} {block : Word} {b : BufferId} {t : Storage P}
      (hJob : a.job p = .read (.search block) b)
      (hNone : searchBlock (a.frame b) block a.sb.size = none)
      (hEnd : ¬ block + bitsPerBlock < a.sb.size) (h : a.storage.Step (.release p b) t) :
      Step a (.returned p 0) { a.setJob p .idle with storage := t }
  | zero {p : P} {found : Word} {b : BufferId} {t : Storage P}
      (hJob : a.job p = .read (.zero found) b)
      (h : Updates a.storage p b (zeroed (a.frame b)) t) :
      Step a (.goOn p) { a.setJob p (.writing (.zero found) b) with storage := t }
  | clear {p : P} {block : Word} {b : BufferId} {t : Storage P}
      (hJob : a.job p = .read (.free block) b)
      (hSet : bit (a.frame b) (bitOffset block) = true)
      (h : Updates a.storage p b (clearBit (a.frame b) (bitOffset block)) t) :
      Step a (.goOn p) { a.setJob p (.writing (.free block) b) with storage := t }
  | written {p : P} {task : Task} {b : BufferId} {t : Storage P}
      (hJob : a.job p = .writing task b) (h : a.storage.Step (.writeDone p) t) :
      Step a (.goOn p) { a.setJob p (.written task b) with storage := t }
  | marked {p : P} {found : Word} {b : BufferId} {t : Storage P}
      (hJob : a.job p = .written (.mark found) b) (h : a.storage.Step (.release p b) t) :
      Step a (.goOn p) { a.setJob p (.next (.zero found)) with storage := t }
  | allocated {p : P} {found : Word} {b : BufferId} {t : Storage P}
      (hJob : a.job p = .written (.zero found) b) (h : a.storage.Step (.release p b) t) :
      Step a (.returned p found)
        { a.setJob p .idle with storage := t, live := Function.update a.live found true }
  | freed {p : P} {block : Word} {b : BufferId} {t : Storage P}
      (hJob : a.job p = .written (.free block) b) (h : a.storage.Step (.release p b) t) :
      Step a (.goOn p) { a.setJob p .idle with storage := t }

/-- `block_free` panics: the block is not marked as used. -/
def FreePanics (a : Allocator P) (p : P) : Prop :=
  ∃ block b, a.job p = .read (.free block) b ∧ bit (a.frame b) (bitOffset block) = false

/-- `buffer_get` panics: it finds no buffer for the block. -/
def CachePanics (a : Allocator P) (p : P) : Prop :=
  ∃ task, (a.job p = .next task ∨
      a.job p = .reading task ∧ ∃ b, a.storage.call p = .locking rootDrive (task.block a.sb) b false) ∧
    a.storage.bufferGet p rootDrive (task.block a.sb) = none

/-- The kernel with the disk image of `mkfs` and the superblock that `fs_init` reads from it. -/
def mounted (input : MkfsInput) (frames : BufferId → Nat → Byte) (pin : Bool) : Allocator P where
  storage := Storage.boot (mkfs input) frames pin
  sb := SuperBlock.ofBytes (blockOf (mkfs input) superBlockBlock)
  job := fun _ => .idle
  live := fun _ => false

/-! ## §2 The invariant -/

end Allocator

/-- The block of the bitmap. -/
def bitmapBlock : Word := bitBlock mkfsSuperBlock 0

/-- The block is marked as used for the sake of the process alone: `block_alloc` has not returned it
    yet, or `block_free` has not cleared its bit yet. -/
def Job.owns (block : Word) : Job → Prop
  | .next (.zero found) => found = block
  | .reading (.zero found) => found = block
  | .read (.zero found) _ => found = block
  | .writing (.mark found) _ => found = block
  | .written (.mark found) _ => found = block
  | .writing (.zero found) _ => found = block
  | .written (.zero found) _ => found = block
  | .next (.free b) => b = block
  | .reading (.free b) => b = block
  | .read (.free b) _ => b = block
  | _ => False

/-- The block is the one that `block_alloc` has decided on and has not returned yet. -/
def Job.allocates (found : Word) : Job → Prop
  | .next (.zero n) => n = found
  | .reading (.zero n) => n = found
  | .read (.zero n) _ => n = found
  | .writing (.mark n) _ => n = found
  | .written (.mark n) _ => n = found
  | .writing (.zero n) _ => n = found
  | .written (.zero n) _ => n = found
  | _ => False

/-- The task is about the bitmap. -/
def Task.onBitmap : Task → Prop
  | .zero _ => False
  | _ => True

/-- The process may have the bitmap locked. -/
def Job.onBitmap : Job → Prop
  | .reading task => task.onBitmap
  | .read task _ => task.onBitmap
  | .writing task _ => task.onBitmap
  | .written task _ => task.onBitmap
  | _ => False

/-- The blocks of a task lie where they should. -/
def Task.Ok : Task → Prop
  | .search block => block = 0
  | .mark found => isDataBlock found.toNat
  | .zero found => isDataBlock found.toNat
  | .free block => isDataBlock block.toNat

/-- What `buffer_write` has left. -/
def Task.Done (store : BlockStore) : Task → Prop
  | .zero found => ∀ i, i < blockSize → store found i = 0
  | _ => True

/-- The process is in `buffer_read` of the block. -/
def Call.fetches (block : Word) : Call → Prop
  | .locking d n _ _ => d = rootDrive ∧ n = block
  | .got n _ => n = block
  | .reading n _ _ => n = block
  | _ => False

/-- The process has the buffer with the block of the task. -/
def Holds (s : Storage P) (p : P) (task : Task) (b : BufferId) : Prop :=
  s.use b = .held p false ∧ (s.buffer b).blockNumber = task.block mkfsSuperBlock

/-- What the job of a process says about the block layer. -/
def JobOk (s : Storage P) (store : BlockStore) (p : P) : Job → Prop
  | .idle => True
  | .next task => s.call p = .none ∧ task.Ok
  | .reading task => (s.call p).fetches (task.block mkfsSuperBlock) ∧ task.Ok
  | .read task b => s.call p = .none ∧ Holds s p task b ∧ task.Ok
  | .writing task b =>
    (∃ asleep, s.call p = .writing b asleep) ∧ Holds s p task b ∧ task.Ok ∧ task.Done store
  | .written task b => s.call p = .none ∧ Holds s p task b ∧ task.Ok ∧ task.Done store

/-- A process and its job. The bitmap is locked for jobs at the bitmap only. -/
structure ProcOk (s : Storage P) (store : BlockStore) (p : P) (job : Job) : Prop where
  jobOk : JobOk s store p job
  locked : ∀ b, (s.use b).owner = some p → (s.buffer b).blockNumber = bitmapBlock → job.onBitmap
  locking : ∀ d b asleep, s.call p = .locking d bitmapBlock b asleep → job.onBitmap

/-- The block is allocated, or about to be so, or about to be freed. -/
def Allocated (job : P → Job) (live : Word → Bool) (block : Word) : Prop :=
  live block = true ∨ ∃ p, (job p).owns block

/-- The blocks that are used, and the bitmap. -/
structure Accounts (bitmap : Nat → Byte) (job : P → Job) (live : Word → Bool) : Prop where
  bits : ∀ block : Word, block.toNat < bitsPerBlock.toNat →
    (bit bitmap block.toNat = true ↔ ¬ isDataBlock block.toNat ∨ Allocated job live block)
  data : ∀ block, live block = true → isDataBlock block.toNat
  exclusive : ∀ p q block, (job p).owns block → (job q).owns block → p = q
  reserved : ∀ p block, (job p).owns block → live block = false

/-- The invariant, with the bytes last written. -/
structure Allocator.Ledger (store : BlockStore) (a : Allocator P) : Prop where
  sb : a.sb = mkfsSuperBlock
  procs : ∀ p, ProcOk a.storage store p (a.job p)
  accounts : Accounts (store bitmapBlock) a.job a.live

end Xv6502.Block
