import Xv6502.Block.Allocator

/-!
# The Ledger of the Block Allocator

What an event does to the invariant of `block_alloc` and `block_free`, seen from its parts.

- A process that does nothing keeps its job, since nobody else can touch a buffer it has locked.
- The bits of the bitmap are accounts: a block is marked exactly if it is live or some process has
  it in work. A block goes from free to one process, from there to the live ones, and back.
- A process that does something keeps to the bitmap as far as its job says so.
-/

namespace Xv6502.Block

open Xv6502.Emulator Xv6502.Lib

variable {P : Type}

/-! ## §1 The processes that do nothing -/

section Frames

variable {s t : Storage P} {store store' : BlockStore} {p q : P} {b c : BufferId} {job : Job}
  {task : Task} {Q : List BufferId} {drive : Byte}

theorem Call.fetches_awake {call : Call} {block : Word} :
    (Storage.Call.awake call).fetches block ↔ call.fetches block := by
  cases call <;> exact Iff.rfl

theorem Storage.Call.awake_eq_none {call : Call} : Storage.Call.awake call = .none ↔ call = .none := by
  cases call <;> simp [Storage.Call.awake]

theorem Storage.Call.awake_eq_writing {call : Call} :
    Storage.Call.awake call = .writing b false ↔ ∃ asleep, call = .writing b asleep := by
  cases call <;> simp [Storage.Call.awake]

theorem Storage.Call.awake_eq_locking {call : Call} {d : Byte} {block : Word} :
    Storage.Call.awake call = .locking d block b false ↔ ∃ asleep, call = .locking d block b asleep := by
  cases call <;> simp [Storage.Call.awake]

theorem Holds.spared (h : Holds s q task b) (hSpared : Storage.Spared s t q) :
    Holds t q task b := by
  obtain ⟨hUse, hBlock⟩ := hSpared.kept b (by rw [h.1]; rfl)
  exact ⟨hUse.trans h.1, hBlock.trans h.2⟩

/-- The bytes of a block that the process has locked stay what they are. -/
def SameOwn (s : Storage P) (q : P) (store store' : BlockStore) : Prop :=
  ∀ c, (s.use c).owner = some q →
    store' (s.buffer c).blockNumber = store (s.buffer c).blockNumber

theorem Task.Done.same (h : task.Done store) (hHolds : Holds s q task b)
    (hStore : SameOwn s q store store') : task.Done store' := by
  cases task with
  | zero found =>
    intro i hi
    have hSame := hStore b (by rw [hHolds.1]; rfl)
    rw [hHolds.2] at hSame
    rw [show store' found = store found from hSame]
    exact h i hi
  | _ => trivial

theorem JobOk.spared (h : JobOk s store q job) (hSpared : Storage.Spared s t q)
    (hStore : SameOwn s q store store') : JobOk t store' q job := by
  -- what `p` is allowed to do to `q` is to wake it up, and a job sees that in its call only
  have hNone : s.call q = .none → t.call q = .none := by
    intro hCall
    have hAwake := hSpared.call
    rw [hCall] at hAwake
    exact Storage.Call.awake_eq_none.mp hAwake
  cases job with
  | idle => trivial
  | next task => exact ⟨hNone h.1, h.2⟩
  | reading task =>
    refine ⟨?_, h.2⟩
    rw [← Call.fetches_awake, hSpared.call, Call.fetches_awake]
    exact h.1
  | read task b => exact ⟨hNone h.1, h.2.1.spared hSpared, h.2.2⟩
  | writing task b =>
    obtain ⟨⟨asleep, hCall⟩, hHolds, hOk, hDone⟩ := h
    refine ⟨?_, hHolds.spared hSpared, hOk, hDone.same hHolds hStore⟩
    rw [← Storage.Call.awake_eq_writing, hSpared.call, Storage.Call.awake_eq_writing]
    exact ⟨asleep, hCall⟩
  | written task b =>
    obtain ⟨hCall, hHolds, hOk, hDone⟩ := h
    exact ⟨hNone hCall, hHolds.spared hSpared, hOk, hDone.same hHolds hStore⟩

theorem ProcOk.spared (h : ProcOk s store q job) (hSpared : Storage.Spared s t q)
    (hStore : SameOwn s q store store') : ProcOk t store' q job where
  jobOk := h.jobOk.spared hSpared hStore
  locked := by
    intro b hOwner hBlock
    have hBefore := hSpared.owner b hOwner
    rw [(hSpared.kept b hBefore).2] at hBlock
    exact h.locked b hBefore hBlock
  locking := by
    intro d b asleep hCall
    have hAwake := hSpared.call
    rw [hCall] at hAwake
    obtain ⟨asleep', hBefore⟩ := Storage.Call.awake_eq_locking.mp hAwake.symm
    exact h.locking d b asleep' hBefore

variable [DecidableEq P]

/-- Only the process that has a block locked writes it. -/
theorem Storage.Consistent.sameOwn {e : Storage.Event P} (h : Storage.Consistent drive store s Q)
    (hStep : s.Step e t) (hq : e.actor ≠ some q) : SameOwn s q store (store.after e) := by
  intro c hOwner
  cases e with
  | write p b block frame =>
    obtain ⟨⟨rfl, -⟩, hPerform⟩ := hStep
    obtain ⟨⟨hHand, hBusy⟩, -⟩ := Option.ite_none_right_eq_some.mp hPerform
    obtain ⟨-, changed, hUse⟩ := Storage.atHand_iff.mp hHand
    apply Function.update_of_ne
    intro hBlock
    have hBusy' := h.control.busy_of_owner hOwner
    have hDrive : (s.buffer c).drive = (s.buffer b).drive :=
      (h.bytes.key c (.inl hBusy')).1.trans (h.bytes.key b (.inl hBusy)).1.symm
    -- two locked buffers with one key would be one buffer
    obtain rfl : c = b := h.control.unique (.inl hBusy') (.inl hBusy) hDrive hBlock
    rw [hUse] at hOwner
    exact hq hOwner
  | _ => rfl

end Frames

/-! ## §2 The accounts -/

section Accounts

variable {bitmap bitmap' : Nat → Byte} {job : P → Job} {live : Word → Bool} {p q : P} {new : Job}
  {block found : Word}

/-- The accounts look at the bits of one block. -/
theorem Accounts.congr (h : Accounts bitmap job live)
    (hBits : ∀ n, n < bitsPerBlock.toNat → bit bitmap' n = bit bitmap n) :
    Accounts bitmap' job live where
  bits := by
    intro block hBlock
    rw [hBits _ hBlock]
    exact h.bits block hBlock
  data := h.data
  exclusive := h.exclusive
  reserved := h.reserved

variable [DecidableEq P]

theorem owns_update :
    (Function.update job p new q).owns block ↔
      q = p ∧ new.owns block ∨ q ≠ p ∧ (job q).owns block := by
  by_cases hq : q = p
  · rw [hq, Function.update_self]
    simp
  · rw [Function.update_of_ne hq]
    simp [hq]

/-- The block of a process is counted apart from the others. -/
theorem allocated_update :
    Allocated (Function.update job p new) live block ↔
      live block = true ∨ new.owns block ∨ ∃ q, q ≠ p ∧ (job q).owns block := by
  unfold Allocated
  simp only [owns_update]
  constructor
  · rintro (hLive | ⟨q, ⟨rfl, hNew⟩ | ⟨hq, hOwns⟩⟩)
    · exact .inl hLive
    · exact .inr (.inl hNew)
    · exact .inr (.inr ⟨q, hq, hOwns⟩)
  · rintro (hLive | hNew | ⟨q, hq, hOwns⟩)
    · exact .inl hLive
    · exact .inr ⟨p, .inl ⟨rfl, hNew⟩⟩
    · exact .inr ⟨q, .inr ⟨hq, hOwns⟩⟩

theorem allocated_iff (p : P) :
    Allocated job live block ↔
      live block = true ∨ (job p).owns block ∨ ∃ q, q ≠ p ∧ (job q).owns block := by
  have hSame : Allocated (Function.update job p (job p)) live block ↔ _ := allocated_update
  rwa [Function.update_eq_self] at hSame

/-- A process goes on without taking or giving up a block. -/
theorem Accounts.quiet (h : Accounts bitmap job live)
    (hOwns : ∀ block, new.owns block ↔ (job p).owns block) :
    Accounts bitmap (Function.update job p new) live := by
  have hSame : ∀ q block, (Function.update job p new q).owns block ↔ (job q).owns block := by
    intro q block
    by_cases hq : q = p
    · rw [hq, Function.update_self]
      exact hOwns block
    · rw [Function.update_of_ne hq]
  refine ⟨?_, h.data, ?_, ?_⟩
  · intro block hBlock
    rw [h.bits block hBlock]
    simp only [Allocated, hSame]
  · intro q r block hq hr
    exact h.exclusive q r block ((hSame q block).mp hq) ((hSame r block).mp hr)
  · intro q block hq
    exact h.reserved q block ((hSame q block).mp hq)

/-- The rest of the accounts when one process changes what it owns. -/
theorem Accounts.change {live' : Word → Bool} (h : Accounts bitmap job live)
    (hBits : ∀ block : Word, block.toNat < bitsPerBlock.toNat →
      (bit bitmap' block.toNat = true ↔
        ¬ isDataBlock block.toNat ∨ Allocated (Function.update job p new) live' block))
    (hData : ∀ block, live' block = true → isDataBlock block.toNat)
    (hNew : ∀ block, new.owns block → live' block = false ∧ ∀ q, q ≠ p → ¬ (job q).owns block)
    (hOld : ∀ q block, q ≠ p → (job q).owns block → live' block = false) :
    Accounts bitmap' (Function.update job p new) live' := by
  refine ⟨hBits, hData, ?_, ?_⟩
  · intro q r block hq hr
    -- the process that changes, or one of those that have what they had
    rcases owns_update.mp hq with ⟨rfl, hNewQ⟩ | ⟨hqp, hOldQ⟩
    · rcases owns_update.mp hr with ⟨rfl, -⟩ | ⟨hrp, hOldR⟩
      · rfl
      · exact absurd hOldR ((hNew block hNewQ).2 r hrp)
    · rcases owns_update.mp hr with ⟨rfl, hNewR⟩ | ⟨-, hOldR⟩
      · exact absurd hOldQ ((hNew block hNewR).2 q hqp)
      · exact h.exclusive q r block hOldQ hOldR
  · intro q block hq
    rcases owns_update.mp hq with ⟨rfl, hNewQ⟩ | ⟨hqp, hOldQ⟩
    · exact (hNew block hNewQ).1
    · exact hOld q block hqp hOldQ

/-- A block is taken and its bit is set. -/
theorem Accounts.take (h : Accounts bitmap job live) (hOld : ∀ block, ¬ (job p).owns block)
    (hNew : ∀ block, new.owns block ↔ block = found) (hFree : ¬ Allocated job live found) :
    Accounts (setBit bitmap found.toNat) (Function.update job p new) live := by
  refine h.change ?_ h.data ?_ fun q block _ => h.reserved q block
  · intro block hBlock
    rw [bit_setBit, Bool.or_eq_true, h.bits block hBlock, decide_eq_true_eq, allocated_update,
      allocated_iff p, hNew]
    have hEq : block.toNat = found.toNat ↔ block = found := BitVec.toNat_inj
    rw [hEq]
    by_cases hSame : block = found
    · simp [hSame]
    · simp [hSame, hOld block]
  · intro block hBlock
    obtain rfl := (hNew block).mp hBlock
    refine ⟨?_, fun q _ hOwns => hFree (.inr ⟨q, hOwns⟩)⟩
    by_contra hLive
    exact hFree (.inl (by simpa using hLive))

/-- A block is given up and its bit is cleared. -/
theorem Accounts.drop (h : Accounts bitmap job live)
    (hOld : ∀ block', (job p).owns block' ↔ block' = block) (hNew : ∀ block, ¬ new.owns block)
    (hData : isDataBlock block.toNat) :
    Accounts (clearBit bitmap block.toNat) (Function.update job p new) live := by
  have hOwns : (job p).owns block := (hOld block).mpr rfl
  refine h.change ?_ h.data (fun _ hOwned => absurd hOwned (hNew _)) fun q block _ => h.reserved q block
  intro other hOther
  rw [bit_clearBit, Bool.and_eq_true, h.bits other hOther, decide_eq_true_eq, allocated_update,
    allocated_iff p, hOld]
  have hEq : other.toNat = block.toNat ↔ other = block := BitVec.toNat_inj
  rw [Ne, hEq]
  have hNot := hNew other
  by_cases hSame : other = block
  · -- nobody else has the block
    subst hSame
    have hLive : live other = false := h.reserved p other hOwns
    have hNone : ¬ ∃ q, q ≠ p ∧ (job q).owns other := by
      rintro ⟨q, hq, hOwnsQ⟩
      exact hq (h.exclusive q p other hOwnsQ hOwns)
    simp [hData, hLive, hNone, hNot]
  · tauto

/-- A block goes over from the process to the callers. -/
theorem Accounts.handOut (h : Accounts bitmap job live)
    (hOld : ∀ block, (job p).owns block ↔ block = found) (hNew : ∀ block, ¬ new.owns block)
    (hData : isDataBlock found.toNat) :
    Accounts bitmap (Function.update job p new) (Function.update live found true) := by
  have hOwns : (job p).owns found := (hOld found).mpr rfl
  have hOthers : ∀ q block, q ≠ p → (job q).owns block → block ≠ found := by
    rintro q block hq hOwnsQ rfl
    exact hq (h.exclusive q p block hOwnsQ hOwns)
  -- the found block leaves the process and becomes live in the same step; all others stay
  refine h.change ?_ ?_ (fun _ hOwned => absurd hOwned (hNew _)) ?_
  · intro block hBlock
    rw [h.bits block hBlock, allocated_update, allocated_iff p, hOld]
    have hNot := hNew block
    by_cases hSame : block = found
    · simp [hSame]
    · rw [Function.update_of_ne hSame]
      tauto
  · intro block hLive
    by_cases hSame : block = found
    · rw [hSame]
      exact hData
    · rw [Function.update_of_ne hSame] at hLive
      exact h.data block hLive
  · intro q block hq hOwnsQ
    rw [Function.update_of_ne (hOthers q block hq hOwnsQ)]
    exact h.reserved q block hOwnsQ

/-- A block goes over from the callers to the process. -/
theorem Accounts.handIn (h : Accounts bitmap job live) (hOld : ∀ block, ¬ (job p).owns block)
    (hNew : ∀ block', new.owns block' ↔ block' = block) (hLive : live block = true) :
    Accounts bitmap (Function.update job p new) (Function.update live block false) := by
  -- a live block is in nobody's hands
  have hNone : ∀ q, ¬ (job q).owns block := by
    intro q hOwns
    rw [h.reserved q block hOwns] at hLive
    cases hLive
  refine h.change ?_ ?_ ?_ ?_
  -- the bit of the block is still set: now it is the process that answers for it
  · intro other hOther
    rw [h.bits other hOther, allocated_update, allocated_iff p, hNew]
    have hNot := hOld other
    by_cases hSame : other = block
    · simp [hSame, hLive]
    · rw [Function.update_of_ne hSame]
      tauto
  · intro other hLater
    by_cases hSame : other = block
    · rw [hSame, Function.update_self] at hLater
      cases hLater
    · rw [Function.update_of_ne hSame] at hLater
      exact h.data other hLater
  · intro other hOwned
    obtain rfl := (hNew other).mp hOwned
    exact ⟨Function.update_self .., fun q _ => hNone q⟩
  · intro q other hq hOwns
    by_cases hSame : other = block
    · rw [hSame, Function.update_self]
    · rw [Function.update_of_ne hSame]
      exact h.reserved q other hOwns

end Accounts

/-! ## §3 The process that does something -/

theorem bitBlock_of_data {block : Word} (h : isDataBlock block.toNat) :
    bitBlock mkfsSuperBlock block = bitmapBlock := by
  have hSmall : block.toNat < 8192 := h.2
  have hDiv : block / bitsPerBlock = 0 := by
    apply BitVec.eq_of_toNat_eq
    rw [BitVec.toNat_udiv]
    exact Nat.div_eq_of_lt (lt_trans hSmall (by decide))
  rw [bitBlock, hDiv]
  rfl

theorem bitOffset_of_data {block : Word} (h : isDataBlock block.toNat) :
    bitOffset block = block.toNat := by
  have hSmall : block.toNat < 8192 := h.2
  rw [bitOffset, BitVec.toNat_umod]
  exact Nat.mod_eq_of_lt (lt_trans hSmall (by decide))

/-- The bitmap is no data block. -/
theorem ne_bitmapBlock_of_data {block : Word} (h : isDataBlock block.toNat) :
    block ≠ bitmapBlock := by
  rintro rfl
  exact absurd h.1 (by decide)

theorem Task.onBitmap_iff {task : Task} (hOk : task.Ok) :
    task.onBitmap ↔ task.block mkfsSuperBlock = bitmapBlock := by
  cases task with
  | search block =>
    obtain rfl : block = 0 := hOk
    exact ⟨fun _ => rfl, fun _ => trivial⟩
  | mark found => exact ⟨fun _ => bitBlock_of_data hOk, fun _ => trivial⟩
  | zero found => exact ⟨False.elim, fun h => ne_bitmapBlock_of_data hOk h⟩
  | free block => exact ⟨fun _ => bitBlock_of_data hOk, fun _ => trivial⟩

theorem Task.block_lt {task : Task} (hOk : task.Ok) :
    (task.block mkfsSuperBlock).toNat < blockCount := by
  have hBitmap : bitmapBlock.toNat < blockCount := by decide
  cases task with
  | search block =>
    obtain rfl : block = 0 := hOk
    exact hBitmap
  | mark found =>
    rw [Task.block, bitBlock_of_data hOk]
    exact hBitmap
  | zero found => exact hOk.2
  | free block =>
    rw [Task.block, bitBlock_of_data hOk]
    exact hBitmap

section Actors

variable [DecidableEq P] {s t : Storage P} {store store' : BlockStore} {p q : P} {b c : BufferId}
  {job new : Job} {task : Task} {Q : List BufferId} {drive : Byte} {e : Storage.Event P}
  {frame : Nat → Byte}

/-- A process that does something keeps to the bitmap as far as its jobs do. -/
theorem ProcOk.acted (h : ProcOk s store p job) (hControl : Storage.Control s Q)
    (hStep : s.Step e t) (hActor : e.actor = some p) (hJob : JobOk t store' p new)
    (hKeep : job.onBitmap → new.onBitmap) (hSeek : s.seeks e = some bitmapBlock → new.onBitmap) :
    ProcOk t store' p new where
  jobOk := hJob
  locked := by
    intro c hOwner hBlock
    rcases hControl.owned hStep hActor hOwner with ⟨hBefore, hSame⟩ | hSought
    · rw [hSame] at hBlock
      exact hKeep (h.locked c hBefore hBlock)
    · rw [hBlock] at hSought
      exact hSeek hSought
  locking := by
    intro d c asleep hCall
    rcases hControl.locking_of_step hStep hActor hCall with hSought | ⟨asleep', hBefore⟩
    · exact hSeek hSought
    · exact hKeep (h.locking d c asleep' hBefore)

/-- A process that releases the buffer of its task has not locked the bitmap any more. -/
theorem ProcOk.released (h : ProcOk s store p job) (hConsistent : Storage.Consistent drive store s Q)
    (hStep : s.Step (.release p b) t) (hHolds : Holds s p task b) (hOk : task.Ok)
    (hTask : job.onBitmap → task.onBitmap) (hJob : JobOk t store p new) : ProcOk t store p new := by
  have hCall : s.call p = .none := by
    obtain ⟨⟨hHand, -⟩, -⟩ := Option.ite_none_right_eq_some.mp hStep.2
    exact (Storage.atHand_iff.mp hHand).1
  have hFree : t.use b = .free := by
    obtain ⟨-, hSome⟩ := Option.ite_none_right_eq_some.mp hStep.2
    obtain rfl := Option.some.inj hSome
    rw [Storage.bufferRelease_eq]
    exact Function.update_self ..
  refine ⟨hJob, ?_, ?_⟩
  · intro c hOwner hBlock
    rcases hConsistent.control.owned hStep rfl hOwner with ⟨hBefore, hSame⟩ | hSought
    · rw [hSame] at hBlock
      have hOn := hTask (h.locked c hBefore hBlock)
      -- the buffer with the bitmap is the one that has been released
      have hBusy := hConsistent.control.busy_of_owner hBefore
      have hBusy' : (s.buffer b).busy = true :=
        hConsistent.control.busy_of_owner (p := p) (by rw [hHolds.1]; rfl)
      have hDrive : (s.buffer c).drive = (s.buffer b).drive :=
        (hConsistent.bytes.key c (.inl hBusy)).1.trans (hConsistent.bytes.key b (.inl hBusy')).1.symm
      obtain rfl : c = b := hConsistent.control.unique (.inl hBusy) (.inl hBusy') hDrive
        (by rw [hBlock, hHolds.2, (Task.onBitmap_iff hOk).mp hOn])
      rw [hFree] at hOwner
      cases hOwner
    · cases hSought
  · intro d c asleep hLocking
    rcases hConsistent.control.locking_of_step hStep rfl hLocking with hSought | ⟨asleep', hBefore⟩
    · cases hSought
    · rw [hCall] at hBefore
      cases hBefore

/-- The store follows an event. -/
theorem follows_step (h : Storage.Follows drive (s, store)) (hStep : s.Step e t)
    (hDisciplined : s.Disciplined drive e) : Storage.Follows drive (t, store.after e) := by
  obtain ⟨Q, hConsistent, hDriven⟩ := h
  exact ⟨s.nextQueue Q e, hConsistent.step hStep hDisciplined,
    hDriven.step hConsistent.control hStep⟩

/-- What an update of a block does. -/
structure Updated (drive : Byte) (s t : Storage P) (store : BlockStore) (p : P) (b : BufferId)
    (frame : Nat → Byte) : Prop where
  follows : Storage.Follows drive
    (t, Function.update store (s.buffer b).blockNumber frame)
  others : ∀ q, q ≠ p → Storage.Spared s t q ∧
    SameOwn s q store (Function.update store (s.buffer b).blockNumber frame)
  call : t.call p = .writing b true
  use : t.use b = .held p false
  owned : ∀ c, (t.use c).owner = some p →
    (s.use c).owner = some p ∧ (t.buffer c).blockNumber = (s.buffer c).blockNumber

theorem Allocator.Updates.updated (h : Updates s p b frame t)
    (hFollows : Storage.Follows drive (s, store)) : Updated drive s t store p b frame := by
  obtain ⟨u, block, hModify, hWrite⟩ := h
  have hFollows' : Storage.Follows drive (u, store) := follows_step hFollows hModify trivial
  have hBlock : block = (s.buffer b).blockNumber := by
    obtain ⟨-, hSome⟩ := Option.ite_none_right_eq_some.mp hModify.2
    obtain rfl := Option.some.inj hSome
    rw [hWrite.1.1]
    simp [Storage.setBuffer]
  subst hBlock
  obtain ⟨Q, hConsistent, -⟩ := hFollows
  obtain ⟨Q', hConsistent', hDriven'⟩ := hFollows'
  have hWritten := (Option.ite_none_right_eq_some.mp hWrite.2).2
  -- two events of the cache in a row: the frame is changed, then written
  constructor
  · exact follows_step ⟨Q', hConsistent', hDriven'⟩ hWrite trivial
  · intro q hq
    have hNot : some p ≠ some q := fun hEq => hq (Option.some.inj hEq).symm
    have hFirst := hConsistent.control.spared hModify hNot
    refine ⟨hFirst.trans (hConsistent'.control.spared hWrite hNot), fun c hOwner => ?_⟩
    obtain ⟨hUse, hSame⟩ := hFirst.kept c hOwner
    have hStore := hConsistent'.sameOwn hWrite hNot c (by rw [hUse]; exact hOwner)
    rw [hSame] at hStore
    exact hStore
  · rw [← Option.some.inj hWritten]
    simp [Storage.bufferWrite, Storage.setCall]
  · rw [← Option.some.inj hWritten]
    simp [Storage.bufferWrite, Storage.setCall]
  · intro c hOwner
    -- neither event takes a buffer, so what it owns behind them it has owned before
    rcases hConsistent'.control.owned hWrite rfl hOwner with ⟨hBefore, hSame⟩ | hSought
    · rcases hConsistent.control.owned hModify rfl hBefore with ⟨hFirst, hSame'⟩ | hSought
      · exact ⟨hFirst, hSame.trans hSame'⟩
      · cases hSought
    · cases hSought

end Actors

end Xv6502.Block
