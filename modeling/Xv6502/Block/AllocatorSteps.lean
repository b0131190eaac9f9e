import Xv6502.Block.AllocatorLedger

/-!
# The Steps of the Block Allocator

Every step of `block_alloc` and `block_free` keeps the invariant: one lemma for each event, and the
step lemma `Step.sound`.
-/

namespace Xv6502.Block

open Xv6502.Emulator Xv6502.Lib

variable {P : Type}

/-! ## §1 What a process reads -/

namespace Allocator

section Reads

variable {a : Allocator P} {store : BlockStore} {p : P} {b : BufferId} {task : Task}
  {e : Storage.Event P} {block : Word}

/-- The frame of a process that has the bitmap in hand is the bitmap. -/
theorem bit_frame (hFollows : Storage.Follows rootDrive (a.storage, store))
    (hHolds : Holds a.storage p task b) (hBlock : task.block mkfsSuperBlock = bitmapBlock) {n : Nat}
    (hn : n < bitsPerBlock.toNat) : bit (a.frame b) n = bit (store bitmapBlock) n := by
  obtain ⟨Q, hConsistent, -⟩ := hFollows
  have hValid := hConsistent.bytes.held b p false hHolds.1
  have hByte : n / 8 < blockSize := Nat.div_lt_of_lt_mul hn
  have hFrame := hConsistent.bytes.frame b hValid (by simp [hHolds.1]) (n / 8) hByte
  rw [hHolds.2, hBlock] at hFrame
  rw [bit, bit]
  exact congrArg (BitVec.getLsbD · (n % 8)) hFrame

/-- The block is the free one with the lowest number. -/
def LowestFree (a : Allocator P) (found : Word) : Prop :=
  isDataBlock found.toNat ∧ ¬ Allocated a.job a.live found ∧
    ∀ lower : Word, isDataBlock lower.toNat → lower.toNat < found.toNat → Allocated a.job a.live lower

/-- There is no free block. -/
def NoneFree (a : Allocator P) : Prop :=
  ∀ block : Word, isDataBlock block.toNat → Allocated a.job a.live block

/-- What `block_alloc` finds in the bitmap. -/
theorem Ledger.search (h : a.Ledger store)
    (hFollows : Storage.Follows rootDrive (a.storage, store))
    (hJob : a.job p = .read (.search block) b) :
    block = 0 ∧ (∀ found, searchBlock (a.frame b) block a.sb.size = some found → a.LowestFree found) ∧
      (searchBlock (a.frame b) block a.sb.size = none → a.NoneFree) := by
  have hOk := (h.procs p).jobOk
  rw [hJob] at hOk
  obtain ⟨-, hHolds, hBlock⟩ := hOk
  obtain rfl : block = 0 := hBlock
  -- the frame that is searched holds the bitmap of the ledger
  have hBit : ∀ {n}, n < bitsPerBlock.toNat → bit (a.frame b) n = bit (store bitmapBlock) n :=
    fun hn => bit_frame hFollows hHolds rfl hn
  have hFinds := searchBlock_finds (a.frame b) a.sb.size
  refine ⟨rfl, fun found hFound => ?_, fun hNone other hData => ?_⟩
  -- the bit is clear, and the bits below it are set
  · rw [hFound] at hFinds
    obtain ⟨n, -, hLimit, hn, hSize, hClear, hBefore⟩ := hFinds
    obtain rfl : n = found.toNat := by omega
    rw [hBit hLimit] at hClear
    have hFree : ¬ (¬ isDataBlock found.toNat ∨ Allocated a.job a.live found) := by
      rw [← h.accounts.bits found hLimit, hClear]
      exact Bool.false_ne_true
    refine ⟨by_contra fun hNot => hFree (.inl hNot), fun hAlloc => hFree (.inr hAlloc), ?_⟩
    intro lower hData hLower
    have hSet := hBefore lower.toNat (Nat.zero_le _) hLower
    have hLimit' := lt_trans hLower hLimit
    rw [hBit hLimit', h.accounts.bits lower hLimit'] at hSet
    exact hSet.resolve_left (not_not_intro hData)
  -- no bit is clear, so that no data block is free
  · rw [hNone] at hFinds
    have hSmall : other.toNat < mkfsSuperBlock.size.toNat := hData.2
    have hLimit : other.toNat < bitsPerBlock.toNat := lt_trans hSmall (by decide)
    by_contra hNot
    have hClear : bit (a.frame b) other.toNat = false := by
      by_contra hSet
      rw [hBit hLimit, Bool.not_eq_false, h.accounts.bits other hLimit] at hSet
      exact hNot (hSet.resolve_left (not_not_intro hData))
    have hEnd := hFinds other.toNat (Nat.zero_le _) hLimit hClear
    rw [h.sb] at hEnd
    omega

theorem OfRead.actor (h : OfRead p e) : e.actor = some p := by
  cases e <;> first | exact congrArg some h | exact absurd h id

theorem Returns.ofRead {s : Storage P} (h : s.Returns p block b e) : OfRead p e := by
  cases e <;> first | exact h.1 | exact absurd h id

theorem OfRead.disciplined {s : Storage P} (h : OfRead p e) : s.Disciplined rootDrive e := by
  cases e <;> trivial

theorem OfRead.after (h : OfRead p e) : store.after e = store := by
  cases e <;> first | rfl | exact absurd h id

/-- `buffer_read` goes on looking for the same block. -/
theorem OfRead.seeks {s : Storage P} (h : OfRead p e) {n : Word} (hCall : (s.call p).fetches n)
    (hSeeks : s.seeks e = some block) : block = n := by
  cases e with
  | retry q =>
    obtain rfl : q = p := h
    rw [Storage.seeks] at hSeeks
    split at hSeeks
    · next d m c asleep hLocking =>
      rw [hLocking] at hCall
      rw [← hCall.2]
      exact (Option.some.inj hSeeks).symm
    · cases hSeeks
  | readFrame q submitted => cases hSeeks
  | readDone q => cases hSeeks
  | _ => exact absurd h id

end Reads

/-! ## §2 How a process goes on -/

section Steps

variable [DecidableEq P] {a : Allocator P} {t : Storage P} {store store' : BlockStore} {p q : P}
  {b c : BufferId} {job new : Job} {task : Task} {e : Storage.Event P} {live' : Word → Bool}
  {block found : Word}

/-- The invariant of a run. -/
def Sound (a : Allocator P) : Prop :=
  ∃ store, Storage.Follows rootDrive (a.storage, store) ∧ a.Ledger store

/-- The disk writes what the store has already, and moves nobody. -/
theorem Ledger.disk (h : a.Ledger store) (hFollows : Storage.Follows rootDrive (a.storage, store))
    (hDisk : e.ofDisk) (hStep : a.storage.Step e t) : Sound { a with storage := t } := by
  have hActor : e.actor = none := by
    cases e <;> first | rfl | exact absurd hDisk id
  have hDisciplined : a.storage.Disciplined rootDrive e := by
    cases e <;> trivial
  have hSame : store.after e = store := by
    cases e <;> first | rfl | exact absurd hDisk id
  refine ⟨store, ?_, h.sb, fun q => ?_, h.accounts⟩
  · rw [← hSame]
    exact follows_step hFollows hStep hDisciplined
  · obtain ⟨Q, hConsistent, -⟩ := hFollows
    have hNot : e.actor ≠ some q := by rw [hActor]; exact (Option.some_ne_none q).symm
    exact (h.procs q).spared (hConsistent.control.spared hStep hNot) fun _ _ => rfl

/-- **Local rule**: one process does something in the block layer. -/
theorem Ledger.act (h : a.Ledger store)
    (hOthers : ∀ q, q ≠ p → Storage.Spared a.storage t q ∧ SameOwn a.storage q store store')
    (hProc : ProcOk t store' p new)
    (hAccounts : Accounts (store' bitmapBlock) (Function.update a.job p new) live') :
    Ledger store' { a with storage := t, job := Function.update a.job p new, live := live' } := by
  refine ⟨h.sb, fun q => ?_, hAccounts⟩
  by_cases hq : q = p
  · subst hq
    simp only [Function.update_self]
    exact hProc
  · simp only [Function.update_of_ne hq]
    exact (h.procs q).spared (hOthers q hq).1 (hOthers q hq).2

theorem spared_others {Q : List BufferId}
    (hConsistent : Storage.Consistent rootDrive store a.storage Q)
    (hStep : a.storage.Step e t) (hActor : e.actor = some p) :
    ∀ q, q ≠ p → Storage.Spared a.storage t q ∧ SameOwn a.storage q store (store.after e) := by
  intro q hq
  have hNot : e.actor ≠ some q := by
    rw [hActor]
    exact fun hEq => hq (Option.some.inj hEq).symm
  exact ⟨hConsistent.control.spared hStep hNot, hConsistent.sameOwn hStep hNot⟩

/-- A process goes on in the block layer, without a write. -/
theorem Ledger.goOn (h : a.Ledger store) (hFollows : Storage.Follows rootDrive (a.storage, store))
    (hStep : a.storage.Step e t) (hActor : e.actor = some p)
    (hDisciplined : a.storage.Disciplined rootDrive e) (hSame : store.after e = store)
    (hJob : JobOk t store p new) (hKeep : (a.job p).onBitmap → new.onBitmap)
    (hSeek : a.storage.seeks e = some bitmapBlock → new.onBitmap)
    (hOwns : ∀ block, new.owns block ↔ (a.job p).owns block) :
    Sound { a.setJob p new with storage := t } := by
  refine ⟨store, ?_, ?_⟩
  · rw [← hSame]
    exact follows_step hFollows hStep hDisciplined
  · obtain ⟨Q, hConsistent, -⟩ := hFollows
    have hOthers := spared_others hConsistent hStep hActor
    rw [hSame] at hOthers
    exact h.act hOthers ((h.procs p).acted hConsistent.control hStep hActor hJob hKeep hSeek)
      (h.accounts.quiet hOwns)

/-- A process releases the buffer of its task. -/
theorem Ledger.released (h : a.Ledger store)
    (hFollows : Storage.Follows rootDrive (a.storage, store))
    (hStep : a.storage.Step (.release p b) t) (hHolds : Holds a.storage p task b) (hOk : task.Ok)
    (hTask : (a.job p).onBitmap → task.onBitmap)
    (hJob : a.storage.call p = .none → t.call p = .none → JobOk t store p new)
    (hAccounts : Accounts (store bitmapBlock) (Function.update a.job p new) live') :
    Sound { a with storage := t, job := Function.update a.job p new, live := live' } := by
  refine ⟨store, follows_step hFollows hStep hHolds.1, ?_⟩
  obtain ⟨Q, hConsistent, -⟩ := hFollows
  -- a release is no call that can sleep
  have hCall : a.storage.call p = .none := by
    obtain ⟨⟨hHand, -⟩, -⟩ := Option.ite_none_right_eq_some.mp hStep.2
    exact (Storage.atHand_iff.mp hHand).1
  have hCall' : t.call p = .none := by
    obtain ⟨-, hSome⟩ := Option.ite_none_right_eq_some.mp hStep.2
    obtain rfl := Option.some.inj hSome
    rw [Storage.bufferRelease_eq]
    simp only [hCall, Call.wake]
  exact h.act (spared_others hConsistent hStep rfl)
    ((h.procs p).released hConsistent hStep hHolds hOk hTask (hJob hCall hCall')) hAccounts

/-- A process writes the block of its task. -/
theorem Ledger.updated {frame : Nat → Byte} (h : a.Ledger store)
    (hFollows : Storage.Follows rootDrive (a.storage, store))
    (hUpdates : Updates a.storage p b frame t) (hHolds : Holds a.storage p task b)
    (hOk : task.Ok) (hJob : (a.job p).onBitmap → task.onBitmap)
    (hDone : task.Done (Function.update store (a.storage.buffer b).blockNumber frame))
    (hAccounts : Accounts (Function.update store (a.storage.buffer b).blockNumber frame bitmapBlock)
      (Function.update a.job p (.writing task b)) a.live) :
    Sound { a.setJob p (.writing task b) with storage := t } := by
  -- store to the frame and `buffer_write` as one step
  have hUpdated := hUpdates.updated hFollows
  refine ⟨_, hUpdated.follows, h.act hUpdated.others ⟨?_, ?_, ?_⟩ hAccounts⟩
  · refine ⟨⟨true, hUpdated.call⟩, ⟨hUpdated.use, ?_⟩, hOk, hDone⟩
    rw [(hUpdated.owned b (by rw [hUpdated.use]; rfl)).2]
    exact hHolds.2
  · intro c hOwner hBlock
    obtain ⟨hBefore, hSame⟩ := hUpdated.owned c hOwner
    rw [hSame] at hBlock
    exact hJob ((h.procs p).locked c hBefore hBlock)
  · intro d c asleep hCall
    rw [hUpdated.call] at hCall
    cases hCall

/-- `buffer_read` that does not return is still in the same call. -/
theorem OfRead.fetches {s : Storage P} {Q : List BufferId} (h : OfRead p e)
    (hControl : Storage.Control s Q) (hStep : s.Step e t) {n : Word}
    (hCall : (s.call p).fetches n) (hWaits : t.call p ≠ .none) : (t.call p).fetches n := by
  -- `buffer_get` sleeps for the block or has a buffer for it
  have hGet : ∀ {d m}, d = rootDrive → m = n → s.bufferGet p d m = some t → (t.call p).fetches n := by
    intro d m hd hm hGet
    rcases hControl.bufferGet_cases hGet with ⟨c, rfl⟩ | ⟨c, -, hGot, -⟩
    · simp only [Storage.setCall, Function.update_self]
      exact ⟨hd, hm⟩
    · rw [hGot, Function.update_self]
      exact hm
  obtain ⟨-, hPerform⟩ := hStep
  -- the three events that `buffer_read` can go on with
  cases e with
  | retry q =>
    obtain rfl : q = p := h
    simp only [Storage.perform] at hPerform
    split at hPerform
    · next d m c hLocking =>
      rw [hLocking] at hCall
      exact hGet hCall.1 hCall.2 hPerform
    · cases hPerform
  | readFrame q submitted =>
    obtain rfl : q = p := h
    simp only [Storage.perform] at hPerform
    split at hPerform
    · next m c hGot =>
      obtain rfl := Option.some.inj hPerform
      rw [hGot] at hCall
      unfold Storage.readFrame at hWaits ⊢
      split at hWaits
      · simp [Storage.returnBuffer, Storage.setCall] at hWaits
      · next hValid =>
        rw [if_neg hValid]
        simp only [Storage.setCall, Function.update_self]
        exact hCall
    · cases hPerform
  | readDone q =>
    obtain rfl : q = p := h
    simp only [Storage.perform] at hPerform
    split at hPerform
    · obtain rfl := Option.some.inj hPerform
      simp [Storage.readDone, Storage.returnBuffer, Storage.setCall] at hWaits
    · cases hPerform
  | _ => exact absurd h id

/-- `buffer_read` has returned. -/
theorem Returns.call {s : Storage P} (h : s.Returns p block b e) (hStep : s.Step e t) :
    t.call p = .none := by
  obtain ⟨hLabels, hPerform⟩ := hStep
  -- a hit returns in `readFrame`, a miss in `readDone`
  cases e with
  | readFrame q submitted =>
    obtain ⟨rfl, rfl, hCall⟩ := h
    have hValid : (s.buffer b).valid = true := by
      have hNone : none = s.toSubmit q := hLabels
      simpa [Storage.toSubmit, hCall] using hNone
    simp only [Storage.perform, hCall, Storage.readFrame, if_pos hValid] at hPerform
    obtain rfl := Option.some.inj hPerform
    simp [Storage.returnBuffer, Storage.setCall]
  | readDone q =>
    obtain ⟨rfl, hCall⟩ := h
    simp only [Storage.perform, hCall] at hPerform
    obtain rfl := Option.some.inj hPerform
    simp [Storage.readDone, Storage.returnBuffer, Storage.setCall]
  | _ => exact absurd h id

theorem setJob_self (h : a.job p = job) : a.setJob p job = a := by
  rw [setJob, ← h, Function.update_eq_self]

/-! ## §3 One event -/

/-- A process that is in none of the calls does not come near the bitmap. -/
theorem Ledger.foreign (h : a.Ledger store)
    (hFollows : Storage.Follows rootDrive (a.storage, store)) (hIdle : a.job p = .idle)
    (hActor : e.actor = some p) (hForeign : a.Foreign e) (hStep : a.storage.Step e t) :
    Sound { a with storage := t } := by
  have hProc := h.procs p
  rw [hIdle] at hProc
  -- it looks for no buffer of the bitmap
  have hSeek : a.storage.seeks e ≠ some bitmapBlock := by
    intro hSeeks
    cases e with
    | read q d block =>
      have hNe := hForeign.2 0 (by rw [h.sb]; decide)
      rw [h.sb] at hNe
      exact hNe (Option.some.inj hSeeks)
    | retry q =>
      obtain rfl := Option.some.inj hActor
      rw [Storage.seeks] at hSeeks
      split at hSeeks
      · next d block c asleep hCall =>
        obtain rfl := Option.some.inj hSeeks
        exact hProc.locking d c asleep hCall
      · cases hSeeks
    | _ => cases hSeeks
  -- and it writes to no block of the bitmap
  have hBitmap : store.after e bitmapBlock = store bitmapBlock := by
    cases e with
    | write q c block frame =>
      obtain rfl := Option.some.inj hActor
      obtain ⟨⟨hHand, -⟩, -⟩ := Option.ite_none_right_eq_some.mp hStep.2
      obtain ⟨-, changed, hUse⟩ := Storage.atHand_iff.mp hHand
      apply Function.update_of_ne
      rintro rfl
      exact hProc.locked c (by rw [hUse]; rfl) hStep.1.1.symm
    | _ => rfl
  refine ⟨store.after e, follows_step hFollows hStep hForeign.1, ?_⟩
  obtain ⟨Q, hConsistent, -⟩ := hFollows
  have hAct : Ledger (store.after e) { a with
      storage := t, job := Function.update a.job p .idle, live := a.live } := by
    refine h.act (spared_others hConsistent hStep hActor) ?_ ?_
    · exact hProc.acted hConsistent.control hStep hActor trivial id fun hSought => absurd hSought hSeek
    · rw [hBitmap]
      exact h.accounts.quiet fun block => by rw [hIdle]
  rw [← hIdle, Function.update_eq_self] at hAct
  exact hAct

/-- A process starts a call. -/
theorem Ledger.call (h : a.Ledger store)
    (hFollows : Storage.Follows rootDrive (a.storage, store)) (hIdle : a.job p = .idle)
    (hCall : a.storage.call p = .none) (hOk : task.Ok)
    (hAccounts : Accounts (store bitmapBlock) (Function.update a.job p (.next task)) live') :
    Sound { a with job := Function.update a.job p (.next task), live := live' } := by
  have hProc := h.procs p
  rw [hIdle] at hProc
  refine ⟨store, hFollows, h.act (fun q _ => ⟨⟨rfl, fun _ _ => ⟨rfl, rfl⟩, fun _ => id⟩,
    fun _ _ => rfl⟩) ⟨⟨hCall, hOk⟩, ?_, ?_⟩ hAccounts⟩
  · exact fun c hOwner hBlock => hProc.locked c hOwner hBlock
  · exact fun d c asleep hLocking => hProc.locking d c asleep hLocking

/-- A process has found a free block. -/
theorem Ledger.decide (h : a.Ledger store)
    (hFollows : Storage.Follows rootDrive (a.storage, store))
    (hJob : a.job p = .read (.search block) b)
    (hFound : searchBlock (a.frame b) block a.sb.size = some found)
    (hUpdates : Updates a.storage p b (setBit (a.frame b) (found - block).toNat) t) :
    Sound { a.setJob p (.writing (.mark found) b) with storage := t } := by
  obtain ⟨rfl, hSearch, -⟩ := h.search hFollows hJob
  obtain ⟨hData, hFree, -⟩ := hSearch found hFound
  have hOk := (h.procs p).jobOk
  rw [hJob] at hOk
  obtain ⟨-, hHolds, -⟩ := hOk
  have hSub : found - 0 = found := BitVec.sub_zero found
  rw [hSub] at hUpdates
  have hHolds' : Holds a.storage p (.mark found) b := ⟨hHolds.1, by
    rw [hHolds.2]
    exact (bitBlock_of_data hData).symm⟩
  have hBlock : (a.storage.buffer b).blockNumber = bitmapBlock := hHolds.2
  refine h.updated hFollows hUpdates hHolds' hData (fun _ => trivial) trivial ?_
  rw [hBlock, Function.update_self]
  -- the bitmap in the frame is the one of the accounts
  have hTake : Accounts (setBit (store bitmapBlock) found.toNat)
      (Function.update a.job p (.writing (.mark found) b)) a.live := by
    refine h.accounts.take ?_ ?_ hFree
    · intro other
      rw [hJob]
      exact id
    · intro other
      exact eq_comm
  refine hTake.congr fun n hn => ?_
  rw [bit_setBit, bit_setBit, bit_frame hFollows hHolds rfl hn]

/-- A process gives a block back. -/
theorem Ledger.clear (h : a.Ledger store)
    (hFollows : Storage.Follows rootDrive (a.storage, store))
    (hJob : a.job p = .read (.free block) b)
    (hUpdates : Updates a.storage p b (clearBit (a.frame b) (bitOffset block)) t) :
    Sound { a.setJob p (.writing (.free block) b) with storage := t } := by
  have hOk := (h.procs p).jobOk
  rw [hJob] at hOk
  obtain ⟨-, hHolds, hData⟩ := hOk
  have hBlock : (a.storage.buffer b).blockNumber = bitmapBlock :=
    hHolds.2.trans (bitBlock_of_data hData)
  rw [bitOffset_of_data hData] at hUpdates
  refine h.updated hFollows hUpdates hHolds hData (fun _ => trivial) trivial ?_
  rw [hBlock, Function.update_self]
  -- with its bit the block leaves the accounts
  have hDrop : Accounts (clearBit (store bitmapBlock) block.toNat)
      (Function.update a.job p (.writing (.free block) b)) a.live := by
    refine h.accounts.drop ?_ (fun _ => id) hData
    intro other
    rw [hJob]
    exact eq_comm
  refine hDrop.congr fun n hn => ?_
  rw [bit_clearBit, bit_clearBit, bit_frame hFollows hHolds (bitBlock_of_data hData) hn]

/-- A process clears the block that it has found. -/
theorem Ledger.zero (h : a.Ledger store)
    (hFollows : Storage.Follows rootDrive (a.storage, store))
    (hJob : a.job p = .read (.zero found) b)
    (hUpdates : Updates a.storage p b (zeroed (a.frame b)) t) :
    Sound { a.setJob p (.writing (.zero found) b) with storage := t } := by
  have hOk := (h.procs p).jobOk
  rw [hJob] at hOk
  obtain ⟨-, hHolds, hData⟩ := hOk
  have hBlock : (a.storage.buffer b).blockNumber = found := hHolds.2
  refine h.updated hFollows hUpdates hHolds hData ?_ ?_ ?_
  · rw [hJob]
    exact id
  · intro i hi
    rw [hBlock, Function.update_self, zeroed, if_pos hi]
  · rw [hBlock, Function.update_of_ne (ne_bitmapBlock_of_data hData).symm]
    apply h.accounts.quiet
    intro other
    rw [hJob]
    exact Iff.rfl

/-- `block_alloc` is called. -/
theorem Ledger.alloc (h : a.Ledger store) (hFollows : Storage.Follows rootDrive (a.storage, store))
    (hIdle : a.job p = .idle) (hCall : a.storage.call p = .none) :
    Sound (a.setJob p (.next (.search 0))) := by
  refine h.call hFollows hIdle hCall rfl (h.accounts.quiet fun block => ?_)
  rw [hIdle]
  exact Iff.rfl

/-- `block_free` is called: from now on the block is the business of the process. -/
theorem Ledger.free (h : a.Ledger store) (hFollows : Storage.Follows rootDrive (a.storage, store))
    (hIdle : a.job p = .idle) (hCall : a.storage.call p = .none) (hLive : a.live block = true) :
    Sound { a.setJob p (.next (.free block)) with
      live := Function.update a.live block false } := by
  refine h.call hFollows hIdle hCall (h.accounts.data block hLive)
    (h.accounts.handIn ?_ (fun _ => eq_comm) hLive)
  intro other
  rw [hIdle]
  exact id

/-- `buffer_read` is called. -/
theorem Ledger.read (h : a.Ledger store) (hFollows : Storage.Follows rootDrive (a.storage, store))
    (hJob : a.job p = .next task)
    (hStep : a.storage.Step (.read p rootDrive (task.block a.sb)) t) :
    Sound { a.setJob p (.reading task) with storage := t } := by
  have hTask := (h.procs p).jobOk
  rw [hJob] at hTask
  rw [h.sb] at hStep
  have hControl := hFollows.choose_spec.1.control
  obtain ⟨-, hGet⟩ := Option.ite_none_right_eq_some.mp hStep.2
  refine h.goOn hFollows hStep rfl ⟨rfl, Task.block_lt hTask.2⟩ rfl ⟨?_, hTask.2⟩ ?_ ?_ ?_
  · -- the process is in `buffer_get`, asleep or with a buffer
    rcases hControl.bufferGet_cases hGet with ⟨c, rfl⟩ | ⟨c, -, hGot, -⟩
    · simp only [Storage.setCall, Function.update_self]
      exact ⟨rfl, rfl⟩
    · rw [hGot, Function.update_self]
      rfl
  · rw [hJob]
    exact False.elim
  · intro hSought
    exact (Task.onBitmap_iff hTask.2).mpr (Option.some.inj hSought)
  · intro block
    rw [hJob]
    cases task <;> exact Iff.rfl

/-- `buffer_read` goes on and does not return. -/
theorem Ledger.wait (h : a.Ledger store) (hFollows : Storage.Follows rootDrive (a.storage, store))
    (hJob : a.job p = .reading task) (hRead : OfRead p e) (hStep : a.storage.Step e t)
    (hCall : t.call p ≠ .none) : Sound { a with storage := t } := by
  have hTask := (h.procs p).jobOk
  rw [hJob] at hTask
  have hGoOn : Sound { a.setJob p (.reading task) with storage := t } := by
    refine h.goOn hFollows hStep hRead.actor hRead.disciplined hRead.after ⟨?_, hTask.2⟩ ?_ ?_ ?_
    · exact hRead.fetches hFollows.choose_spec.1.control hStep hTask.1 hCall
    · rw [hJob]
      exact id
    · intro hSought
      exact (Task.onBitmap_iff hTask.2).mpr (hRead.seeks hTask.1 hSought).symm
    · intro block
      rw [hJob]
  rw [setJob_self hJob] at hGoOn
  exact hGoOn

/-- `buffer_read` returns the buffer. -/
theorem Ledger.got (h : a.Ledger store) (hFollows : Storage.Follows rootDrive (a.storage, store))
    (hJob : a.job p = .reading task) (hStep : a.storage.Step e t)
    (hReturns : a.storage.Returns p (task.block a.sb) b e) :
    Sound { a.setJob p (.read task b) with storage := t } := by
  have hTask := (h.procs p).jobOk
  rw [hJob] at hTask
  rw [h.sb] at hReturns
  have hRead := Returns.ofRead hReturns
  obtain ⟨hUse, -, hBlock, -⟩ := hFollows.choose_spec.1.returns hStep hReturns
  refine h.goOn hFollows hStep hRead.actor hRead.disciplined hRead.after
    ⟨Returns.call hReturns hStep, ⟨hUse, hBlock⟩, hTask.2⟩ ?_ ?_ ?_
  · rw [hJob]
    exact id
  · intro hSought
    exact (Task.onBitmap_iff hTask.2).mpr (hRead.seeks hTask.1 hSought).symm
  · intro block
    rw [hJob]
    cases task <;> exact Iff.rfl

/-- `disk_submit` returns to `buffer_write`. -/
theorem Ledger.written (h : a.Ledger store)
    (hFollows : Storage.Follows rootDrive (a.storage, store)) (hJob : a.job p = .writing task b)
    (hStep : a.storage.Step (.writeDone p) t) :
    Sound { a.setJob p (.written task b) with storage := t } := by
  have hTask := (h.procs p).jobOk
  rw [hJob] at hTask
  obtain ⟨⟨asleep, hCall⟩, hHolds, hTaskOk, hDone⟩ := hTask
  have hEq : t = a.storage.setCall p .none := by
    have hPerform := hStep.2
    simp only [Storage.perform, hCall] at hPerform
    cases asleep with
    | true => cases hPerform
    | false => exact (Option.some.inj hPerform).symm
  subst hEq
  refine h.goOn hFollows hStep rfl trivial rfl
    ⟨Function.update_self .., hHolds, hTaskOk, hDone⟩ ?_ (fun hSought => by cases hSought) ?_
  · rw [hJob]
    exact id
  · intro block
    rw [hJob]
    cases task <;> exact Iff.rfl

/-- `block_alloc` finds the bitmap full: nobody owns another block than before. -/
theorem Ledger.full (h : a.Ledger store) (hFollows : Storage.Follows rootDrive (a.storage, store))
    (hJob : a.job p = .read (.search block) b) (hStep : a.storage.Step (.release p b) t) :
    Sound { a.setJob p .idle with storage := t } := by
  have hTask := (h.procs p).jobOk
  rw [hJob] at hTask
  refine h.released hFollows hStep hTask.2.1 hTask.2.2 (fun _ => trivial) (fun _ _ => trivial) ?_
  apply h.accounts.quiet
  intro other
  rw [hJob]
  exact Iff.rfl

/-- The bit is set on the disk, and the block will be cleared next. -/
theorem Ledger.marked (h : a.Ledger store) (hFollows : Storage.Follows rootDrive (a.storage, store))
    (hJob : a.job p = .written (.mark found) b) (hStep : a.storage.Step (.release p b) t) :
    Sound { a.setJob p (.next (.zero found)) with storage := t } := by
  have hTask := (h.procs p).jobOk
  rw [hJob] at hTask
  refine h.released hFollows hStep hTask.2.1 hTask.2.2.1 (fun _ => trivial)
    (fun _ hCall => ⟨hCall, hTask.2.2.1⟩) ?_
  apply h.accounts.quiet
  intro other
  rw [hJob]
  exact Iff.rfl

/-- `block_alloc` returns the block, which is live from now on. -/
theorem Ledger.allocated (h : a.Ledger store)
    (hFollows : Storage.Follows rootDrive (a.storage, store))
    (hJob : a.job p = .written (.zero found) b) (hStep : a.storage.Step (.release p b) t) :
    Sound { a.setJob p .idle with storage := t, live := Function.update a.live found true } := by
  have hTask := (h.procs p).jobOk
  rw [hJob] at hTask
  refine h.released hFollows hStep hTask.2.1 hTask.2.2.1 ?_ (fun _ _ => trivial) ?_
  · rw [hJob]
    exact id
  · refine h.accounts.handOut ?_ (fun _ => id) hTask.2.2.1
    intro other
    rw [hJob]
    exact eq_comm

/-- `block_free` returns. -/
theorem Ledger.freed (h : a.Ledger store) (hFollows : Storage.Follows rootDrive (a.storage, store))
    (hJob : a.job p = .written (.free block) b) (hStep : a.storage.Step (.release p b) t) :
    Sound { a.setJob p .idle with storage := t } := by
  have hTask := (h.procs p).jobOk
  rw [hJob] at hTask
  refine h.released hFollows hStep hTask.2.1 hTask.2.2.1 (fun _ => trivial)
    (fun _ _ => trivial) ?_
  apply h.accounts.quiet
  intro other
  rw [hJob]
  exact Iff.rfl

/-! ## §4 The step lemma -/

/-- **Step lemma**: whatever happens next, the store and the accounts go on to fit the block layer
    and the calls of the processes. -/
theorem Step.sound {e : Event P} {a' : Allocator P} (hStep : a.Step e a') (h : a.Sound) :
    a'.Sound := by
  obtain ⟨store, hFollows, hLedger⟩ := h
  cases hStep with
  | disk hDisk h => exact hLedger.disk hFollows hDisk h
  | foreign hIdle hActor hForeign h => exact hLedger.foreign hFollows hIdle hActor hForeign h
  | alloc p hIdle hCall _ => exact hLedger.alloc hFollows hIdle hCall
  | free p block hIdle hCall hLive => exact hLedger.free hFollows hIdle hCall hLive
  | read hJob h => exact hLedger.read hFollows hJob h
  | wait hJob hRead h hCall => exact hLedger.wait hFollows hJob hRead h hCall
  | got hJob h hReturns => exact hLedger.got hFollows hJob h hReturns
  | decide hJob hFound h => exact hLedger.decide hFollows hJob hFound h
  | pass hJob _ hMore _ =>
    -- there is no second block of the bitmap
    obtain ⟨rfl, -⟩ := hLedger.search hFollows hJob
    rw [hLedger.sb] at hMore
    exact absurd hMore (by decide)
  | full hJob _ _ h => exact hLedger.full hFollows hJob h
  | zero hJob h => exact hLedger.zero hFollows hJob h
  | clear hJob _ h => exact hLedger.clear hFollows hJob h
  | written hJob h => exact hLedger.written hFollows hJob h
  | marked hJob h => exact hLedger.marked hFollows hJob h
  | allocated hJob h => exact hLedger.allocated hFollows hJob h
  | freed hJob h => exact hLedger.freed hFollows hJob h

end Steps

end Allocator

end Xv6502.Block
