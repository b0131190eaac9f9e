import Xv6502.Block.Serving

/-!
# The Bytes of the Blocks

What the cache and the disk are for: a store of blocks, where `buffer_write` replaces the bytes
of a block and `buffer_read` returns them. The bytes of a block are in a valid buffer, on the
disk or in both, and the invariant says where they agree with the store.
-/

namespace Xv6502.Block

open Xv6502.Emulator
open Xv6502.Lib

variable {P : Type}

/-! ## §1 The store -/

/-- A store of blocks: the bytes of each block. -/
abbrev BlockStore := Word → Nat → Byte

/-- The store behind an event: only `buffer_write` changes a block. -/
def BlockStore.after (store : BlockStore) : Storage.Event P → BlockStore
  | .write _ _ block frame => Function.update store block frame
  | _ => store

namespace Storage

/-! ## §2 Where the bytes are -/

/-- The frames and the disk image against the store, with the disk queue `Q`. -/
structure Bytes (drive : Byte) (store : BlockStore) (s : Storage P) (Q : List BufferId) :
    Prop where
  key : ∀ b, (s.buffer b).busy = true ∨ (s.buffer b).valid = true →
    (s.buffer b).drive = drive ∧ (s.buffer b).blockNumber.toNat < blockCount
  held : ∀ b p changed, s.use b = .held p changed → (s.buffer b).valid = true
  frame : ∀ b, (s.buffer b).valid = true → (∀ p, s.use b ≠ .held p true) →
    ∀ i, i < blockSize → (s.buffer b).frame i = store (s.buffer b).blockNumber i
  -- a write is under way for a buffer that was handed out and is not changed meanwhile
  dirty : ∀ b, (s.buffer b).dirty = true → b ∈ Q ∧ ∃ p, s.use b = .held p false
  toRead : ∀ b ∈ Q, (s.buffer b).dirty = false → (s.buffer b).valid = false
  image : ∀ block : Word, block.toNat < blockCount →
    (∀ i, i < blockSize → blockOf s.device.image block i = store block i) ∨
      ∃ b, (s.buffer b).dirty = true ∧ (s.buffer b).blockNumber = block

variable {s t : Storage P} {Q R : List BufferId} {p q : P} {b c : BufferId} {drive : Byte}
  {store : BlockStore} {block : Word}

/-- A buffer that is not in the queue is not dirty. -/
theorem Bytes.clean (h : Bytes drive store s Q) (hb : b ∉ Q) : (s.buffer b).dirty = false := by
  by_contra hDirty
  exact hb (h.dirty b (by simpa using hDirty)).1

/-- The invariant does not look at the list of the cache, the links and the calls. -/
theorem Bytes.congr (h : Bytes drive store s Q) (hBuffer : t.buffer = s.buffer)
    (hDevice : t.device = s.device) (hUse : t.use = s.use) : Bytes drive store t Q := by
  obtain ⟨buffer, _, _, _, _, device, _, _, use⟩ := t
  cases hBuffer
  cases hDevice
  cases hUse
  exact ⟨h.key, h.held, h.frame, h.dirty, h.toRead, h.image⟩

/-- **Local rule**: a step at one buffer outside the queue. -/
theorem Bytes.atBuffer (h : Bytes drive store s Q) (hb : b ∉ Q)
    (hBuffer : ∀ c, c ≠ b → t.buffer c = s.buffer c) (hUse : ∀ c, c ≠ b → t.use c = s.use c)
    (hDevice : t.device = s.device) (hDirty : (t.buffer b).dirty = false)
    (hKey : (t.buffer b).drive = drive ∧ (t.buffer b).blockNumber.toNat < blockCount)
    (hHeld : ∀ p changed, t.use b = .held p changed → (t.buffer b).valid = true)
    (hFrame : (t.buffer b).valid = true → (∀ p, t.use b ≠ .held p true) →
      ∀ i, i < blockSize → (t.buffer b).frame i = store (t.buffer b).blockNumber i) :
    Bytes drive store t Q where
  -- each clause is about one buffer: it is `b`, or it has not changed
  key c hc := by
    by_cases hcb : c = b
    · rwa [hcb]
    · rw [hBuffer c hcb] at hc ⊢
      exact h.key c hc
  held c p changed hc := by
    by_cases hcb : c = b
    · subst hcb
      exact hHeld p changed hc
    · rw [hUse c hcb] at hc
      rw [hBuffer c hcb]
      exact h.held c p changed hc
  frame c hc := by
    by_cases hcb : c = b
    · subst hcb
      exact hFrame hc
    · rw [hBuffer c hcb] at hc ⊢
      rw [hUse c hcb]
      exact h.frame c hc
  dirty c hc := by
    by_cases hcb : c = b
    · subst hcb
      rw [hDirty] at hc
      cases hc
    · rw [hBuffer c hcb] at hc
      rw [hUse c hcb]
      exact h.dirty c hc
  toRead c hc := by
    have hcb : c ≠ b := by
      rintro rfl
      exact hb hc
    rw [hBuffer c hcb]
    exact h.toRead c hc
  image n hn := by
    rw [hDevice]
    rcases h.image n hn with hDisk | ⟨c, hc, hBlock⟩
    · exact .inl hDisk
    · -- the buffer of the write is another one, for it is in the queue
      have hcb : c ≠ b := by
        rintro rfl
        exact hb (h.dirty c hc).1
      exact .inr ⟨c, by rw [hBuffer c hcb]; exact ⟨hc, hBlock⟩⟩

/-! ## §3 The steps at one buffer -/

/-- The holder changes the frame: the buffer need not agree with the store until it is
    written. -/
theorem Bytes.modify (h : Bytes drive store s Q) (hb : b ∉ Q) {changed : Bool}
    (hUse : s.use b = .held p changed) (frame : Nat → Byte) :
    Bytes drive store { s.setBuffer b fun e => { e with frame := frame } with
      use := Function.update s.use b (.held p true) } Q := by
  have hValid := h.held b p changed hUse
  refine h.atBuffer hb (fun c hc => ?_) (fun c hc => ?_) rfl ?_ ?_ ?_ ?_
  · simp [setBuffer, hc]
  · simp [hc]
  · simpa [setBuffer] using h.clean hb
  · simpa [setBuffer] using h.key b (.inr hValid)
  · intro q changed' _
    simpa [setBuffer] using hValid
  · intro _ hUnchanged
    exact absurd (Function.update_self ..) (hUnchanged p)

/-- `buffer_release` behind the last `buffer_write`. -/
theorem Bytes.release (h : Bytes drive store s Q) (hb : b ∉ Q) (hUse : s.use b = .held p false) :
    Bytes drive store (s.bufferRelease b) Q := by
  have hValid := h.held b p false hUse
  rw [bufferRelease_eq]
  refine h.atBuffer hb (fun c hc => ?_) (fun c hc => ?_) rfl ?_ ?_ ?_ ?_
  · exact Function.update_of_ne hc _ _
  · exact Function.update_of_ne hc _ _
  · simpa using h.clean hb
  · simpa using h.key b (.inr hValid)
  · intro q changed hHeld
    simp at hHeld
  · intro _ _
    simpa using h.frame b hValid (by simp [hUse])

section Steps

variable [DecidableEq P]

/-- A buffer that is found and not locked is locked. -/
theorem Bytes.lock (h : Bytes drive store s Q) (hControl : Control s Q)
    (hBlock : block.toNat < blockCount) (hFound : s.lookup drive block = some b)
    (hBusy : (s.buffer b).busy = false) : Bytes drive store (s.lock p block b) Q := by
  have hFree : s.use b = .free := by
    by_contra hUse
    rw [(hControl.busy b).mpr hUse] at hBusy
    cases hBusy
  have hb := hControl.not_queued hFree
  -- the buffer is for this block, so its bytes are right when it is valid
  have hFor : s.isFor drive block b = true := List.find?_some hFound
  simp only [isFor, Bool.and_eq_true, beq_iff_eq] at hFor
  refine h.atBuffer hb (fun c hc => ?_) (fun c hc => ?_) rfl ?_ ?_ ?_ ?_
  · simp [Storage.lock, setCall, setBuffer, hc]
  · simp [Storage.lock, setBuffer, hc]
  · simpa [Storage.lock, setCall, setBuffer] using h.clean hb
  · simpa [Storage.lock, setCall, setBuffer, hFor.1, hFor.2] using hBlock
  · intro q changed hUse
    simp [Storage.lock, setBuffer] at hUse
  · intro hValid _
    have hOld := h.frame b (by simpa [Storage.lock, setCall, setBuffer] using hValid)
      (by simp [hFree])
    simpa [Storage.lock, setCall, setBuffer] using hOld

/-- An unused buffer is recycled. -/
theorem Bytes.recycle (h : Bytes drive store s Q) (hControl : Control s Q)
    (hBlock : block.toNat < blockCount) (hVictim : s.victim = some b) :
    Bytes drive store (s.recycle p drive block b) Q := by
  have hUnused : s.unused b = true := List.find?_some hVictim
  have hFree : s.use b = .free := by
    by_contra hUse
    simp [unused, (hControl.busy b).mpr hUse] at hUnused
  refine h.atBuffer (hControl.not_queued hFree) (fun c hc => ?_) (fun c hc => ?_) rfl ?_ ?_ ?_ ?_
  · simp [Storage.recycle, setCall, setBuffer, hc]
  · simp [Storage.recycle, setBuffer, hc]
  · simp [Storage.recycle, setCall, setBuffer]
  · simpa [Storage.recycle, setCall, setBuffer] using hBlock
  · intro q changed hUse
    simp [Storage.recycle, setBuffer] at hUse
  -- behind a recycling no byte of the frame counts: `valid` is false
  · intro hValid
    simp [Storage.recycle, setCall, setBuffer] at hValid

theorem Bytes.bufferGet (h : Bytes drive store s Q) (hControl : Control s Q)
    (hBlock : block.toNat < blockCount) (hGet : s.bufferGet p drive block = some t) :
    Bytes drive store t Q := by
  unfold Storage.bufferGet at hGet
  split at hGet
  · next b hFound =>
    split at hGet
    · obtain rfl := Option.some.inj hGet
      exact h.congr rfl rfl rfl
    · next hBusy =>
      obtain rfl := Option.some.inj hGet
      exact h.lock hControl hBlock hFound (by simpa using hBusy)
  · obtain ⟨b, hVictim, rfl⟩ := Option.map_eq_some_iff.mp hGet
    exact h.recycle hControl hBlock hVictim

/-- A valid buffer is handed out. -/
theorem Bytes.returned (h : Bytes drive store s Q) (hb : b ∉ Q)
    (hOwner : s.use b = .fetching p) (hValid : (s.buffer b).valid = true) :
    Bytes drive store (s.returnBuffer p b) Q := by
  refine h.atBuffer hb (fun _ _ => rfl) (fun c hc => ?_) rfl ?_ ?_ ?_ ?_
  · simp [returnBuffer, hc]
  · exact h.clean hb
  · exact h.key b (.inr hValid)
  · exact fun _ _ _ => hValid
  · exact fun _ _ => h.frame b hValid (by simp [hOwner])

/-- `buffer_read` behind `disk_block_read` finds the buffer valid already. -/
theorem readDone_eq (hValid : (s.buffer b).valid = true) :
    s.readDone p b = s.returnBuffer p b := by
  have hEq : { s.buffer b with valid := true } = s.buffer b := by rw [← hValid]
  simp only [readDone, setBuffer, hEq, Function.update_eq_self]

end Steps

/-! ## §4 A request -/

/-- **Request rule**: a buffer is submitted by its owner. The block of a write gets new bytes in
    the store, and the disk need not agree with them until the write is done. -/
theorem Bytes.submitted (h : Bytes drive store s Q) (hControl : Control s Q) (hb : b ∉ Q)
    (hBusy : (s.buffer b).busy = true) (dirty : Bool) (use : Use P) (store' : BlockStore)
    (hDirty : dirty = true → ∃ p, use = .held p false)
    (hClean : dirty = false → (s.buffer b).valid = false ∧ store' = store)
    (hHeld : ∀ p changed, use = .held p changed → (s.buffer b).valid = true)
    (hFrame : (s.buffer b).valid = true →
      ∀ i, i < blockSize → (s.buffer b).frame i = store' (s.buffer b).blockNumber i)
    (hStore : ∀ n, n ≠ (s.buffer b).blockNumber → store' n = store n) :
    Bytes drive store' { (s.setBuffer b fun e => { e with dirty := dirty }).submit b with
      use := Function.update s.use b use } (Q ++ [b]) := by
  have hKey := h.key b (.inl hBusy)
  have hMarked : Control (s.setBuffer b fun e => { e with dirty := dirty }) Q :=
    hControl.rebuffer hBusy { s.buffer b with dirty := dirty } ⟨rfl, rfl, rfl, rfl, rfl⟩
  set m := s.setBuffer b fun e => { e with dirty := dirty } with hm
  have hSelf : m.buffer b = { s.buffer b with dirty := dirty } := by simp [hm, setBuffer]
  have hOther : ∀ c, c ≠ b → m.buffer c = s.buffer c := fun c hc => by simp [hm, setBuffer, hc]
  obtain ⟨link, hSame⟩ : ∃ link : BufferId → Option BufferId,
      ∀ c, (m.submit b).buffer c = { m.buffer c with queue := link c } :=
    ⟨_, (hMarked.submit hb).2.2.2.1⟩
  have hImage : (m.submit b).device.image = s.device.image := hMarked.submit_image hb
  -- another buffer with a valid or locked block has another block
  have hUnique : ∀ c, c ≠ b → (s.buffer c).valid = true →
      (s.buffer c).blockNumber ≠ (s.buffer b).blockNumber := by
    intro c hc hValid hEq
    refine hc (hControl.unique (.inr hValid) (.inl hBusy) ?_ hEq)
    rw [(h.key c (.inr hValid)).1, hKey.1]
  refine ⟨?_, ?_, ?_, ?_, ?_, ?_⟩
  · intro c hc
    simp only [hSame c] at hc ⊢
    by_cases hcb : c = b
    · subst hcb
      rw [hSelf]
      exact hKey
    · rw [hOther c hcb] at hc ⊢
      exact h.key c hc
  · intro c p changed hUse
    simp only [hSame c]
    by_cases hcb : c = b
    · subst hcb
      rw [hSelf]
      exact hHeld p changed (by simpa using hUse)
    · rw [hOther c hcb]
      exact h.held c p changed (by simpa [hcb] using hUse)
  · intro c hValid hUnchanged
    simp only [hSame c] at hValid ⊢
    by_cases hcb : c = b
    · subst hcb
      rw [hSelf] at hValid ⊢
      exact hFrame hValid
    · rw [hOther c hcb] at hValid ⊢
      rw [hStore _ (hUnique c hcb hValid)]
      exact h.frame c hValid (by simpa [hcb] using hUnchanged)
  · intro c hc
    simp only [hSame c] at hc
    by_cases hcb : c = b
    · subst hcb
      rw [hSelf] at hc
      obtain ⟨p, hp⟩ := hDirty hc
      exact ⟨by simp, p, by simp [hp]⟩
    · rw [hOther c hcb] at hc
      obtain ⟨hQ, p, hp⟩ := h.dirty c hc
      exact ⟨List.mem_append_left _ hQ, p, by simpa [hcb] using hp⟩
  · intro c hQ hc
    simp only [hSame c] at hc ⊢
    by_cases hcb : c = b
    · subst hcb
      rw [hSelf] at hc ⊢
      exact (hClean hc).1
    · rw [hOther c hcb] at hc ⊢
      refine h.toRead c ?_ hc
      simpa [hcb] using hQ
  · intro n hn
    simp only [hImage]
    rcases h.image n hn with hDisk | ⟨c, hc, hBlock⟩
    · by_cases hnb : n = (s.buffer b).blockNumber
      · cases hd : dirty with
        | true => exact .inr ⟨b, by rw [hSame b, hSelf]; exact ⟨hd, hnb.symm⟩⟩
        | false =>
          rw [(hClean hd).2]
          exact .inl hDisk
      · rw [hStore n hnb]
        exact .inl hDisk
    · have hcb : c ≠ b := by
        rintro rfl
        exact hb (h.dirty c hc).1
      exact .inr ⟨c, by rw [hSame c, hOther c hcb]; exact ⟨hc, hBlock⟩⟩

/-! ## §5 The disk -/

/-- The disk finishes an operation. A write changes the block of a dirty buffer only. -/
theorem Bytes.transferred (h : Bytes drive store s Q) (hServing : Serving s Q)
    (hBusy : s.device.busy = true) : Bytes drive store s.transfer Q := by
  obtain ⟨b, R, rfl⟩ : ∃ b R, Q = b :: R := by
    cases Q with
    | nil =>
      rw [hServing.idle rfl] at hBusy
      cases hBusy
    | cons b R => exact ⟨b, R, rfl⟩
  have hTransfer := hServing.transfer b R rfl
  have hEq : s.transfer = { s with device := s.transfer.device, pin := true } := by
    unfold Storage.transfer
    split <;> rfl
  rw [hEq]
  -- only the image may change, and only in the block that is being written
  refine ⟨h.key, h.held, h.frame, h.dirty, h.toRead, ?_⟩
  intro n hn
  rcases h.image n hn with hDisk | hDirty
  · by_cases hd : (s.buffer b).dirty = true
    -- a write touches its own block, which is dirty, and no other
    · by_cases hnb : n = (s.buffer b).blockNumber
      · exact .inr ⟨b, hd, hnb.symm⟩
      · refine .inl fun i hi => ?_
        have hWrite : s.device.command = .write := by rw [hTransfer.command, if_pos hd]
        simp only [transfer_write hWrite]
        rw [hTransfer.image_eq hi (.inl hnb)]
        exact hDisk i hi
    · have hRead : s.device.command = .read := by rw [hTransfer.command, if_neg hd]
      simp only [transfer_read hRead]
      exact .inl hDisk
  · exact .inr hDirty

/-- What is received for a valid buffer is what it has: a buffer that is read is not valid. -/
theorem Bytes.received_of_valid (h : Bytes drive store s (b :: R))
    (hValid : (s.buffer b).valid = true) :
    received (s.buffer b) s.device s.sectorOffset = (s.buffer b).frame := by
  unfold received
  split
  · rfl
  · next hClean =>
    have hInvalid := h.toRead b List.mem_cons_self (by simpa using hClean)
    rw [hValid] at hInvalid
    cases hInvalid

/-- `disk_interrupt` goes on with the next sector of the block. -/
theorem Bytes.nextSector (h : Bytes drive store s (b :: R))
    (hMore : s.sectorOffset + 1 < sectorsPerBlock) :
    Bytes drive store (s.finishSector b) (b :: R) := by
  have hSelf : (s.advanced b).buffer b =
      { s.buffer b with frame := received (s.buffer b) s.device s.sectorOffset } := by
    simp [advanced]
  have hOther : ∀ c, c ≠ b → (s.advanced b).buffer c = s.buffer c := by
    intro c hc
    simp [advanced, hc]
  have hImage : (s.advanced b).startOperation.device.image = s.device.image :=
    startOperation_image _
  rw [finishSector_eq_advanced hMore, startOperation_eq]
  -- the buffer is the same but for the bytes that the disk has read into it
  refine ⟨?_, ?_, ?_, ?_, ?_, ?_⟩
  · intro c hc
    by_cases hcb : c = b
    · subst hcb
      rw [hSelf] at hc ⊢
      exact h.key c hc
    · simp only [hOther c hcb] at hc ⊢
      exact h.key c hc
  · intro c q changed hUse
    have hValid := h.held c q changed hUse
    by_cases hcb : c = b
    · subst hcb
      rw [hSelf]
      exact hValid
    · rw [hOther c hcb]
      exact hValid
  · intro c hValid hUnchanged
    by_cases hcb : c = b
    · subst hcb
      rw [hSelf] at hValid ⊢
      rw [h.received_of_valid hValid]
      exact h.frame c hValid hUnchanged
    · rw [hOther c hcb] at hValid ⊢
      exact h.frame c hValid hUnchanged
  · intro c hc
    refine h.dirty c ?_
    by_cases hcb : c = b
    · subst hcb
      rwa [hSelf] at hc
    · rwa [hOther c hcb] at hc
  · intro c hQ hc
    by_cases hcb : c = b
    · subst hcb
      rw [hSelf] at hc ⊢
      exact h.toRead c hQ hc
    · rw [hOther c hcb] at hc ⊢
      exact h.toRead c hQ hc
  · intro n hn
    rw [hImage]
    rcases h.image n hn with hDisk | ⟨c, hc, hBlock⟩
    · exact .inl hDisk
    · refine .inr ⟨c, ?_⟩
      by_cases hcb : c = b
      · subst hcb
        rw [hSelf]
        exact ⟨hc, hBlock⟩
      · rw [hOther c hcb]
        exact ⟨hc, hBlock⟩

/-- Behind its last sector a block agrees with the store, in the frame and on the disk. -/
theorem Bytes.block_done (h : Bytes drive store s (b :: R)) (hControl : Control s (b :: R))
    (hServing : Serving s (b :: R)) (hReady : s.device.busy = false)
    (hLast : sectorsPerBlock ≤ s.sectorOffset + 1) {i : Nat} (hi : i < blockSize) :
    received (s.buffer b) s.device s.sectorOffset i = store (s.buffer b).blockNumber i ∧
      blockOf s.device.image (s.buffer b).blockNumber i = store (s.buffer b).blockNumber i := by
  have hTransfer := hServing.transfer b R rfl
  obtain ⟨p, hOwner, -⟩ := hControl.owner_of_queued (b := b) List.mem_cons_self
  have hBusy := hControl.busy_of_owner hOwner
  have hKey := h.key b (.inl hBusy)
  have hReceived : received (s.buffer b) s.device s.sectorOffset i =
      blockOf s.device.image (s.buffer b).blockNumber i := by
    apply hTransfer.received_eq hReady
    unfold sectorsPerBlock at hLast
    unfold blockSize at hi
    unfold sectorSize
    omega
  suffices hFrame : received (s.buffer b) s.device s.sectorOffset i =
      store (s.buffer b).blockNumber i from ⟨hFrame, hReceived ▸ hFrame⟩
  by_cases hDirty : (s.buffer b).dirty = true
  · -- the holder has not changed the frame since `buffer_write`
    obtain ⟨-, q, hUse⟩ := h.dirty b hDirty
    have hValid := h.held b q false hUse
    rw [h.received_of_valid hValid]
    exact h.frame b hValid (by simp [hUse]) i hi
  · -- no other buffer has a write for this block
    rw [hReceived]
    rcases h.image _ hKey.2 with hDisk | ⟨c, hc, hBlock⟩
    · exact hDisk i hi
    · obtain ⟨-, q, hUse⟩ := h.dirty c hc
      have hValid := h.held c q false hUse
      have hcb : c = b := by
        apply hControl.unique (.inr hValid) (.inl hBusy) _ hBlock
        rw [(h.key c (.inr hValid)).1, hKey.1]
      rw [hcb] at hc
      exact absurd hc hDirty

/-- `disk_interrupt` is done with the block. -/
theorem Bytes.lastSector (h : Bytes drive store s (b :: R)) (hControl : Control s (b :: R))
    (hServing : Serving s (b :: R)) (hReady : s.device.busy = false)
    (hLast : sectorsPerBlock ≤ s.sectorOffset + 1) :
    Bytes drive store (s.finishSector b) R := by
  have hKeys : ∀ c ∈ b :: R, (s.buffer c).drive = drive ∧
      (s.buffer c).blockNumber.toNat < blockCount := by
    intro c hc
    obtain ⟨p, hOwner, -⟩ := hControl.owner_of_queued hc
    exact h.key c (.inl (hControl.busy_of_owner hOwner))
  have hNodup := List.nodup_cons.mp hControl.nodup
  obtain ⟨hBuffer, hUse, hImage, -, -⟩ := hControl.popped_transfer
    (fun c hc => (hKeys c (List.mem_cons_of_mem _ hc)).2) hLast
  have hSelf : (s.finishSector b).buffer b = { s.buffer b with
      valid := true, dirty := false
      frame := received (s.buffer b) s.device s.sectorOffset } := by simp [hBuffer, popped]
  have hOther : ∀ c, c ≠ b → (s.finishSector b).buffer c = s.buffer c := by
    intro c hc
    simp [hBuffer, popped, hc]
  -- the buffer is valid and clean now; the other buffers are as before
  refine ⟨?_, ?_, ?_, ?_, ?_, ?_⟩
  · intro c hc
    by_cases hcb : c = b
    · subst hcb
      rw [hSelf]
      exact hKeys c List.mem_cons_self
    · rw [hOther c hcb] at hc ⊢
      exact h.key c hc
  · intro c p changed hHeld
    by_cases hcb : c = b
    · subst hcb
      rw [hSelf]
    · rw [hUse] at hHeld
      rw [hOther c hcb]
      exact h.held c p changed hHeld
  · intro c hValid hUnchanged i hi
    by_cases hcb : c = b
    · subst hcb
      rw [hSelf]
      exact (h.block_done hControl hServing hReady hLast hi).1
    · rw [hUse] at hUnchanged
      rw [hOther c hcb] at hValid ⊢
      exact h.frame c hValid hUnchanged i hi
  · intro c hc
    have hcb : c ≠ b := by
      rintro rfl
      simp [hSelf] at hc
    rw [hOther c hcb] at hc
    rw [hUse]
    obtain ⟨hQ, hHeld⟩ := h.dirty c hc
    exact ⟨List.mem_of_ne_of_mem hcb hQ, hHeld⟩
  · intro c hQ hc
    have hcb : c ≠ b := by
      rintro rfl
      exact hNodup.1 hQ
    rw [hOther c hcb] at hc ⊢
    exact h.toRead c (List.mem_cons_of_mem _ hQ) hc
  · intro n hn
    rw [hImage]
    rcases h.image n hn with hDisk | ⟨c, hc, hBlock⟩
    · exact .inl hDisk
    · by_cases hcb : c = b
      · -- the write of this block is done
        subst hcb
        rw [← hBlock]
        exact .inl fun i hi => (h.block_done hControl hServing hReady hLast hi).2
      · exact .inr ⟨c, by rw [hOther c hcb]; exact ⟨hc, hBlock⟩⟩

/-- `disk_interrupt`. -/
theorem Bytes.interrupt (h : Bytes drive store s Q) (hControl : Control s Q)
    (hServing : Serving s Q) {served} :
    Bytes drive store s.interrupt (s.nextQueue Q (.interrupt served)) := by
  unfold nextQueue
  -- a stale interrupt does nothing; otherwise it goes on with the block or ends it
  by_cases hBusy : s.device.busy = true
  · rw [if_neg (by simp [hBusy]), Storage.interrupt, if_pos hBusy]
    exact h.congr rfl rfl rfl
  · have hReady : s.device.busy = false := by simpa using hBusy
    cases Q with
    | nil =>
      have hHead : s.head = none := hControl.chain
      rw [interrupt_of_none hHead, List.tail_nil, ite_self]
      exact h.congr rfl rfl rfl
    | cons b R =>
      have hHead : s.head = some b := hControl.chain.1
      rw [interrupt_of_head hReady hHead]
      have hPin : Bytes drive store { s with pin := false } (b :: R) := h.congr rfl rfl rfl
      have hControlPin : Control { s with pin := false } (b :: R) :=
        hControl.congr rfl rfl rfl rfl rfl rfl
      by_cases hMore : s.sectorOffset + 1 < sectorsPerBlock
      · rw [if_neg (by omega)]
        exact hPin.nextSector hMore
      · rw [if_pos ⟨hReady, by omega⟩]
        exact hPin.lastSector hControlPin (hServing.congr rfl rfl rfl hServing.locking) hReady
          (Nat.le_of_not_lt hMore)

end Storage

end Xv6502.Block
