import Xv6502.Block.Contents

/-!
# The Buffer Cache Is a Block Store

The buffer cache over the disk driver refines a plain store of blocks: whatever the processes,
the disk and its interrupts do in between, `buffer_read` returns the bytes that were last written
to the block. The callers are bound to one drive and to writing what they have changed before
they release it.
-/

namespace Xv6502.Block

open Xv6502.Emulator
open Xv6502.Lib

variable {P : Type}

/-! ## §1 Runs and the store -/

/-- The bytes most recently written to each block in a run, and those of the disk image for a
    block that was not written. -/
def lastWritten (image : Nat → Byte) (es : List (Storage.Event P)) : BlockStore :=
  es.foldl BlockStore.after (blockOf image)

namespace Storage

/-- How the callers use the cache: one drive, block numbers below the size of the disk, no
    `sys_kill`, and a frame is not changed between the last `buffer_write` and
    `buffer_release`. -/
def Disciplined (drive : Byte) (s : Storage P) : Event P → Prop
  | .read _ d block => d = drive ∧ block.toNat < blockCount
  | .release p b => s.use b = .held p false
  | .kill _ => False
  | _ => True

/-- What the processes in the block layer have to go on with. -/
structure Pending (drive : Byte) (s : Storage P) : Prop where
  locking : ∀ p d block b asleep, s.call p = .locking d block b asleep → d = drive
  woken : ∀ p block b, s.call p = .reading block b false → (s.buffer b).valid = true

/-- The invariant of the refinement. -/
structure Consistent (drive : Byte) (store : BlockStore) (s : Storage P) (Q : List BufferId) :
    Prop where
  control : Control s Q
  serving : Serving s Q
  bytes : Bytes drive store s Q
  pending : Pending drive s

variable {s t : Storage P} {Q : List BufferId} {p q : P} {b c : BufferId} {drive : Byte}
  {store : BlockStore} {block : Word} {R : List BufferId}

theorem Disciplined.orderly {e : Event P} (h : s.Disciplined drive e) : s.Orderly e := by
  cases e with
  | read p d block => exact ⟨trivial, h.2⟩
  | kill p => exact absurd h id
  | _ => exact ⟨trivial, trivial⟩

/-! ## §2 The calls -/

/-- A process goes on to another call. -/
theorem Pending.recall (h : Pending drive s) (hCall : ∀ q, q ≠ p → t.call q = s.call q)
    (hLocking : ∀ d n b asleep, t.call p = .locking d n b asleep → d = drive)
    (hWoken : ∀ n b, t.call p ≠ .reading n b false)
    (hValid : ∀ q n b, s.call q = .reading n b false → (s.buffer b).valid = true →
      (t.buffer b).valid = true) : Pending drive t where
  locking q d n b asleep hq := by
    by_cases hqp : q = p
    · subst hqp
      exact hLocking d n b asleep hq
    · rw [hCall q hqp] at hq
      exact h.locking q d n b asleep hq
  woken q n b hq := by
    by_cases hqp : q = p
    · subst hqp
      exact absurd hq (hWoken n b)
    · rw [hCall q hqp] at hq
      exact hValid q n b hq (h.woken q n b hq)

/-- The processes that sleep on a buffer are woken up. -/
theorem Pending.wake (h : Pending drive s) (hCall : t.call = fun q => (s.call q).wake b)
    (hValid : ∀ c, (s.buffer c).valid = true → (t.buffer c).valid = true)
    (hReady : ∀ q n asleep, s.call q = .reading n b asleep → (t.buffer b).valid = true) :
    Pending drive t where
  locking q d n c asleep hq := by
    rw [hCall] at hq
    -- a process inside `buffer_get` holds no frame; being woken changes its flag only
    cases hOld : s.call q with
    | locking d' n' c' asleep' =>
      simp only [hOld, Call.wake, Call.locking.injEq] at hq
      obtain ⟨rfl, rfl, -, -⟩ := hq
      exact h.locking q _ _ _ _ hOld
    | _ =>
      simp only [hOld, Call.wake] at hq
      cases hq
  woken q n c hq := by
    rw [hCall] at hq
    cases hOld : s.call q with
    | reading n' c' asleep =>
      simp only [hOld, Call.wake, Call.reading.injEq] at hq
      obtain ⟨rfl, rfl, hAwake⟩ := hq
      -- only a read of the buffer that is woken returns here; every other one slept on
      by_cases hcb : c' = b
      · subst hcb
        exact hReady q _ _ hOld
      · have hNot : asleep = false := by simpa [hcb] using hAwake
        rw [hNot] at hOld
        exact hValid c' (h.woken q _ _ hOld)
    | _ =>
      simp only [hOld, Call.wake] at hq
      cases hq

/-- What the calls have to go on with does not change. -/
theorem Pending.congr (h : Pending drive s) (hCall : t.call = s.call)
    (hValid : ∀ c, (t.buffer c).valid = (s.buffer c).valid) : Pending drive t where
  locking := by
    rw [hCall]
    exact h.locking
  woken := by
    intro q n b hq
    rw [hCall] at hq
    rw [hValid]
    exact h.woken q n b hq

/-- A process is woken up for a buffer that has been made valid. -/
theorem Pending.finishSector (h : Pending drive s) : Pending drive (s.finishSector b) := by
  by_cases hMore : s.sectorOffset + 1 < sectorsPerBlock
  · rw [finishSector_eq_advanced hMore, startOperation_eq]
    refine h.congr rfl fun c => ?_
    by_cases hcb : c = b
    · subst hcb
      simp [advanced]
    · simp [advanced, hcb]
  -- the finished buffer is made valid before its reader is woken up
  · have hValid : ∀ c, (s.buffer c).valid = true ∨ c = b →
        ((s.popped b).buffer c).valid = true := by
      intro c hc
      by_cases hcb : c = b
      · subst hcb
        simp [popped]
      · simpa [popped, hcb] using hc
    rw [finishSector_eq_popped (Nat.le_of_not_lt hMore)]
    split
    · exact h.wake rfl (fun c hc => hValid c (.inl hc)) fun _ _ _ _ => hValid b (.inr rfl)
    · rw [startOperation_eq]
      exact h.wake rfl (fun c hc => hValid c (.inl hc)) fun _ _ _ _ => hValid b (.inr rfl)

theorem Pending.interrupt (h : Pending drive s) : Pending drive s.interrupt := by
  have hPin : Pending drive { s with pin := false } := h.congr rfl fun _ => rfl
  unfold Storage.interrupt
  dsimp only
  split
  · exact hPin
  · split
    · exact hPin
    · exact hPin.finishSector

theorem Pending.release (h : Pending drive s) (hControl : Control s Q)
    (hUse : s.use b = .held p false) : Pending drive (s.bufferRelease b) := by
  rw [bufferRelease_eq]
  refine h.wake rfl (fun c hc => ?_) ?_
  · by_cases hcb : c = b
    · subst hcb
      simpa using hc
    · simpa [hcb] using hc
  · -- nobody reads a buffer that another process holds
    intro q n asleep hReading
    have hCall := hControl.calls q
    rw [hReading] at hCall
    have hFetching := hCall.1
    rw [hUse] at hFetching
    cases hFetching

section Calls

variable [DecidableEq P]

theorem Pending.bufferGet (h : Pending drive s) (hControl : Control s Q)
    (hGet : s.bufferGet p drive block = some t) :
    Pending drive t := by
  unfold Storage.bufferGet at hGet
  -- as the source: the buffer is in the cache and busy, in the cache and free, or a victim takes
  -- its place
  split at hGet
  · split at hGet
    · obtain rfl := Option.some.inj hGet
      refine h.recall (p := p) (fun q hq => ?_) ?_ ?_ fun _ _ _ _ hValid => hValid
      · simp [setCall, hq]
      · intro d n b asleep hCall
        simp only [setCall, Function.update_self, Call.locking.injEq] at hCall
        exact hCall.1.symm
      · simp [setCall]
    · next b _ _ =>
      obtain rfl := Option.some.inj hGet
      refine h.recall (p := p) (fun q hq => ?_) ?_ ?_ fun q n c _ hValid => ?_
      · simp [Storage.lock, setCall, setBuffer, hq]
      · simp [Storage.lock, setCall]
      · simp [Storage.lock, setCall]
      · by_cases hcb : c = b
        · subst hcb
          simpa [Storage.lock, setCall, setBuffer] using hValid
        · simpa [Storage.lock, setCall, setBuffer, hcb] using hValid
  · obtain ⟨b, hVictim, rfl⟩ := Option.map_eq_some_iff.mp hGet
    have hUnused : s.unused b = true := List.find?_some hVictim
    refine h.recall (p := p) (fun q hq => ?_) ?_ ?_ fun q n c hReading hValid => ?_
    · simp [Storage.recycle, setCall, setBuffer, hq]
    · simp [Storage.recycle, setCall]
    · simp [Storage.recycle, setCall]
    · -- the buffer of a reader is locked, so that it is not recycled
      have hcb : c ≠ b := by
        rintro rfl
        have hOwner := (hControl.calls q).owner (b := c) (by rw [hReading]; rfl)
        simp [unused, hControl.busy_of_owner hOwner] at hUnused
      simpa [Storage.recycle, setCall, setBuffer, hcb] using hValid

/-- A process submits a buffer. -/
theorem Pending.submitted (h : Pending drive s) (hControl : Control s Q) (hb : b ∉ Q)
    (hBusy : (s.buffer b).busy = true) (dirty : Bool) (call : Call) (hWaits : call.waitsFor b) :
    Pending drive
      (((s.setBuffer b fun e => { e with dirty := dirty }).submit b).setCall p call) := by
  have hMarked : Control (s.setBuffer b fun e => { e with dirty := dirty }) Q :=
    hControl.rebuffer hBusy { s.buffer b with dirty := dirty } ⟨rfl, rfl, rfl, rfl, rfl⟩
  -- the driver moves the queue and the device; the calls and the valid flags are those from
  -- before
  obtain ⟨-, hCalls, -, hSame, -⟩ := hMarked.submit hb
  refine h.recall (p := p) (fun q hq => ?_) ?_ ?_ fun q n c _ hValid => ?_
  · simp only [setCall, Function.update_of_ne hq, hCalls]
    rfl
  · intro d n c asleep hCall
    simp only [setCall, Function.update_self] at hCall
    rw [hCall] at hWaits
    exact absurd hWaits id
  · intro n c hCall
    simp only [setCall, Function.update_self] at hCall
    rw [hCall] at hWaits
    exact absurd hWaits.2 (by simp)
  · simp only [setCall]
    rw [hSame c]
    by_cases hcb : c = b
    · subst hcb
      simpa [setBuffer] using hValid
    · simpa [setBuffer, hcb] using hValid

/-! ## §3 The step lemma -/

/-- `buffer_read` returns a valid buffer. -/
theorem Consistent.returned (h : Consistent drive store s Q)
    (hCall : s.call p = .got block b ∨ s.call p = .reading block b false)
    (hValid : (s.buffer b).valid = true) :
    Bytes drive store (s.returnBuffer p b) Q ∧ Pending drive (s.returnBuffer p b) := by
  have hOwn : s.use b = .fetching p ∧ b ∉ Q := by
    have hOk := h.control.calls p
    rcases hCall with hGot | hReading
    · rw [hGot] at hOk
      exact ⟨hOk.1, hOk.2.1⟩
    · rw [hReading] at hOk
      exact ⟨hOk.1, fun hb => Bool.false_ne_true (hOk.2.1.mpr hb)⟩
  refine ⟨h.bytes.returned hOwn.2 hOwn.1 hValid, ?_⟩
  refine h.pending.recall (p := p) (fun q hq => ?_) ?_ ?_ fun _ _ _ _ hOld => hOld
  · simp [returnBuffer, setCall, hq]
  · simp [returnBuffer, setCall]
  · simp [returnBuffer, setCall]

/-- `buffer_read` sends a buffer that is not valid to the disk. -/
theorem Consistent.request (h : Consistent drive store s Q) (hCall : s.call p = .got block b)
    (hValid : (s.buffer b).valid = false) :
    Bytes drive store (s.readFrame p block b) (Q ++ [b]) ∧
      Pending drive (s.readFrame p block b) := by
  have hOk := h.control.calls p
  rw [hCall] at hOk
  obtain ⟨hUse, hb, -⟩ := hOk
  have hBusy := h.control.busy_of_owner (b := b) (p := p) (by rw [hUse]; rfl)
  -- a miss clears `dirty`, so the submitted request is a read
  have hEq : s.readFrame p block b = ((s.setBuffer b fun e => { e with dirty := false }).submit
      b).setCall p (.reading block b true) := if_neg (by simp [hValid])
  rw [hEq]
  constructor
  · have hBytes := h.bytes.submitted h.control hb hBusy false (.fetching p) store (by simp)
      (fun _ => ⟨hValid, rfl⟩) (by simp) (by simp [hValid]) fun _ _ => rfl
    refine hBytes.congr rfl rfl ?_
    simp only [setCall, submit_use, setBuffer, ← hUse, Function.update_eq_self]
  · exact h.pending.submitted h.control hb hBusy false _ ⟨rfl, rfl⟩

/-- `buffer_write` gives the block the bytes of the buffer. -/
theorem Consistent.bufferWrite (h : Consistent drive store s Q) (hHand : s.atHand p b = true) :
    Bytes drive (Function.update store (s.buffer b).blockNumber (s.buffer b).frame)
      (s.bufferWrite p b) (Q ++ [b]) ∧ Pending drive (s.bufferWrite p b) := by
  obtain ⟨hCall, changed, hUse⟩ := atHand_iff.mp hHand
  have hOwner : (s.use b).owner = some p := by rw [hUse]; rfl
  have hBusy := h.control.busy_of_owner hOwner
  have hb : b ∉ Q := h.control.not_queued_of_owner hOwner (by rw [hCall]; exact id)
  -- the frame of the holder is valid: these are the bytes the block gets
  have hValid := h.bytes.held b p changed hUse
  constructor
  · have hBytes := h.bytes.submitted h.control hb hBusy true (.held p false)
      (Function.update store (s.buffer b).blockNumber (s.buffer b).frame) (fun _ => ⟨p, rfl⟩)
      (by simp) (fun _ _ _ => hValid) (by simp) fun n hn => Function.update_of_ne hn _ _
    refine hBytes.congr rfl rfl ?_
    simp only [Storage.bufferWrite, setCall, submit_use, setBuffer]
  · exact (h.pending.submitted (p := p) h.control hb hBusy true (.writing b true)
      ⟨rfl, rfl⟩).congr rfl fun _ => rfl

/-- **Step lemma**: the cache and the disk follow the store. -/
theorem Consistent.step {e : Event P} (h : Consistent drive store s Q) (hStep : s.Step e t)
    (hDisciplined : s.Disciplined drive e) :
    Consistent drive (store.after e) t (s.nextQueue Q e) := by
  -- who owns which buffer and what the disk is at are followed by their own step lemmas; what is
  -- left is where the bytes are
  have hOrderly := hDisciplined.orderly
  have hControl := h.control.step hStep hOrderly.1
  have hServing := h.serving.step h.control hStep hOrderly
  obtain ⟨hLabels, hPerform⟩ := hStep
  cases e with
  | read p d block =>
    obtain ⟨rfl, hBlock⟩ := hDisciplined
    obtain ⟨-, hGet⟩ := Option.ite_none_right_eq_some.mp hPerform
    exact ⟨hControl, hServing, h.bytes.bufferGet h.control hBlock hGet,
      h.pending.bufferGet h.control hGet⟩
  | retry p =>
    simp only [perform] at hPerform
    split at hPerform
    · next d block b hCall =>
      -- `buffer_get` runs once more from its start, for the drive it was called with
      obtain rfl := h.pending.locking p d block b false hCall
      have hBlock := h.serving.locking p d block b false hCall
      exact ⟨hControl, hServing, h.bytes.bufferGet h.control hBlock hPerform,
        h.pending.bufferGet h.control hPerform⟩
    · cases hPerform
  | readFrame p submitted =>
    simp only [perform] at hPerform
    split at hPerform
    · next block b hCall =>
      obtain rfl := Option.some.inj hPerform
      -- a miss puts the buffer into the queue and a hit returns
      have hSubmitted : submitted = if (s.buffer b).valid then none else some b := by
        rw [show submitted = s.toSubmit p from hLabels, toSubmit, hCall]
      suffices hBytes : Bytes drive store (s.readFrame p block b) (Q ++ submitted.toList) ∧
          Pending drive (s.readFrame p block b) from ⟨hControl, hServing, hBytes.1, hBytes.2⟩
      rw [hSubmitted]
      by_cases hValid : (s.buffer b).valid = true
      · rw [if_pos hValid, Option.toList_none, List.append_nil, readFrame, if_pos hValid]
        exact h.returned (.inl hCall) hValid
      · rw [if_neg hValid, Option.toList_some]
        exact h.request hCall (by simpa using hValid)
    · cases hPerform
  | readDone p =>
    simp only [perform] at hPerform
    split at hPerform
    · next block b hCall =>
      obtain rfl := Option.some.inj hPerform
      have hValid := h.pending.woken p block b hCall
      obtain ⟨hBytes, hPending⟩ := h.returned (.inr hCall) hValid
      rw [← readDone_eq hValid] at hBytes hPending
      exact ⟨hControl, hServing, hBytes, hPending⟩
    · cases hPerform
  | modify p b frame =>
    obtain ⟨hHand, hSome⟩ := Option.ite_none_right_eq_some.mp hPerform
    obtain rfl := Option.some.inj hSome
    obtain ⟨hCall, changed, hUse⟩ := atHand_iff.mp hHand
    -- the owner of the buffer is at work, so the disk is not: only then may the frame change
    have hb : b ∉ Q :=
      h.control.not_queued_of_owner (p := p) (by rw [hUse]; rfl) (by rw [hCall]; exact id)
    refine ⟨hControl, hServing, h.bytes.modify hb hUse frame, h.pending.congr rfl fun c => ?_⟩
    by_cases hcb : c = b
    · subst hcb
      simp [setBuffer]
    · simp [setBuffer, hcb]
  | write p b block frame =>
    obtain ⟨⟨hHand, -⟩, hSome⟩ := Option.ite_none_right_eq_some.mp hPerform
    obtain rfl := Option.some.inj hSome
    obtain ⟨rfl, rfl⟩ := hLabels
    obtain ⟨hBytes, hPending⟩ := h.bufferWrite hHand
    exact ⟨hControl, hServing, hBytes, hPending⟩
  | writeDone p =>
    simp only [perform] at hPerform
    split at hPerform
    · obtain rfl := Option.some.inj hPerform
      refine ⟨hControl, hServing, h.bytes.congr rfl rfl rfl, ?_⟩
      refine h.pending.recall (p := p) (fun q hq => ?_) ?_ ?_ fun _ _ _ _ hOld => hOld
      · simp [setCall, hq]
      · simp [setCall]
      · simp [setCall]
    · cases hPerform
  | release p b =>
    obtain ⟨⟨hHand, -⟩, hSome⟩ := Option.ite_none_right_eq_some.mp hPerform
    obtain rfl := Option.some.inj hSome
    obtain ⟨hCall, -⟩ := atHand_iff.mp hHand
    -- the discipline: a buffer is released only when its changes have been written
    have hUse : s.use b = .held p false := hDisciplined
    have hb : b ∉ Q :=
      h.control.not_queued_of_owner (p := p) (by rw [hUse]; rfl) (by rw [hCall]; exact id)
    exact ⟨hControl, hServing, h.bytes.release hb hUse, h.pending.release h.control hUse⟩
  | transfer =>
    obtain ⟨hBusy, hSome⟩ := Option.ite_none_right_eq_some.mp hPerform
    obtain rfl := Option.some.inj hSome
    refine ⟨hControl, hServing, h.bytes.transferred h.serving hBusy, ?_⟩
    unfold Storage.transfer
    split <;> exact h.pending.congr rfl fun _ => rfl
  | interrupt served =>
    obtain ⟨-, hSome⟩ := Option.ite_none_right_eq_some.mp hPerform
    obtain rfl := Option.some.inj hSome
    exact ⟨hControl, hServing, h.bytes.interrupt h.control h.serving, h.pending.interrupt⟩
  | kill p => exact absurd hDisciplined id

end Calls

/-- At boot the store is the disk image. -/
theorem boot_consistent (drive : Byte) (image : Nat → Byte) (frames : BufferId → Nat → Byte)
    (pin : Bool) : Consistent drive (blockOf image) (boot image frames pin : Storage P) [] where
  control := boot_control ..
  serving := boot_serving ..
  bytes := by
    refine ⟨?_, ?_, ?_, ?_, ?_, fun n _ => .inl fun i _ => rfl⟩
    · simp [boot]
    · simp [boot]
    · simp [boot]
    · simp [boot]
    · simp
  pending := ⟨by simp [boot], by simp [boot]⟩

/-! ## §4 The disk goes on -/

/-- With a request in the queue the disk works, or its interrupt is pending. -/
def Driven (s : Storage P) (Q : List BufferId) : Prop :=
  Q ≠ [] → s.device.busy = true ∨ s.pin = true

theorem startOperation_busy (hHead : s.head = some b) : s.startOperation.device.busy = true := by
  unfold startOperation
  simp only [hHead]
  split <;> rfl

/-- `disk_submit` starts the disk if it is idle. -/
theorem Driven.submit (h : Driven s Q) (hControl : Control s Q) (hb : b ∉ Q) :
    Driven (s.submit b) (Q ++ [b]) := by
  intro _
  rcases List.eq_nil_or_concat' Q with rfl | ⟨L, last, rfl⟩
  · rw [hControl.submit_empty]
    exact .inl (startOperation_busy rfl)
  · rw [hControl.submit_behind hb]
    exact h (by simp)

/-- A buffer is submitted by its owner. -/
theorem Driven.request (h : Driven s Q) (hControl : Control s Q) (hb : b ∉ Q)
    (hBusy : (s.buffer b).busy = true) (dirty : Bool) :
    Driven ((s.setBuffer b fun e => { e with dirty := dirty }).submit b) (Q ++ [b]) := by
  have hMarked : Control (s.setBuffer b fun e => { e with dirty := dirty }) Q :=
    hControl.rebuffer hBusy { s.buffer b with dirty := dirty } ⟨rfl, rfl, rfl, rfl, rfl⟩
  have hSame : Driven (s.setBuffer b fun e => { e with dirty := dirty }) Q := h
  exact hSame.submit hMarked hb

/-- `disk_interrupt` starts the next sector or the next request. -/
theorem Driven.interrupt (h : Driven s Q) (hControl : Control s Q) {served} :
    Driven s.interrupt (s.nextQueue Q (.interrupt served)) := by
  unfold nextQueue
  intro hQ
  by_cases hBusy : s.device.busy = true
  · rw [Storage.interrupt, if_pos hBusy]
    exact .inl hBusy
  · have hReady : s.device.busy = false := by simpa using hBusy
    cases Q with
    | nil => exact absurd (by simp) hQ
    | cons b R =>
      have hHead : s.head = some b := hControl.chain.1
      rw [interrupt_of_head hReady hHead]
      by_cases hMore : s.sectorOffset + 1 < sectorsPerBlock
      · rw [finishSector_eq_advanced (s := { s with pin := false }) hMore]
        exact .inl (startOperation_busy hHead)
      · rw [if_pos ⟨hReady, by omega⟩] at hQ
        -- there is a next request, and the link leads to it
        obtain ⟨c, L, rfl⟩ : ∃ c L, R = c :: L := List.exists_cons_of_ne_nil hQ
        have hNext : (s.buffer b).queue = some c := hControl.chain.2.1
        rw [finishSector_eq_popped (s := { s with pin := false }) (Nat.le_of_not_lt hMore),
          if_neg (by simp [hNext])]
        exact .inl (startOperation_busy hNext)

/-- What is left to do for the disk: two events for each sector. -/
def remaining (s : Storage P) (Q : List BufferId) : Nat :=
  2 * (sectorsPerBlock * Q.length - s.sectorOffset) + if s.device.busy then 1 else 0

theorem remaining_transfer (hBusy : s.device.busy = true) :
    s.transfer.remaining Q < s.remaining Q := by
  have hSame : s.transfer.sectorOffset = s.sectorOffset ∧ s.transfer.device.busy = false := by
    unfold Storage.transfer
    split <;> exact ⟨rfl, rfl⟩
  unfold remaining
  rw [hSame.1, hSame.2, hBusy]
  simp

theorem remaining_finishSector (h : Control s (b :: R)) (hReady : s.device.busy = false)
    (hOffset : s.sectorOffset < sectorsPerBlock) :
    (s.finishSector b).remaining
        (if sectorsPerBlock ≤ s.sectorOffset + 1 then R else b :: R) <
      s.remaining (b :: R) := by
  have hBusy : ∀ t : Storage P, (if t.device.busy = true then 1 else 0) ≤ 1 := by
    intro t
    split <;> omega
  unfold remaining
  rw [hReady, if_neg Bool.false_ne_true]
  unfold sectorsPerBlock at *
  -- one sector less of the front, or the front has gone and the next one starts at its first
  -- sector
  by_cases hMore : s.sectorOffset + 1 < 8
  · have hNext := hBusy (s.finishSector b)
    have hEq : (s.finishSector b).sectorOffset = s.sectorOffset + 1 := by
      rw [finishSector_eq_advanced hMore, startOperation_eq]
      rfl
    rw [if_neg (by omega), hEq, List.length_cons]
    omega
  · have hEq := finishSector_eq_popped (s := s) (b := b) (by unfold sectorsPerBlock; omega)
    rw [if_pos (by omega)]
    cases R with
    | nil =>
      have hNone : (s.buffer b).queue = none := h.chain.2
      rw [hEq, if_pos hNone]
      simp [popped, hReady]
      omega
    | cons c L =>
      have hNext : (s.buffer b).queue = some c := h.chain.2.1
      have hZero : (s.finishSector b).sectorOffset = 0 := by
        rw [hEq, if_neg (by simp [hNext]), startOperation_eq]
      have hOne := hBusy (s.finishSector b)
      simp only [hZero, List.length_cons]
      omega

section Runs

variable [DecidableEq P]

theorem Driven.disk {e : Event P} (h : Driven s Q) (hControl : Control s Q) (hStep : s.Step e t)
    (hDisk : e.ofDisk) : Driven t (s.nextQueue Q e) := by
  obtain ⟨-, hPerform⟩ := hStep
  cases e with
  | transfer =>
    obtain ⟨-, hSome⟩ := Option.ite_none_right_eq_some.mp hPerform
    obtain rfl := Option.some.inj hSome
    intro _
    unfold Storage.transfer
    split <;> exact .inr rfl
  | interrupt served =>
    obtain ⟨-, hSome⟩ := Option.ite_none_right_eq_some.mp hPerform
    obtain rfl := Option.some.inj hSome
    exact h.interrupt hControl
  | _ => exact absurd hDisk id

/-- With a request in the queue, the disk has an event that brings it nearer to the end. -/
theorem Consistent.disk_event (h : Consistent drive store s (b :: R)) (hDriven : Driven s (b :: R)) :
    ∃ e t, s.Step e t ∧ e.ofDisk ∧ t.remaining (s.nextQueue (b :: R) e) < s.remaining (b :: R) ∧
      ∀ p, Call.awake (t.call p) = Call.awake (s.call p) := by
  by_cases hBusy : s.device.busy = true
  · refine ⟨.transfer, s.transfer, ⟨trivial, if_pos hBusy⟩, trivial, remaining_transfer hBusy, ?_⟩
    intro p
    unfold Storage.transfer
    split <;> rfl
  · have hReady : s.device.busy = false := by simpa using hBusy
    -- a disk that does not work on the request has its interrupt pending
    have hPin : s.pin = true := (hDriven (by simp)).resolve_left hBusy
    refine ⟨.interrupt s.served, s.interrupt, ⟨rfl, if_pos hPin⟩, trivial, ?_, awake_interrupt s⟩
    have hControl : Control { s with pin := false } (b :: R) :=
      h.control.congr rfl rfl rfl rfl rfl rfl
    have hLess : ({ s with pin := false }.finishSector b).remaining
        (if sectorsPerBlock ≤ s.sectorOffset + 1 then R else b :: R) < s.remaining (b :: R) :=
      remaining_finishSector hControl hReady (h.serving.transfer b R rfl).offset
    rw [interrupt_of_head hReady h.control.chain.1]
    simpa [nextQueue, hReady] using hLess

/-- The disk and its interrupts alone empty the queue. -/
theorem Consistent.drain (h : Consistent drive store s Q) (hDriven : Driven s Q) :
    ∃ es t, Run (Guarded Step (Disciplined drive)) s es t ∧ (∀ e ∈ es, e.ofDisk) ∧
      Consistent drive store t [] ∧ ∀ p, Call.awake (t.call p) = Call.awake (s.call p) := by
  -- by induction on what is left to do
  induction hn : s.remaining Q using Nat.strong_induction_on generalizing s Q with
  | _ n ih =>
    cases Q with
    | nil => exact ⟨[], s, .nil s, by simp, h, fun _ => rfl⟩
    | cons b R =>
      obtain ⟨e, t, hStep, hDisk, hLess, hAwake⟩ := h.disk_event hDriven
      have hDisciplined : s.Disciplined drive e ∧ store.after e = store := by
        cases e with
        | transfer => exact ⟨trivial, rfl⟩
        | interrupt served => exact ⟨trivial, rfl⟩
        | _ => exact absurd hDisk id
      have hNext := h.step hStep hDisciplined.1
      rw [hDisciplined.2] at hNext
      obtain ⟨es, u, hRun, hAll, hEnd, hCalls⟩ :=
        ih _ (hn ▸ hLess) hNext (hDriven.disk h.control hStep hDisk) rfl
      refine ⟨e :: es, u, .cons ⟨hStep, hDisciplined.1⟩ hRun, ?_, hEnd, ?_⟩
      · intro e' he'
        rcases List.mem_cons.mp he' with rfl | hTail
        · exact hDisk
        · exact hAll e' hTail
      · intro p
        rw [hCalls, hAwake]

/-- **Step lemma**: a request is never left behind by the disk. -/
theorem Driven.step {e : Event P} (h : Driven s Q) (hControl : Control s Q) (hStep : s.Step e t) :
    Driven t (s.nextQueue Q e) := by
  -- `buffer_get` does not touch the disk at all
  have hGet : ∀ {p drive block}, s.bufferGet p drive block = some t → Driven t Q := by
    intro p drive block hGet
    obtain ⟨hDevice, hPin⟩ := bufferGet_device hGet
    unfold Driven
    rw [hDevice, hPin]
    exact h
  have hDisk := h.disk hControl hStep
  obtain ⟨hLabels, hPerform⟩ := hStep
  cases e with
  | read p d block => exact hGet (Option.ite_none_right_eq_some.mp hPerform).2
  | retry p =>
    simp only [perform] at hPerform
    split at hPerform
    · exact hGet hPerform
    · cases hPerform
  | readFrame p submitted =>
    simp only [perform] at hPerform
    split at hPerform
    · next block b hCall =>
      obtain rfl := Option.some.inj hPerform
      have hSubmitted : submitted = if (s.buffer b).valid then none else some b := by
        rw [show submitted = s.toSubmit p from hLabels, toSubmit, hCall]
      have hOk := hControl.calls p
      rw [hCall] at hOk
      obtain ⟨hUse, hb, -⟩ := hOk
      rw [nextQueue, hSubmitted, readFrame]
      by_cases hValid : (s.buffer b).valid = true
      · rw [if_pos hValid, if_pos hValid, Option.toList_none, List.append_nil]
        exact h
      · rw [if_neg hValid, if_neg hValid, Option.toList_some]
        -- a request is started at once when the queue was empty, and otherwise waits behind the
        -- front
        exact h.request hControl hb (hControl.busy_of_owner (p := p) (by rw [hUse]; rfl)) false
    · cases hPerform
  | readDone p =>
    simp only [perform] at hPerform
    split at hPerform
    · obtain rfl := Option.some.inj hPerform
      exact h
    · cases hPerform
  | modify p b frame =>
    obtain ⟨-, hSome⟩ := Option.ite_none_right_eq_some.mp hPerform
    obtain rfl := Option.some.inj hSome
    exact h
  | write p b block frame =>
    obtain ⟨⟨hHand, hBusy⟩, hSome⟩ := Option.ite_none_right_eq_some.mp hPerform
    obtain rfl := Option.some.inj hSome
    obtain ⟨hCall, changed, hUse⟩ := atHand_iff.mp hHand
    have hb : b ∉ Q :=
      hControl.not_queued_of_owner (p := p) (by rw [hUse]; rfl) (by rw [hCall]; exact id)
    exact h.request hControl hb hBusy true
  | writeDone p =>
    simp only [perform] at hPerform
    split at hPerform
    · obtain rfl := Option.some.inj hPerform
      exact h
    · cases hPerform
  | release p b =>
    obtain ⟨-, hSome⟩ := Option.ite_none_right_eq_some.mp hPerform
    obtain rfl := Option.some.inj hSome
    rw [bufferRelease_eq]
    exact h
  | transfer => exact hDisk trivial
  | interrupt served => exact hDisk trivial
  | kill p =>
    obtain rfl := Option.some.inj hPerform
    exact h

/-! ## §5 The refinement -/

/-- The invariants, with the store collected from the labels. -/
def Follows (drive : Byte) (x : Storage P × BlockStore) : Prop :=
  ∃ Q, Consistent drive x.2 x.1 Q ∧ Driven x.1 Q

theorem run_consistent {image : Nat → Byte} {frames : BufferId → Nat → Byte} {pin : Bool}
    {es : List (Event P)}
    (h : Run (Guarded Step (Disciplined drive)) (boot image frames pin) es s) :
    Follows drive (s, lastWritten image es) := by
  have hHistory := h.with_history BlockStore.after (blockOf image)
  refine hHistory.invariant ?_ ⟨[], boot_consistent .., fun hQ => absurd rfl hQ⟩
  rintro ⟨s, store⟩ e ⟨t, store'⟩ ⟨Q, hConsistent, hDriven⟩ ⟨⟨hStep, hDisciplined⟩, rfl⟩
  exact ⟨s.nextQueue Q e, hConsistent.step hStep hDisciplined,
    hDriven.step hConsistent.control hStep⟩

/-- With the event, the call of `buffer_read` for a block returns a buffer to a process. -/
def Returns (s : Storage P) (p : P) (block : Word) (b : BufferId) : Event P → Prop
  | .readFrame q submitted => q = p ∧ submitted = none ∧ s.call p = .got block b
  | .readDone q => q = p ∧ s.call p = .reading block b false
  | _ => False

/-- What `buffer_read` returns is the block of the store. -/
theorem Consistent.returns {e : Event P} (h : Consistent drive store s Q) (hStep : s.Step e t)
    (hReturns : s.Returns p block b e) :
    t.use b = .held p false ∧ (t.buffer b).drive = drive ∧ (t.buffer b).blockNumber = block ∧
      ∀ i, i < blockSize → (t.buffer b).frame i = store block i := by
  -- both ways the buffer is valid and `buffer_read` only hands it out
  have hOut : (s.call p = .got block b ∨ s.call p = .reading block b false) →
      (s.buffer b).valid = true → t = s.returnBuffer p b →
      t.use b = .held p false ∧ (t.buffer b).drive = drive ∧ (t.buffer b).blockNumber = block ∧
        ∀ i, i < blockSize → (t.buffer b).frame i = store block i := by
    rintro hCall hValid rfl
    have hOk := h.control.calls p
    obtain ⟨hUse, hBlock⟩ : s.use b = .fetching p ∧ (s.buffer b).blockNumber = block := by
      rcases hCall with hGot | hReading
      · rw [hGot] at hOk
        exact ⟨hOk.1, hOk.2.2⟩
      · rw [hReading] at hOk
        exact ⟨hOk.1, hOk.2.2⟩
    refine ⟨Function.update_self .., (h.bytes.key b (.inr hValid)).1, hBlock, ?_⟩
    intro i hi
    have hFrame := h.bytes.frame b hValid (by simp [hUse]) i hi
    rw [hBlock] at hFrame
    exact hFrame
  obtain ⟨hLabels, hPerform⟩ := hStep
  cases e with
  | readFrame q submitted =>
    obtain ⟨rfl, rfl, hCall⟩ := hReturns
    have hValid : (s.buffer b).valid = true := by
      have hNone : none = s.toSubmit q := hLabels
      simpa [toSubmit, hCall] using hNone
    simp only [perform, hCall, readFrame, if_pos hValid] at hPerform
    exact hOut (.inl hCall) hValid (Option.some.inj hPerform).symm
  | readDone q =>
    obtain ⟨rfl, hCall⟩ := hReturns
    have hValid := h.pending.woken q block b hCall
    simp only [perform, hCall, readDone_eq hValid] at hPerform
    exact hOut (.inr hCall) hValid (Option.some.inj hPerform).symm
  | _ => exact absurd hReturns id

/-- `buffer_get` does not panic while a buffer is not locked. -/
theorem Control.bufferGet_isSome (h : Control s Q) (hFree : s.use b = .free) (p : P) (drive : Byte)
    (block : Word) : (s.bufferGet p drive block).isSome = true := by
  unfold Storage.bufferGet
  split
  · split <;> rfl
  · have hBusy : (s.buffer b).busy = false := by
      by_contra hTrue
      exact (h.busy b).mp (by simpa using hTrue) hFree
    have hUnused : s.unused b = true := by simp [unused, h.refcount b, hBusy]
    have hVictim : s.victim.isSome = true := by
      rw [victim, List.find?_isSome]
      exact ⟨b, List.mem_reverse.mpr (h.listed b), hUnused⟩
    rw [Option.isSome_map, hVictim]

/-- A request that the disk has got is done after some events of the disk, and `buffer_read` can
    return. -/
theorem Consistent.read_ends (h : Consistent drive store s Q) (hDriven : Driven s Q)
    {asleep : Bool} (hCall : s.call p = .reading block b asleep) :
    ∃ es t u, Run (Guarded Step (Disciplined drive)) s es t ∧ (∀ e ∈ es, e.ofDisk) ∧
      t.Step (.readDone p) u ∧ t.Returns p block b (.readDone p) := by
  obtain ⟨es, t, hRun, hDisk, hEnd, hAwake⟩ := h.drain hDriven
  have hNow : t.call p = .reading block b false := by
    have hSame := hAwake p
    rw [hCall] at hSame
    have hOk := hEnd.control.calls p
    cases hEq : t.call p with
    | reading n c asleep' =>
      rw [hEq] at hSame hOk
      obtain ⟨rfl, rfl⟩ : n = block ∧ c = b := by simpa [Call.awake] using hSame
      -- the queue is empty, so that the process is awake
      obtain rfl : asleep' = false := by simpa using hOk.2.1
      rfl
    | _ =>
      rw [hEq] at hSame
      cases hSame
  refine ⟨es, t, t.readDone p b, hRun, hDisk, ⟨trivial, ?_⟩, rfl, hNow⟩
  simp only [perform, hNow]

/-- **Refinement**: whatever the processes and the disk have done, `buffer_read` returns the bytes
    that were last written to the block, or those of the disk image. It panics only with all
    buffers locked, and once it has a buffer the disk lets it return. The store of an abstract
    block device follows the writes of the run; a valid buffer, the disk or a write in the queue
    has the bytes of each block, and the sectors left to the disk measure how far a read is from
    its end. -/
theorem bufferRead_refines {image : Nat → Byte} {frames : BufferId → Nat → Byte} {pin : Bool}
    {es : List (Event P)}
    (h : Run (Guarded Step (Disciplined drive)) (boot image frames pin) es s) :
    (∀ p block b e t, s.Step e t → s.Returns p block b e →
      t.use b = .held p false ∧ (t.buffer b).drive = drive ∧ (t.buffer b).blockNumber = block ∧
        ∀ i, i < blockSize → (t.buffer b).frame i = lastWritten image es block i) ∧
    (∀ p block, (∃ b, s.use b = .free) → (s.bufferGet p drive block).isSome = true) ∧
    ∀ p block b, (s.call p = .got block b ∨ ∃ asleep, s.call p = .reading block b asleep) →
      ∃ es' t e u, Run (Guarded Step (Disciplined drive)) s es' t ∧
        (∀ e' ∈ es', e'.ofDisk ∨ e' = .readFrame p (some b)) ∧
        t.Step e u ∧ t.Returns p block b e := by
  -- every run keeps the bytes at the place the store says, and keeps the disk going
  obtain ⟨Q, hConsistent, hDriven⟩ := run_consistent h
  refine ⟨?_, ?_, ?_⟩
  -- what a call that returns hands out
  · intro p block b e t hStep hReturns
    exact hConsistent.returns hStep hReturns
  -- a call gets a buffer unless all are locked
  · rintro p block ⟨b, hFree⟩
    exact hConsistent.control.bufferGet_isSome hFree p drive block
  · intro p block b hCall
    rcases hCall with hGot | ⟨asleep, hReading⟩
    · by_cases hValid : (s.buffer b).valid = true
      · -- a hit returns at once
        have hNone : s.toSubmit p = none := by simp [toSubmit, hGot, hValid]
        refine ⟨[], s, .readFrame p none, s.readFrame p block b, .nil s, by simp, ⟨?_, ?_⟩, ?_⟩
        · exact hNone.symm
        · simp only [perform, hGot]
        · exact ⟨rfl, rfl, hGot⟩
      -- a miss submits first, and is then a read that sleeps, which the disk ends
      · have hSome : s.toSubmit p = some b := by simp [toSubmit, hGot, hValid]
        have hStep : s.Step (.readFrame p (some b)) (s.readFrame p block b) := by
          refine ⟨hSome.symm, ?_⟩
          simp only [perform, hGot]
        have hCall : (s.readFrame p block b).call p = .reading block b true := by
          rw [readFrame, if_neg hValid]
          exact Function.update_self ..
        obtain ⟨es', t, u, hRun, hDisk, hLast, hReturns⟩ :=
          (hConsistent.step hStep trivial).read_ends (hDriven.step hConsistent.control hStep) hCall
        refine ⟨_ :: es', t, _, u, .cons ⟨hStep, trivial⟩ hRun, ?_, hLast, hReturns⟩
        intro e he
        rcases List.mem_cons.mp he with rfl | hTail
        · exact .inr rfl
        · exact .inl (hDisk e hTail)
    · obtain ⟨es', t, u, hRun, hDisk, hLast, hReturns⟩ := hConsistent.read_ends hDriven hReading
      exact ⟨es', t, _, u, hRun, fun e he => .inl (hDisk e he), hLast, hReturns⟩

end Runs

/-- A process reads block 34 from the disk. -/
theorem boot_bufferRead_refines :
    ∃ s t : Storage Bool, Run (Guarded Step (Disciplined 0))
      (boot (fun i => BitVec.ofNat 8 (i / 512)) (fun _ _ => 0) false)
      [.read true 0 34, .readFrame true (some 0),
        .transfer, .interrupt (some (0, 0)), .transfer, .interrupt (some (0, 1)),
        .transfer, .interrupt (some (0, 2)), .transfer, .interrupt (some (0, 3)),
        .transfer, .interrupt (some (0, 4)), .transfer, .interrupt (some (0, 5)),
        .transfer, .interrupt (some (0, 6)), .transfer, .interrupt (some (0, 7))] s ∧
      s.Step (.readDone true) t ∧
      ∀ i, i < blockSize → (t.buffer 0).frame i = blockOf (fun i => BitVec.ofNat 8 (i / 512)) 34 i := by
  have hRun : Run (Guarded Step (Disciplined 0))
      (boot (fun i => BitVec.ofNat 8 (i / 512)) (fun _ _ => 0) false : Storage Bool)
      [.read true 0 34, .readFrame true (some 0),
        .transfer, .interrupt (some (0, 0)), .transfer, .interrupt (some (0, 1)),
        .transfer, .interrupt (some (0, 2)), .transfer, .interrupt (some (0, 3)),
        .transfer, .interrupt (some (0, 4)), .transfer, .interrupt (some (0, 5)),
        .transfer, .interrupt (some (0, 6)), .transfer, .interrupt (some (0, 7))] _ :=
    .cons ⟨⟨trivial, rfl⟩, rfl, by decide⟩ (.cons ⟨⟨rfl, rfl⟩, trivial⟩
      (.cons ⟨⟨trivial, rfl⟩, trivial⟩ (.cons ⟨⟨rfl, rfl⟩, trivial⟩
      (.cons ⟨⟨trivial, rfl⟩, trivial⟩ (.cons ⟨⟨rfl, rfl⟩, trivial⟩
      (.cons ⟨⟨trivial, rfl⟩, trivial⟩ (.cons ⟨⟨rfl, rfl⟩, trivial⟩
      (.cons ⟨⟨trivial, rfl⟩, trivial⟩ (.cons ⟨⟨rfl, rfl⟩, trivial⟩
      (.cons ⟨⟨trivial, rfl⟩, trivial⟩ (.cons ⟨⟨rfl, rfl⟩, trivial⟩
      (.cons ⟨⟨trivial, rfl⟩, trivial⟩ (.cons ⟨⟨rfl, rfl⟩, trivial⟩
      (.cons ⟨⟨trivial, rfl⟩, trivial⟩ (.cons ⟨⟨rfl, rfl⟩, trivial⟩
      (.cons ⟨⟨trivial, rfl⟩, trivial⟩ (.cons ⟨⟨rfl, rfl⟩, trivial⟩ (.nil _))))))))))))))))))
  have hStep := (bufferRead_refines hRun).1 true 34 0 (.readDone true) _ ⟨trivial, rfl⟩ ⟨rfl, rfl⟩
  exact ⟨_, _, hRun, ⟨trivial, rfl⟩, hStep.2.2.2⟩

end Storage

end Xv6502.Block
