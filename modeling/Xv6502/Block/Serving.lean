import Xv6502.Block.Transfer

/-!
# The Disk at Work on the Queue

The disk works for the first request of the queue, sector by sector. The invariant holds in every
run that submits blocks of the disk only and does not wake a process up early; it needs nothing
about what the processes do with the frames.
-/

namespace Xv6502.Block

open Xv6502.Emulator
open Xv6502.Lib

namespace Storage

variable {P : Type}

/-! ## §1 The invariant -/

/-- A step that reads blocks of the disk only and wakes nobody up in `disk_submit` before its
    time. -/
def Orderly (s : Storage P) (e : Event P) : Prop :=
  s.SparesRequests e ∧
    match e with
    | .read _ _ block => block.toNat < blockCount
    | _ => True

/-- The event is one of the disk. -/
def Event.ofDisk : Event P → Prop
  | .transfer => True
  | .interrupt _ => True
  | _ => False

/-- The disk is at the sector of the first request that `disk.sector_offset` tells. -/
structure Serving (s : Storage P) (Q : List BufferId) : Prop where
  bound : ∀ b, (s.buffer b).busy = true → (s.buffer b).blockNumber.toNat < blockCount
  locking : ∀ p d n b asleep, s.call p = .locking d n b asleep → n.toNat < blockCount
  idle : Q = [] → s.device.busy = false
  transfer : ∀ b R, Q = b :: R → Transfer (s.buffer b) s.device s.sectorOffset

variable {s t : Storage P} {Q R : List BufferId} {p q : P} {b c : BufferId} {drive : Byte}
  {block : Word}

/-- A queued buffer has a block of the disk. -/
theorem Serving.bound_of_queued (h : Serving s Q) (hControl : Control s Q) (hb : b ∈ Q) :
    (s.buffer b).blockNumber.toNat < blockCount := by
  obtain ⟨p, hOwner, -⟩ := hControl.owner_of_queued hb
  exact h.bound b (hControl.busy_of_owner hOwner)

/-- **Local rule**: a step at one buffer outside the queue. -/
theorem Serving.atBuffer (h : Serving s Q) (hb : b ∉ Q)
    (hBuffer : ∀ c, c ≠ b → t.buffer c = s.buffer c) (hDevice : t.device = s.device)
    (hOffset : t.sectorOffset = s.sectorOffset)
    (hBound : (t.buffer b).busy = true → (t.buffer b).blockNumber.toNat < blockCount)
    (hLocking : ∀ p d n b asleep, t.call p = .locking d n b asleep → n.toNat < blockCount) :
    Serving t Q where
  bound c hc := by
    by_cases hcb : c = b
    · subst hcb
      exact hBound hc
    · rw [hBuffer c hcb] at hc ⊢
      exact h.bound c hc
  locking := hLocking
  idle hQ := by
    rw [hDevice]
    exact h.idle hQ
  transfer c R hQ := by
    -- the front of the queue is another buffer
    have hcb : c ≠ b := by
      rintro rfl
      exact hb (by simp [hQ])
    rw [hBuffer c hcb, hDevice, hOffset]
    exact h.transfer c R hQ

/-- The invariant does not look at the list of the cache, the use of the buffers and the
    interrupt line. -/
theorem Serving.congr (h : Serving s Q) (hBuffer : t.buffer = s.buffer)
    (hDevice : t.device = s.device) (hOffset : t.sectorOffset = s.sectorOffset)
    (hLocking : ∀ p d n b asleep, t.call p = .locking d n b asleep → n.toNat < blockCount) :
    Serving t Q where
  bound := by
    rw [hBuffer]
    exact h.bound
  locking := hLocking
  idle := by
    rw [hDevice]
    exact h.idle
  transfer := by
    rw [hBuffer, hDevice, hOffset]
    exact h.transfer

/-- Waking up leaves the block that a process looks for alone. -/
theorem Serving.locking_wake (h : Serving s Q) (p : P) (d : Byte) (n : Word) (c : BufferId)
    (asleep : Bool) (hCall : (s.call p).wake b = .locking d n c asleep) : n.toNat < blockCount := by
  cases hOld : s.call p with
  | locking d' n' c' asleep' =>
    simp only [hOld, Call.wake, Call.locking.injEq] at hCall
    obtain ⟨-, rfl, -, -⟩ := hCall
    exact h.locking p _ _ _ _ hOld
  | _ =>
    simp only [hOld, Call.wake] at hCall
    cases hCall

/-! ## §2 A request -/

/-- `disk_submit` starts the transfer of the first request and leaves a transfer that is under
    way alone. -/
theorem Control.submit_transfer (h : Control s Q) (hb : b ∉ Q)
    (hBlock : (s.buffer b).blockNumber.toNat < blockCount)
    (hTransfer : ∀ c R, Q = c :: R → Transfer (s.buffer c) s.device s.sectorOffset) :
    ∀ c R, Q ++ [b] = c :: R →
      Transfer ((s.submit b).buffer c) (s.submit b).device (s.submit b).sectorOffset := by
  have hSame := (h.submit hb).2.2.2.1
  have hOffset := h.submit_sectorOffset hb
  rcases List.eq_nil_or_concat' Q with rfl | ⟨L, last, rfl⟩
  · rw [if_pos rfl] at hOffset
    have hStart := startOperation_transfer (b := b) (s := { s.setBuffer b fun e =>
      { e with queue := none } with head := some b, tail := some b, sectorOffset := 0 }) rfl
      (by simp [sectorsPerBlock]) (by simpa [setBuffer] using hBlock) (by simp)
    rw [← h.submit_empty] at hStart
    obtain ⟨hFirst, -, -⟩ := hStart
    intro c R hQ
    obtain rfl : b = c := (List.cons.inj hQ).1
    rw [hOffset, hSame b]
    exact hFirst.congr (by simp [setBuffer]) (by simp [setBuffer]) (by simp [setBuffer])
  · rw [if_neg (by simp)] at hOffset
    have hDevice : (s.submit b).device = s.device := by rw [h.submit_behind hb]; rfl
    intro c R hQ
    -- the first request is the same as before
    obtain ⟨R', hR'⟩ : ∃ R', L ++ [last] = c :: R' := by
      cases L with
      | nil => exact ⟨[], by simpa using (List.cons.inj hQ).1⟩
      | cons d L => exact ⟨L ++ [last], by simpa using (List.cons.inj hQ).1⟩
    rw [hDevice, hOffset, hSame c]
    exact (hTransfer c R' hR').congr rfl rfl rfl

section Requests

variable [DecidableEq P]

/-- **Request rule**: a buffer is submitted by its owner, who goes to sleep. -/
theorem Serving.submitted (h : Serving s Q) (hControl : Control s Q) (hb : b ∉ Q)
    (hBusy : (s.buffer b).busy = true) (dirty : Bool) (call : Call) (hWaits : call.waitsFor b) :
    Serving (((s.setBuffer b fun e => { e with dirty := dirty }).submit b).setCall p call)
      (Q ++ [b]) := by
  have hMarked : Control (s.setBuffer b fun e => { e with dirty := dirty }) Q :=
    hControl.rebuffer hBusy { s.buffer b with dirty := dirty } ⟨rfl, rfl, rfl, rfl, rfl⟩
  -- `m` is the cache when the direction is set and the driver not yet called
  set m := s.setBuffer b fun e => { e with dirty := dirty } with hm
  have hSelf : m.buffer b = { s.buffer b with dirty := dirty } := by simp [hm, setBuffer]
  have hOther : ∀ c, c ≠ b → m.buffer c = s.buffer c := fun c hc => by simp [hm, setBuffer, hc]
  obtain ⟨-, hCalls, -, hSame, -⟩ := hMarked.submit hb
  -- the front of the queue is the old front, or `b` itself when the queue was empty
  have hTransfer := hMarked.submit_transfer hb (by rw [hSelf]; exact h.bound b hBusy) (by
    intro c R hQ
    have hcb : c ≠ b := by
      rintro rfl
      exact hb (by simp [hQ])
    rw [hOther c hcb]
    exact h.transfer c R hQ)
  refine ⟨?_, ?_, by simp, hTransfer⟩
  · intro c hc
    simp only [setCall] at hc ⊢
    rw [hSame c] at hc ⊢
    by_cases hcb : c = b
    · subst hcb
      rw [hSelf]
      exact h.bound c hBusy
    · rw [hOther c hcb] at hc ⊢
      exact h.bound c hc
  · intro q d n c asleep hq
    simp only [setCall] at hq
    by_cases hqp : q = p
    · subst hqp
      rw [Function.update_self] at hq
      rw [hq] at hWaits
      exact absurd hWaits id
    · rw [Function.update_of_ne hqp, hCalls] at hq
      exact h.locking q d n c asleep hq

end Requests

/-! ## §3 The disk and its interrupt -/

/-- The state behind a sector that is not the last one, before the next one is started. -/
def advanced (s : Storage P) (b : BufferId) : Storage P :=
  { s with
    buffer := Function.update s.buffer b
      { s.buffer b with frame := received (s.buffer b) s.device s.sectorOffset }
    sectorOffset := s.sectorOffset + 1 }

theorem finishSector_eq_advanced (hMore : s.sectorOffset + 1 < sectorsPerBlock) :
    s.finishSector b = (s.advanced b).startOperation := by
  unfold finishSector
  rw [copySector_eq]
  exact if_neg (by simpa using hMore)

/-- The state behind the last sector of a block, before the next request is started. -/
def popped (s : Storage P) (b : BufferId) : Storage P :=
  { s with
    buffer := Function.update s.buffer b
      { s.buffer b with
        valid := true, dirty := false
        frame := received (s.buffer b) s.device s.sectorOffset }
    head := (s.buffer b).queue
    sectorOffset := s.sectorOffset + 1
    call := fun p => (s.call p).wake b }

theorem finishSector_eq_popped (hLast : sectorsPerBlock ≤ s.sectorOffset + 1) :
    s.finishSector b = if (s.buffer b).queue = none then s.popped b
      else { s.popped b with sectorOffset := 0 }.startOperation := by
  unfold finishSector
  rw [copySector_eq]
  dsimp only
  rw [if_pos hLast]
  simp [finishBlock, setBuffer, wakeup, popped]

/-- The device behind the last sector of a block: the next request is started. -/
theorem Control.popped_transfer (h : Control s (b :: R))
    (hBlock : ∀ c ∈ R, (s.buffer c).blockNumber.toNat < blockCount)
    (hLast : sectorsPerBlock ≤ s.sectorOffset + 1) :
    (s.finishSector b).buffer = (s.popped b).buffer ∧ (s.finishSector b).use = s.use ∧
      (s.finishSector b).device.image = s.device.image ∧
      (R = [] → (s.finishSector b).device = s.device) ∧
      ∀ c L, R = c :: L →
        Transfer (s.buffer c) (s.finishSector b).device (s.finishSector b).sectorOffset := by
  have hRest : Chain (fun c => (s.buffer c).queue) (s.buffer b).queue R := h.chain.2
  rw [finishSector_eq_popped hLast]
  -- the queue is empty and the disk rests, or the next buffer starts at its sector 0
  cases R with
  | nil =>
    have hNone : (s.buffer b).queue = none := hRest
    rw [if_pos hNone]
    exact ⟨rfl, rfl, rfl, fun _ => rfl, fun c L hR => absurd hR (by simp)⟩
  | cons d L =>
    have hSome : (s.buffer b).queue = some d := hRest.1
    have hdb : d ≠ b := by
      rintro rfl
      simpa using h.nodup
    have hSame : (s.popped b).buffer d = s.buffer d := by simp [popped, hdb]
    rw [if_neg (by simp [hSome])]
    obtain ⟨hNext, -, hImage⟩ := startOperation_transfer (b := d)
      (s := { s.popped b with sectorOffset := 0 }) hSome (by simp [sectorsPerBlock])
      (by simpa only [hSame] using hBlock d List.mem_cons_self) (by simp)
    rw [startOperation_eq]
    refine ⟨rfl, rfl, hImage, by simp, ?_⟩
    intro c L' hR
    obtain rfl : d = c := (List.cons.inj hR).1
    rw [← hSame]
    exact hNext

/-- The disk finishes an operation. -/
theorem Serving.transferred (h : Serving s Q) (hBusy : s.device.busy = true) :
    Serving s.transfer Q := by
  have hEq : s.transfer = { s with device := s.transfer.device, pin := true } := by
    unfold Storage.transfer
    split <;> rfl
  have hReady : s.transfer.device.busy = false := by
    unfold Storage.transfer
    split <;> rfl
  rw [hEq]
  exact ⟨h.bound, h.locking, fun _ => hReady, fun c L hQ => (h.transfer c L hQ).transfer hBusy⟩

/-- `disk_interrupt` goes on with the next sector of the block. -/
theorem Serving.nextSector (h : Serving s (b :: R)) (hControl : Control s (b :: R))
    (hReady : s.device.busy = false) (hMore : s.sectorOffset + 1 < sectorsPerBlock) :
    Serving (s.finishSector b) (b :: R) := by
  have hTransfer := h.transfer b R rfl
  have hSelf : (s.advanced b).buffer b =
      { s.buffer b with frame := received (s.buffer b) s.device s.sectorOffset } := by
    simp [advanced]
  -- the same buffer, one sector on
  obtain ⟨hNext, -, -⟩ := startOperation_transfer (s := s.advanced b) (b := b)
    hControl.chain.1 hMore
    (by rw [hSelf]; exact h.bound_of_queued hControl List.mem_cons_self)
    (fun i hi => by rw [hSelf]; exact hTransfer.received_eq hReady hi)
  rw [finishSector_eq_advanced hMore, startOperation_eq]
  refine ⟨?_, h.locking, by simp, ?_⟩
  · intro c hc
    by_cases hcb : c = b
    · subst hcb
      rw [hSelf] at hc ⊢
      exact h.bound c hc
    · have hOther : (s.advanced b).buffer c = s.buffer c := by simp [advanced, hcb]
      rw [hOther] at hc ⊢
      exact h.bound c hc
  · intro c L hQ
    obtain rfl : b = c := (List.cons.inj hQ).1
    exact hNext

/-- `disk_interrupt` is done with the block. -/
theorem Serving.lastSector (h : Serving s (b :: R)) (hControl : Control s (b :: R))
    (hReady : s.device.busy = false) (hLast : sectorsPerBlock ≤ s.sectorOffset + 1) :
    Serving (s.finishSector b) R := by
  have hNodup := List.nodup_cons.mp hControl.nodup
  obtain ⟨hBuffer, -, -, hIdle, hTransfer⟩ := hControl.popped_transfer
    (fun c hc => h.bound_of_queued hControl (List.mem_cons_of_mem _ hc)) hLast
  have hOther : ∀ c, c ≠ b → (s.finishSector b).buffer c = s.buffer c := by
    intro c hc
    simp [hBuffer, popped, hc]
  refine ⟨?_, ?_, ?_, ?_⟩
  · intro c hc
    by_cases hcb : c = b
    · subst hcb
      simp only [hBuffer, popped, Function.update_self] at hc ⊢
      exact h.bound c hc
    · rw [hOther c hcb] at hc ⊢
      exact h.bound c hc
  · intro p d n c asleep hCall
    -- `wakeup` ends the sleep of those who wait for the buffer
    apply h.locking_wake p d n c asleep (b := b)
    rw [← hCall, finishSector_eq_popped hLast]
    split
    · rfl
    · rw [startOperation_eq]
      rfl
  · intro hR
    rw [hIdle hR]
    exact hReady
  · intro c L hR
    -- no buffer is in the queue twice, so the next one is another
    have hcb : c ≠ b := by
      rintro rfl
      exact hNodup.1 (by simp [hR])
    rw [hOther c hcb]
    exact hTransfer c L hR

/-- `disk_interrupt`. -/
theorem Serving.interrupt (h : Serving s Q) (hControl : Control s Q) {served} :
    Serving s.interrupt (s.nextQueue Q (.interrupt served)) := by
  unfold nextQueue
  -- stale, nothing queued, or a sector done; then another sector or another block
  by_cases hBusy : s.device.busy = true
  · rw [if_neg (by simp [hBusy]), Storage.interrupt, if_pos hBusy]
    exact h.congr rfl rfl rfl h.locking
  · have hReady : s.device.busy = false := by simpa using hBusy
    cases Q with
    | nil =>
      have hHead : s.head = none := hControl.chain
      rw [interrupt_of_none hHead, List.tail_nil, ite_self]
      exact h.congr rfl rfl rfl h.locking
    | cons b R =>
      have hHead : s.head = some b := hControl.chain.1
      rw [interrupt_of_head hReady hHead]
      have hPin : Serving { s with pin := false } (b :: R) := h.congr rfl rfl rfl h.locking
      have hControlPin : Control { s with pin := false } (b :: R) :=
        hControl.congr rfl rfl rfl rfl rfl rfl
      by_cases hMore : s.sectorOffset + 1 < sectorsPerBlock
      · rw [if_neg (by omega)]
        exact hPin.nextSector hControlPin hReady hMore
      · rw [if_pos ⟨hReady, by omega⟩]
        exact hPin.lastSector hControlPin hReady (Nat.le_of_not_lt hMore)

theorem awake_wake (call : Call) : Call.awake (call.wake b) = Call.awake call := by
  cases call <;> rfl

/-- The interrupt of the disk does not move the processes, it only wakes them up. -/
theorem awake_interrupt (s : Storage P) (p : P) :
    Call.awake (s.interrupt.call p) = Call.awake (s.call p) := by
  unfold Storage.interrupt
  dsimp only
  split
  · rfl
  · split
    · rfl
    · next b _ =>
      by_cases hMore : s.sectorOffset + 1 < sectorsPerBlock
      · rw [finishSector_eq_advanced (s := { s with pin := false }) hMore, startOperation_eq]
        rfl
      · rw [finishSector_eq_popped (s := { s with pin := false }) (Nat.le_of_not_lt hMore)]
        split
        · exact awake_wake (s.call p)
        · rw [startOperation_eq]
          exact awake_wake (s.call p)

/-! ## §4 The step lemma -/

section Steps

variable [DecidableEq P]

/-- A process goes on to a call that looks for no block. -/
theorem Serving.locking_update (h : Serving s Q) {call : Call}
    (hNot : ∀ d n b asleep, call ≠ .locking d n b asleep) :
    ∀ q d n b asleep, Function.update s.call p call q = .locking d n b asleep →
      n.toNat < blockCount := by
  intro q d n b asleep hq
  by_cases hqp : q = p
  · subst hqp
    rw [Function.update_self] at hq
    exact absurd hq (hNot d n b asleep)
  · rw [Function.update_of_ne hqp] at hq
    exact h.locking q d n b asleep hq

theorem Serving.bufferGet (h : Serving s Q) (hControl : Control s Q)
    (hBlock : block.toNat < blockCount) (hGet : s.bufferGet p drive block = some t) :
    Serving t Q := by
  unfold Storage.bufferGet at hGet
  split at hGet
  · next b hFound =>
    split at hGet
    · obtain rfl := Option.some.inj hGet
      refine h.congr rfl rfl rfl ?_
      intro q d n c asleep hq
      by_cases hqp : q = p
      · subst hqp
        simp only [setCall, Function.update_self, Call.locking.injEq] at hq
        obtain ⟨-, rfl, -, -⟩ := hq
        exact hBlock
      · simp only [setCall, Function.update_of_ne hqp] at hq
        exact h.locking q d n c asleep hq
    -- a hit: the buffer was free, so it is not in the queue and the disk does not see it
    · next hBusy =>
      obtain rfl := Option.some.inj hGet
      have hFor : s.isFor drive block b = true := List.find?_some hFound
      simp only [isFor, Bool.and_eq_true, beq_iff_eq] at hFor
      have hFree : s.use b = .free := by
        by_contra hUse
        exact hBusy ((hControl.busy b).mpr hUse)
      refine h.atBuffer (hControl.not_queued hFree) (fun c hc => ?_) rfl rfl ?_ ?_
      · simp [Storage.lock, setCall, setBuffer, hc]
      · simpa [Storage.lock, setCall, setBuffer, hFor.1] using hBlock
      · exact h.locking_update (by simp)
  · obtain ⟨b, hVictim, rfl⟩ := Option.map_eq_some_iff.mp hGet
    -- a miss: nor is the victim in the queue
    have hUnused : s.unused b = true := List.find?_some hVictim
    have hFree : s.use b = .free := by
      by_contra hUse
      simp [unused, (hControl.busy b).mpr hUse] at hUnused
    refine h.atBuffer (hControl.not_queued hFree) (fun c hc => ?_) rfl rfl ?_ ?_
    · simp [Storage.recycle, setCall, setBuffer, hc]
    · simpa [Storage.recycle, setCall, setBuffer] using hBlock
    · exact h.locking_update (by simp)

theorem bufferGet_device (hGet : s.bufferGet p drive block = some t) :
    t.device = s.device ∧ t.pin = s.pin := by
  unfold bufferGet at hGet
  split at hGet
  · split at hGet
    · obtain rfl := Option.some.inj hGet
      exact ⟨rfl, rfl⟩
    · obtain rfl := Option.some.inj hGet
      exact ⟨rfl, rfl⟩
  · obtain ⟨b, -, rfl⟩ := Option.map_eq_some_iff.mp hGet
    exact ⟨rfl, rfl⟩

/-- **Step lemma**: the disk stays at the sector the driver has started. -/
theorem Serving.step {e : Event P} (h : Serving s Q) (hControl : Control s Q) (hStep : s.Step e t)
    (hOrderly : s.Orderly e) : Serving t (s.nextQueue Q e) := by
  obtain ⟨hLabels, hPerform⟩ := hStep
  cases e with
  | read p drive block =>
    obtain ⟨-, hGet⟩ := Option.ite_none_right_eq_some.mp hPerform
    exact h.bufferGet hControl hOrderly.2 hGet
  | retry p =>
    simp only [perform] at hPerform
    split at hPerform
    · next d block b hCall => exact h.bufferGet hControl (h.locking p _ _ _ _ hCall) hPerform
    · cases hPerform
  | readFrame p submitted =>
    simp only [perform] at hPerform
    split at hPerform
    · next block b hCall =>
      obtain rfl := Option.some.inj hPerform
      -- a hit leaves the disk alone; a miss is a request
      have hSubmitted : submitted = if (s.buffer b).valid then none else some b := by
        rw [show submitted = s.toSubmit p from hLabels, toSubmit, hCall]
      have hOk := hControl.calls p
      rw [hCall] at hOk
      obtain ⟨hUse, hb, -⟩ := hOk
      rw [nextQueue, hSubmitted, readFrame]
      by_cases hValid : (s.buffer b).valid = true
      · rw [if_pos hValid, if_pos hValid, Option.toList_none, List.append_nil]
        exact h.congr rfl rfl rfl (h.locking_update (by simp))
      · rw [if_neg hValid, if_neg hValid, Option.toList_some]
        have hBusy := hControl.busy_of_owner (b := b) (p := p) (by rw [hUse]; rfl)
        exact h.submitted hControl hb hBusy false _ ⟨rfl, rfl⟩
    · cases hPerform
  | readDone p =>
    simp only [perform] at hPerform
    split at hPerform
    · next block b hCall =>
      obtain rfl := Option.some.inj hPerform
      have hOk := hControl.calls p
      rw [hCall] at hOk
      -- the reader is awake, so its request has left the queue
      have hb : b ∉ Q := fun hb => Bool.false_ne_true (hOk.2.1.mpr hb)
      refine h.atBuffer hb (fun c hc => ?_) rfl rfl ?_ (h.locking_update (by simp))
      · simp [Storage.readDone, returnBuffer, setCall, setBuffer, hc]
      · simpa [Storage.readDone, returnBuffer, setCall, setBuffer] using h.bound b
    · cases hPerform
  | modify p b frame =>
    obtain ⟨hHand, hSome⟩ := Option.ite_none_right_eq_some.mp hPerform
    obtain rfl := Option.some.inj hSome
    obtain ⟨hCall, changed, hUse⟩ := atHand_iff.mp hHand
    have hb : b ∉ Q :=
      hControl.not_queued_of_owner (p := p) (by rw [hUse]; rfl) (by rw [hCall]; exact id)
    refine h.atBuffer hb (fun c hc => ?_) rfl rfl ?_ h.locking
    · simp [setBuffer, hc]
    · simpa [setBuffer] using h.bound b
  | write p b block frame =>
    obtain ⟨⟨hHand, hBusy⟩, hSome⟩ := Option.ite_none_right_eq_some.mp hPerform
    obtain rfl := Option.some.inj hSome
    obtain ⟨hCall, changed, hUse⟩ := atHand_iff.mp hHand
    have hb : b ∉ Q :=
      hControl.not_queued_of_owner (p := p) (by rw [hUse]; rfl) (by rw [hCall]; exact id)
    have hSubmitted := h.submitted (p := p) hControl hb hBusy true (.writing b true) ⟨rfl, rfl⟩
    exact hSubmitted.congr rfl rfl rfl hSubmitted.locking
  | writeDone p =>
    simp only [perform] at hPerform
    split at hPerform
    · obtain rfl := Option.some.inj hPerform
      exact h.congr rfl rfl rfl (h.locking_update (by simp))
    · cases hPerform
  | release p b =>
    obtain ⟨⟨hHand, -⟩, hSome⟩ := Option.ite_none_right_eq_some.mp hPerform
    obtain rfl := Option.some.inj hSome
    obtain ⟨hCall, changed, hUse⟩ := atHand_iff.mp hHand
    have hb : b ∉ Q :=
      hControl.not_queued_of_owner (p := p) (by rw [hUse]; rfl) (by rw [hCall]; exact id)
    rw [bufferRelease_eq]
    refine h.atBuffer hb (fun c hc => Function.update_of_ne hc _ _) rfl rfl ?_ ?_
    · simp
    · exact fun q d n c asleep hq => h.locking_wake q d n c asleep hq
  | transfer =>
    obtain ⟨hBusy, hSome⟩ := Option.ite_none_right_eq_some.mp hPerform
    obtain rfl := Option.some.inj hSome
    exact h.transferred hBusy
  | interrupt served =>
    obtain ⟨-, hSome⟩ := Option.ite_none_right_eq_some.mp hPerform
    obtain rfl := Option.some.inj hSome
    exact h.interrupt hControl
  | kill p =>
    obtain rfl := Option.some.inj hPerform
    refine h.congr rfl rfl rfl ?_
    intro q d n c asleep hq
    by_cases hqp : q = p
    · subst hqp
      simp only [Function.update_self] at hq
      -- the kill takes a sleeper out of `sleep`; what it asked for is the same
      cases hOld : s.call q with
      | locking d' n' c' asleep' =>
        simp only [hOld, Call.awake, Call.locking.injEq] at hq
        obtain ⟨-, rfl, -, -⟩ := hq
        exact h.locking q _ _ _ _ hOld
      | _ =>
        simp only [hOld, Call.awake] at hq
        cases hq
    · simp only [Function.update_of_ne hqp] at hq
      exact h.locking q d n c asleep hq

end Steps

theorem boot_serving (image : Nat → Byte) (frames : BufferId → Nat → Byte) (pin : Bool) :
    Serving (boot image frames pin : Storage P) [] where
  bound := by simp [boot]
  locking := by simp [boot]
  idle _ := rfl
  transfer := by simp

end Storage

end Xv6502.Block
