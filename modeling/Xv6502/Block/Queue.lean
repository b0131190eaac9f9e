import Xv6502.Block.Serving
import Xv6502.Block.Requests

/-!
# The Disk Queue Serves Requests in Order

`disk_submit`, `disk_interrupt` and the disk together: the requests are done in the order they
come, each of them sector by sector between its own block and its own frame, and nothing else is
touched. The submissions and the completions of a run are read off its labels.
-/

namespace Xv6502.Block

open Xv6502.Emulator
open Xv6502.Lib

variable {P : Type}

/-! ## §1 What a run submits and completes -/

/-- The request that an event completes: its last sector is finished. -/
def Storage.Event.completes : Storage.Event P → Option BufferId
  | .interrupt (some (b, sector)) => if sector + 1 = sectorsPerBlock then some b else none
  | _ => none

/-- The requests of a run, in the order of `disk_submit`. -/
def submissions (es : List (Storage.Event P)) : List BufferId := es.filterMap Storage.Event.submits

/-- The requests that a run has completed, in the order of completion. -/
def completions (es : List (Storage.Event P)) : List BufferId :=
  es.filterMap Storage.Event.completes

/-- The two lists, one event later. -/
def record (g : List BufferId × List BufferId) (e : Storage.Event P) :
    List BufferId × List BufferId :=
  (g.1 ++ e.submits.toList, g.2 ++ e.completes.toList)

theorem foldl_record (es : List (Storage.Event P)) (g : List BufferId × List BufferId) :
    es.foldl record g = (g.1 ++ submissions es, g.2 ++ completions es) := by
  induction es generalizing g with
  | nil => simp [submissions, completions]
  | cons e es ih =>
    rw [List.foldl_cons, ih, record]
    unfold submissions completions
    cases hSubmits : e.submits with
    | none =>
      cases hCompletes : e.completes with
      | none => simp [hSubmits, hCompletes]
      | some b => simp [hSubmits, hCompletes]
    | some b =>
      cases hCompletes : e.completes with
      | none => simp [hSubmits, hCompletes]
      | some c => simp [hSubmits, hCompletes]

namespace Storage

variable {s t : Storage P} {Q R : List BufferId} {p : P} {b c : BufferId}

/-- **Step lemma**: the submitted requests are the completed ones and then the queue. -/
theorem ledger_step {g : List BufferId × List BufferId} {e : Event P} (h : g.1 = g.2 ++ Q)
    (hControl : Control s Q) (hServing : Serving s Q) (hLabels : s.Labels e) :
    (record g e).1 = (record g e).2 ++ s.nextQueue Q e := by
  cases e with
  | readFrame p submitted =>
    show g.1 ++ submitted.toList = g.2 ++ [] ++ (Q ++ submitted.toList)
    rw [h, List.append_nil, List.append_assoc]
  | write p b block frame =>
    show g.1 ++ [b] = g.2 ++ [] ++ (Q ++ [b])
    rw [h, List.append_nil, List.append_assoc]
  | interrupt served =>
    show g.1 ++ [] = g.2 ++ (Event.interrupt served : Event P).completes.toList ++
      s.nextQueue Q (.interrupt served)
    rw [show served = s.served from hLabels, nextQueue, List.append_nil, h, List.append_assoc]
    congr 1
    by_cases hBusy : s.device.busy = true
    · simp [Storage.served, hBusy, Event.completes]
    · have hReady : s.device.busy = false := by simpa using hBusy
      cases Q with
      | nil =>
        have hHead : s.head = none := hControl.chain
        simp [Storage.served, hHead, Event.completes]
      | cons b R =>
        have hHead : s.head = some b := hControl.chain.1
        have hOffset := (hServing.transfer b R rfl).offset
        -- the first request leaves the queue with its last sector
        by_cases hLast : s.sectorOffset + 1 = sectorsPerBlock
        · simp [Storage.served, hReady, hHead, Event.completes, hLast]
        · have hMore : ¬ sectorsPerBlock ≤ s.sectorOffset + 1 := by omega
          simp [Storage.served, hReady, hHead, Event.completes, hLast, hMore]
  | _ =>
    show g.1 ++ [] = g.2 ++ [] ++ Q
    rw [h, List.append_nil, List.append_nil]

/-! ## §2 What a step transfers -/

/-- Where sector `k` of the block of a buffer begins on the disk. -/
def sectorStart (e : Buffer) (k : Nat) : Nat := e.blockNumber.toNat * blockSize + k * sectorSize

/-- The disk has finished the operation on sector `k` of the block of buffer `b`: a read fills
    the buffer of the device, a write the sector, and nothing else changes. -/
structure SectorDone (s t : Storage P) (b : BufferId) (k : Nat) : Prop where
  lba : s.device.lba.toNat = (s.buffer b).blockNumber.toNat * sectorsPerBlock + k
  command : s.device.command = if (s.buffer b).dirty then .write else .read
  frames : t.buffer = s.buffer
  read : (s.buffer b).dirty = false → t.device.image = s.device.image ∧
    ∀ j, j < sectorSize → t.device.buffer j = s.device.image (sectorStart (s.buffer b) k + j)
  write : (s.buffer b).dirty = true → ∀ i, t.device.image i =
    if sectorStart (s.buffer b) k ≤ i ∧ i < sectorStart (s.buffer b) k + sectorSize then
      (s.buffer b).frame (k * sectorSize + (i - sectorStart (s.buffer b) k))
    else s.device.image i

theorem Serving.sectorDone (h : Serving s (b :: R)) (hBusy : s.device.busy = true) :
    SectorDone s s.transfer b s.sectorOffset := by
  have hTransfer := h.transfer b R rfl
  have hStart : s.device.lba.toNat * sectorSize = sectorStart (s.buffer b) s.sectorOffset :=
    hTransfer.offset_eq
  refine ⟨hTransfer.lba, hTransfer.command, ?_, ?_, ?_⟩
  · unfold Storage.transfer
    split <;> rfl
  -- a clean buffer is read: the bytes come from the image
  · intro hClean
    have hRead : s.device.command = .read := by rw [hTransfer.command, if_neg (by simp [hClean])]
    rw [transfer_read hRead, hStart]
    refine ⟨rfl, fun j hj => ?_⟩
    have hCopy : copyIn s.device.buffer 0
        (fun i => s.device.image (sectorStart (s.buffer b) s.sectorOffset + i)) (0 + j) =
          s.device.image (sectorStart (s.buffer b) s.sectorOffset + j) := copyIn_of_mem hj
    rwa [Nat.zero_add] at hCopy
  -- a dirty one is written: the image gets the bytes of the sector
  · intro hDirty i
    have hWrite : s.device.command = .write := by rw [hTransfer.command, if_pos hDirty]
    rw [transfer_write hWrite, hStart]
    dsimp only
    unfold copyIn
    split
    · next hi =>
      have hj : i - sectorStart (s.buffer b) s.sectorOffset < sectorSize := by omega
      rw [hTransfer.toWrite hBusy hDirty _ hj]
    · rfl

/-- `disk_interrupt` has finished sector `k` of the block of buffer `b`: the sector that was
    read is in the frame, and nothing else changes. -/
structure SectorReceived (s t : Storage P) (b : BufferId) (k : Nat) : Prop where
  image : t.device.image = s.device.image
  others : ∀ c, c ≠ b → (t.buffer c).frame = (s.buffer c).frame
  written : (s.buffer b).dirty = true → (t.buffer b).frame = (s.buffer b).frame
  read : (s.buffer b).dirty = false → ∀ i, (t.buffer b).frame i =
    if k * sectorSize ≤ i ∧ i < k * sectorSize + sectorSize then
      blockOf s.device.image (s.buffer b).blockNumber i
    else (s.buffer b).frame i
  -- so far the frame and the disk agree
  done : ∀ i, i < (k + 1) * sectorSize →
    (t.buffer b).frame i = blockOf s.device.image (s.buffer b).blockNumber i

theorem finishSector_frame (s : Storage P) (b : BufferId) :
    (∀ c, ((s.finishSector b).buffer c).frame =
      if c = b then received (s.buffer b) s.device s.sectorOffset else (s.buffer c).frame) ∧
      (s.finishSector b).device.image = s.device.image := by
  -- the sector is copied to the frame whether more are to come or not
  by_cases hMore : s.sectorOffset + 1 < sectorsPerBlock
  · rw [finishSector_eq_advanced hMore]
    refine ⟨fun c => ?_, startOperation_image _⟩
    rw [startOperation_eq]
    by_cases hcb : c = b
    · subst hcb
      simp [advanced]
    · simp [advanced, hcb]
  · rw [finishSector_eq_popped (Nat.le_of_not_lt hMore)]
    have hFrame : ∀ c, ((s.popped b).buffer c).frame =
        if c = b then received (s.buffer b) s.device s.sectorOffset else (s.buffer c).frame := by
      intro c
      by_cases hcb : c = b
      · subst hcb
        simp [popped]
      · simp [popped, hcb]
    split
    · exact ⟨hFrame, rfl⟩
    · refine ⟨fun c => ?_, startOperation_image _⟩
      rw [startOperation_eq]
      exact hFrame c

theorem Serving.sectorReceived (h : Serving s (b :: R)) (hReady : s.device.busy = false) :
    SectorReceived s (s.finishSector b) b s.sectorOffset := by
  have hTransfer := h.transfer b R rfl
  obtain ⟨hFrame, hImage⟩ := finishSector_frame s b
  have hSelf : ((s.finishSector b).buffer b).frame =
      received (s.buffer b) s.device s.sectorOffset := by rw [hFrame, if_pos rfl]
  refine ⟨hImage, ?_, ?_, ?_, ?_⟩
  · intro c hc
    rw [hFrame, if_neg hc]
  · intro hDirty
    rw [hSelf, received, if_pos hDirty]
  -- inside the sector the frame has the bytes of the disk, outside it is as before
  · intro hClean i
    rw [hSelf]
    split
    · next hi =>
      apply hTransfer.received_eq hReady
      rw [Nat.add_mul]
      omega
    · next hi =>
      rw [received, if_neg (by simp [hClean])]
      exact copyIn_of_not_mem (by omega)
  · intro i hi
    rw [hSelf]
    exact hTransfer.received_eq hReady hi

theorem CallOk.queued {call : Call} (h : s.CallOk Q p call) (hWaits : call.waitsFor b) :
    b ∈ Q := by
  cases call with
  | reading block c asleep =>
    obtain ⟨rfl, hAsleep⟩ := hWaits
    exact h.2.1.mp hAsleep
  | writing c asleep =>
    obtain ⟨rfl, hAsleep⟩ := hWaits
    exact h.2.mp hAsleep
  | _ => exact absurd hWaits id

/-- The block, the direction and the bytes of a buffer are the same. -/
def SameRequest (e e' : Buffer) : Prop :=
  e'.blockNumber = e.blockNumber ∧ e'.dirty = e.dirty ∧ e'.frame = e.frame

/-- A step at a buffer outside the queue leaves the requests alone. -/
theorem sameRequest_of_ne (hb : b ∉ Q) (hBuffer : ∀ c, c ≠ b → t.buffer c = s.buffer c) :
    ∀ c ∈ Q, SameRequest (s.buffer c) (t.buffer c) := by
  intro c hc
  have hcb : c ≠ b := by
    rintro rfl
    exact hb hc
  rw [hBuffer c hcb]
  exact ⟨rfl, rfl, rfl⟩

/-- `disk_submit` leaves the requests before it alone. -/
theorem Control.sameRequest_submit (h : Control s Q) (hb : b ∉ Q)
    (hBusy : (s.buffer b).busy = true) (dirty : Bool) :
    ((s.setBuffer b fun e => { e with dirty := dirty }).submit b).device.image = s.device.image ∧
      ∀ c ∈ Q, SameRequest (s.buffer c)
        (((s.setBuffer b fun e => { e with dirty := dirty }).submit b).buffer c) := by
  have hMarked : Control (s.setBuffer b fun e => { e with dirty := dirty }) Q :=
    h.rebuffer hBusy { s.buffer b with dirty := dirty } ⟨rfl, rfl, rfl, rfl, rfl⟩
  refine ⟨hMarked.submit_image hb, ?_⟩
  obtain ⟨-, -, -, hSame, -⟩ := hMarked.submit hb
  intro c hc
  have hcb : c ≠ b := by
    rintro rfl
    exact hb hc
  rw [hSame c]
  simp [SameRequest, setBuffer, hcb]

/-- A request leaves the queue with the event that completes it. -/
theorem Control.mem_nextQueue {e : Event P} (h : Control s Q) (hServing : Serving s Q)
    (hLabels : s.Labels e) (hb : b ∈ Q) : b ∈ s.nextQueue Q e ↔ e.completes ≠ some b := by
  cases e with
  | readFrame p submitted => simp [nextQueue, hb, Event.completes]
  | write p c block frame => simp [nextQueue, hb, Event.completes]
  | interrupt served =>
    rw [show served = s.served from hLabels]
    cases Q with
    | nil => cases hb
    | cons c R =>
      have hHead : s.head = some c := h.chain.1
      have hNodup := List.nodup_cons.mp h.nodup
      have hOffset := (hServing.transfer c R rfl).offset
      by_cases hBusy : s.device.busy = true
      · simpa [nextQueue, Storage.served, hBusy, Event.completes] using List.mem_cons.mp hb
      · have hReady : s.device.busy = false := by simpa using hBusy
        -- the queue loses its head with the last sector of it, and only then
        by_cases hLast : s.sectorOffset + 1 = sectorsPerBlock
        · have hQueue : s.nextQueue (c :: R) (.interrupt s.served : Event P) = R := by
            simp [nextQueue, hReady, hLast]
          have hCompletes : (Event.interrupt s.served : Event P).completes = some c := by
            simp [Storage.served, hReady, hHead, Event.completes, hLast]
          rw [hQueue, hCompletes]
          constructor
          · intro hR hEq
            exact hNodup.1 (Option.some.inj hEq ▸ hR)
          · intro hNe
            exact List.mem_of_ne_of_mem (fun hEq => hNe (by rw [hEq])) hb
        · have hMore : ¬ sectorsPerBlock ≤ s.sectorOffset + 1 := by omega
          have hQueue : s.nextQueue (c :: R) (.interrupt s.served : Event P) = c :: R := by
            simp [nextQueue, hMore]
          have hCompletes : (Event.interrupt s.served : Event P).completes = none := by
            simp [Storage.served, hReady, hHead, Event.completes, hLast]
          rw [hQueue, hCompletes]
          simpa using List.mem_cons.mp hb
  | _ => simpa [nextQueue, Event.completes] using hb

section Steps

variable [DecidableEq P]

theorem Control.sameRequest_bufferGet {drive : Byte} {block : Word} (h : Control s Q)
    (hGet : s.bufferGet p drive block = some t) :
    t.device.image = s.device.image ∧ ∀ c ∈ Q, SameRequest (s.buffer c) (t.buffer c) := by
  refine ⟨by rw [(bufferGet_device hGet).1], ?_⟩
  -- a buffer in the queue is locked, so it is not the one that is taken
  have hNotQueued : ∀ b, (s.buffer b).busy = false → b ∉ Q := by
    intro b hBusy
    apply h.not_queued
    by_contra hUse
    rw [(h.busy b).mpr hUse] at hBusy
    cases hBusy
  unfold Storage.bufferGet at hGet
  split at hGet
  · next b _ =>
    split at hGet
    · obtain rfl := Option.some.inj hGet
      exact fun c _ => ⟨rfl, rfl, rfl⟩
    · next hBusy =>
      obtain rfl := Option.some.inj hGet
      apply sameRequest_of_ne (hNotQueued b (by simpa using hBusy))
      intro c hc
      simp [Storage.lock, setCall, setBuffer, hc]
  · obtain ⟨b, hVictim, rfl⟩ := Option.map_eq_some_iff.mp hGet
    have hUnused : s.unused b = true := List.find?_some hVictim
    simp only [unused, Bool.and_eq_true, Bool.not_eq_true'] at hUnused
    apply sameRequest_of_ne (hNotQueued b hUnused.2)
    intro c hc
    simp [Storage.recycle, setCall, setBuffer, hc]

/-- What the processes do changes neither the disk nor a request that has been submitted. -/
theorem Control.requests_untouched {e : Event P} (h : Control s Q) (hStep : s.Step e t)
    (hDisk : ¬ e.ofDisk) :
    t.device.image = s.device.image ∧ ∀ b ∈ Q, SameRequest (s.buffer b) (t.buffer b) := by
  obtain ⟨-, hPerform⟩ := hStep
  -- a buffer at hand is not in the queue
  have hHand : ∀ {p b}, s.atHand p b = true → b ∉ Q := by
    intro p b hHand
    obtain ⟨hCall, changed, hUse⟩ := atHand_iff.mp hHand
    exact h.not_queued_of_owner (p := p) (by rw [hUse]; rfl) (by rw [hCall]; exact id)
  cases e with
  | read p drive block =>
    exact h.sameRequest_bufferGet (Option.ite_none_right_eq_some.mp hPerform).2
  | retry p =>
    simp only [perform] at hPerform
    split at hPerform
    · exact h.sameRequest_bufferGet hPerform
    · cases hPerform
  | readFrame p submitted =>
    simp only [perform] at hPerform
    split at hPerform
    · next block b hCall =>
      obtain rfl := Option.some.inj hPerform
      have hOk := h.calls p
      rw [hCall] at hOk
      obtain ⟨hUse, hb, -⟩ := hOk
      unfold Storage.readFrame
      split
      · exact ⟨rfl, fun c _ => ⟨rfl, rfl, rfl⟩⟩
      · exact h.sameRequest_submit hb (h.busy_of_owner (p := p) (by rw [hUse]; rfl)) false
    · cases hPerform
  | readDone p =>
    simp only [perform] at hPerform
    split at hPerform
    · next block b hCall =>
      obtain rfl := Option.some.inj hPerform
      have hOk := h.calls p
      rw [hCall] at hOk
      refine ⟨rfl, sameRequest_of_ne (b := b) ?_ ?_⟩
      · exact fun hb => Bool.false_ne_true (hOk.2.1.mpr hb)
      · intro c hc
        simp [Storage.readDone, returnBuffer, setCall, setBuffer, hc]
    · cases hPerform
  | modify p b frame =>
    obtain ⟨hAt, hSome⟩ := Option.ite_none_right_eq_some.mp hPerform
    obtain rfl := Option.some.inj hSome
    refine ⟨rfl, sameRequest_of_ne (hHand hAt) ?_⟩
    intro c hc
    simp [setBuffer, hc]
  | write p b block frame =>
    obtain ⟨⟨hAt, hBusy⟩, hSome⟩ := Option.ite_none_right_eq_some.mp hPerform
    obtain rfl := Option.some.inj hSome
    exact h.sameRequest_submit (hHand hAt) hBusy true
  | writeDone p =>
    simp only [perform] at hPerform
    split at hPerform
    · obtain rfl := Option.some.inj hPerform
      exact ⟨rfl, fun c _ => ⟨rfl, rfl, rfl⟩⟩
    · cases hPerform
  | release p b =>
    obtain ⟨⟨hAt, -⟩, hSome⟩ := Option.ite_none_right_eq_some.mp hPerform
    obtain rfl := Option.some.inj hSome
    rw [bufferRelease_eq]
    exact ⟨rfl, sameRequest_of_ne (hHand hAt) fun c hc => Function.update_of_ne hc _ _⟩
  | kill p =>
    obtain rfl := Option.some.inj hPerform
    exact ⟨rfl, fun c _ => ⟨rfl, rfl, rfl⟩⟩
  | transfer => exact absurd trivial hDisk
  | interrupt served => exact absurd trivial hDisk

/-- A process that sleeps in `disk_submit` stays in its call. -/
theorem awake_of_waitsFor {e : Event P} (hStep : s.Step e t) (hSpares : s.SparesRequests e)
    (hWaits : (s.call p).waitsFor b) : Call.awake (t.call p) = Call.awake (s.call p) := by
  obtain ⟨-, hPerform⟩ := hStep
  -- a process that does something is not asleep in `disk_submit`
  have hOther : ∀ {q call}, ¬ (s.call q).waitsFor b →
      Function.update s.call q call p = s.call p := by
    intro q call hNot
    apply Function.update_of_ne
    rintro rfl
    exact hNot hWaits
  have hGet : ∀ {q drive block}, ¬ (s.call q).waitsFor b → s.bufferGet q drive block = some t →
      t.call p = s.call p := by
    intro q drive block hNot hGet
    apply (bufferGet_call hGet).2.2
    rintro rfl
    exact hNot hWaits
  cases e with
  | read q drive block =>
    obtain ⟨hCall, hSome⟩ := Option.ite_none_right_eq_some.mp hPerform
    rw [hGet (by rw [hCall]; exact id) hSome]
  | retry q =>
    simp only [perform] at hPerform
    split at hPerform
    · next hCall => rw [hGet (by rw [hCall]; exact id) hPerform]
    · cases hPerform
  | readFrame q submitted =>
    simp only [perform] at hPerform
    split at hPerform
    · next block c hCall =>
      obtain rfl := Option.some.inj hPerform
      have hNot : ¬ (s.call q).waitsFor b := by rw [hCall]; exact id
      unfold Storage.readFrame
      split
      · exact congrArg Call.awake (hOther hNot)
      · have hSame := submit_call (s.setBuffer c fun e => { e with dirty := false }) c
        simp only [setCall]
        rw [hSame]
        exact congrArg Call.awake (hOther hNot)
    · cases hPerform
  | readDone q =>
    simp only [perform] at hPerform
    split at hPerform
    · next hCall =>
      obtain rfl := Option.some.inj hPerform
      have hNot : ¬ (s.call q).waitsFor b := by
        rw [hCall]
        exact fun h => Bool.false_ne_true h.2
      exact congrArg Call.awake (hOther hNot)
    · cases hPerform
  | modify q c frame =>
    obtain ⟨-, hSome⟩ := Option.ite_none_right_eq_some.mp hPerform
    obtain rfl := Option.some.inj hSome
    rfl
  | write q c block frame =>
    obtain ⟨⟨hHand, -⟩, hSome⟩ := Option.ite_none_right_eq_some.mp hPerform
    obtain rfl := Option.some.inj hSome
    have hNot : ¬ (s.call q).waitsFor b := by rw [(atHand_iff.mp hHand).1]; exact id
    have hSame := submit_call (s.setBuffer c fun e => { e with dirty := true }) c
    simp only [bufferWrite, setCall]
    rw [hSame]
    exact congrArg Call.awake (hOther hNot)
  | writeDone q =>
    simp only [perform] at hPerform
    split at hPerform
    · next hCall =>
      obtain rfl := Option.some.inj hPerform
      have hNot : ¬ (s.call q).waitsFor b := by
        rw [hCall]
        exact fun h => Bool.false_ne_true h.2
      exact congrArg Call.awake (hOther hNot)
    · cases hPerform
  | release q c =>
    obtain ⟨-, hSome⟩ := Option.ite_none_right_eq_some.mp hPerform
    obtain rfl := Option.some.inj hSome
    rw [bufferRelease_eq]
    exact awake_wake (s.call p)
  | transfer =>
    obtain ⟨-, hSome⟩ := Option.ite_none_right_eq_some.mp hPerform
    obtain rfl := Option.some.inj hSome
    unfold Storage.transfer
    split <;> rfl
  | interrupt served =>
    obtain ⟨-, hSome⟩ := Option.ite_none_right_eq_some.mp hPerform
    obtain rfl := Option.some.inj hSome
    exact awake_interrupt s p
  | kill q =>
    obtain rfl := Option.some.inj hPerform
    exact congrArg Call.awake (hOther (hSpares b))

/-- The requester is woken up when its request leaves the queue, and not before. -/
theorem Control.woken {e : Event P} (h : Control t (s.nextQueue Q e)) (hStep : s.Step e t)
    (hSpares : s.SparesRequests e) (hWaits : (s.call p).waitsFor b) :
    if b ∈ s.nextQueue Q e then (t.call p).waitsFor b else (t.call p).returnsFor b := by
  have hAwake := awake_of_waitsFor hStep hSpares hWaits
  have hOk := h.calls p
  cases hOld : s.call p with
  | reading n c asleep =>
    rw [hOld] at hWaits hAwake
    obtain ⟨rfl, -⟩ := hWaits
    cases hNew : t.call p with
    | reading n' c' asleep' =>
      rw [hNew] at hAwake hOk
      obtain ⟨rfl, rfl⟩ : n' = n ∧ c' = c := by simpa [Call.awake] using hAwake
      -- still queued and asleep, or out of the queue and on the way back
      split
      · next hMem => exact ⟨rfl, hOk.2.1.mpr hMem⟩
      · next hMem => exact ⟨rfl, by simpa [hMem] using hOk.2.1⟩
    | _ =>
      rw [hNew] at hAwake
      cases hAwake
  | writing c asleep =>
    rw [hOld] at hWaits hAwake
    obtain ⟨rfl, -⟩ := hWaits
    cases hNew : t.call p with
    | writing c' asleep' =>
      rw [hNew] at hAwake hOk
      obtain rfl : c' = c := by simpa [Call.awake] using hAwake
      split
      · next hMem => exact ⟨rfl, hOk.2.mpr hMem⟩
      · next hMem => exact ⟨rfl, by simpa [hMem] using hOk.2⟩
    | _ =>
      rw [hNew] at hAwake
      cases hAwake
  | _ =>
    rw [hOld] at hWaits
    exact absurd hWaits id

/-! ## §3 Runs from boot -/

/-- The disk queue is in order behind the events `es`. -/
structure InOrder (es : List (Event P)) (s : Storage P) : Prop where
  /-- The queue is a list without cycles from `disk.head` to `disk.tail`. -/
  chain : Chain (fun b => (s.buffer b).queue) s.head s.requests
  nodup : s.requests.Nodup
  tail : ∀ b, s.requests.getLast? = some b → s.tail = some b
  /-- It holds what is submitted and not completed, and the order is that of submission. -/
  ledger : submissions es = completions es ++ s.requests
  /-- The sectors of the first request are done one after the other, the others wait. -/
  first : ∀ b R, s.requests = b :: R → servedSince es b = List.range s.sectorOffset ∧
    s.sectorOffset < sectorsPerBlock ∧ ∀ c ∈ R, servedSince es c = []
  /-- The requester of each request sleeps, and it is one process. -/
  asleep : ∀ b, b ∈ s.requests ↔ ∃ p, (s.call p).waitsFor b
  requester : ∀ p q b, (s.call p).waitsFor b → (s.call q).waitsFor b → p = q
  /-- It is woken up with the last sector. -/
  woken : ∀ e t p b, s.Step e t → s.Orderly e → (s.call p).waitsFor b →
    if e.completes = some b then (t.call p).returnsFor b else (t.call p).waitsFor b
  done : ∀ p b, (s.call p).returnsFor b → servedSince es b = List.range sectorsPerBlock
  /-- The disk works for the first request, at the sector that is due. -/
  transfer : ∀ t, s.Step .transfer t → ∃ b R, s.requests = b :: R ∧
    SectorDone s t b s.sectorOffset
  /-- `disk_interrupt` puts that sector in the frame of the first request. -/
  received : ∀ t b k, s.Step (.interrupt (some (b, k))) t →
    s.requests.head? = some b ∧ k = s.sectorOffset ∧ SectorReceived s t b k
  /-- A stale interrupt does nothing. -/
  stale : ∀ t, s.Step (.interrupt none) t → t = { s with pin := false }
  /-- What the processes do leaves the disk and the requests alone. -/
  others : ∀ e t, s.Step e t → ¬ e.ofDisk → t.device.image = s.device.image ∧
    ∀ b ∈ s.requests, SameRequest (s.buffer b) (t.buffer b)

/-- The invariants, with the sectors and the requests collected from the labels. -/
def Recorded (x : Storage P × (BufferId → List Nat) × (List BufferId × List BufferId)) : Prop :=
  ∃ Q, Control x.1 Q ∧ Progress x.2.1 x.1 Q ∧ Serving x.1 Q ∧ x.2.2.1 = x.2.2.2 ++ Q

theorem run_recorded {image : Nat → Byte} {frames : BufferId → Nat → Byte} {pin : Bool}
    {es : List (Event P)} (h : Run (Guarded Step Orderly) (boot image frames pin) es s) :
    Recorded (s, servedSince es, submissions es, completions es) := by
  have hHistory := h.with_history (fun g e => (serve g.1 e, record g.2 e))
    ((fun _ => []), ([], []))
  rw [foldl_pair serve record, foldl_record] at hHistory
  refine hHistory.invariant ?_ ⟨[], boot_control .., boot_progress .., boot_serving .., rfl⟩
  rintro ⟨s, sectors, g⟩ e ⟨t, g'⟩ ⟨Q, hControl, hProgress, hServing, hLedger⟩
    ⟨⟨hStep, hOrderly⟩, rfl⟩
  exact ⟨s.nextQueue Q e, hControl.step hStep hOrderly.1,
    hProgress.step hControl hStep hOrderly.1, hServing.step hControl hStep hOrderly,
    ledger_step hLedger hControl hServing hStep.1⟩

/-- **The disk queue**: in every run that reads blocks of the disk and kills nobody in
    `disk_submit`, requests are served in order and completely, and nothing else is touched. The
    list of the requests is kept beside the state; every event appends to it, removes its head or
    leaves it alone, and what the disk works on is its head. -/
theorem disk_queue_in_order {image : Nat → Byte} {frames : BufferId → Nat → Byte} {pin : Bool}
    {es : List (Event P)} (h : Run (Guarded Step Orderly) (boot image frames pin) es s) :
    InOrder es s := by
  obtain ⟨Q, hControl, hProgress, hServing, hLedger⟩ := run_recorded h
  have hRequests := hControl.requests_eq
  refine ⟨?_, ?_, ?_, ?_, ?_, ?_, ?_, ?_, hProgress.done, ?_, ?_, ?_, ?_⟩
  · rw [hRequests]
    exact hControl.chain
  · rw [hRequests]
    exact hControl.nodup
  · rw [hRequests]
    exact hControl.tail
  · rw [hRequests]
    exact hLedger
  · intro b R hQ
    rw [hRequests] at hQ
    refine ⟨hProgress.first b R hQ, hProgress.offset (by simp [hQ]), ?_⟩
    intro c hc
    exact hProgress.others c (by simpa [hQ] using hc)
  · intro b
    rw [hRequests]
    constructor
    · exact hControl.queued b
    · rintro ⟨p, hWaits⟩
      exact (hControl.calls p).queued hWaits
  · intro p q b hp hq
    have hOwner := (hControl.calls p).owner (Call.uses_of_waitsFor hp)
    rw [(hControl.calls q).owner (Call.uses_of_waitsFor hq)] at hOwner
    exact (Option.some.inj hOwner).symm
  · intro e t p b hStep hOrderly hWaits
    have hb := (hControl.calls p).queued hWaits
    have hWoken := (hControl.step hStep hOrderly.1).woken hStep hOrderly.1 hWaits
    have hMem := hControl.mem_nextQueue hServing hStep.1 hb
    by_cases hCompletes : e.completes = some b
    · rw [if_pos hCompletes]
      rwa [if_neg (fun hIn => hMem.mp hIn hCompletes)] at hWoken
    · rw [if_neg hCompletes]
      rwa [if_pos (hMem.mpr hCompletes)] at hWoken
  · rintro t ⟨-, hPerform⟩
    obtain ⟨hBusy, hSome⟩ := Option.ite_none_right_eq_some.mp hPerform
    -- a sector leaves the disk only while it is busy, and what it works on is the front of the
    -- queue
    obtain rfl := Option.some.inj hSome
    cases Q with
    | nil =>
      rw [hServing.idle rfl] at hBusy
      cases hBusy
    | cons b R => exact ⟨b, R, hRequests, hServing.sectorDone hBusy⟩
  · rintro t b k ⟨hLabels, hPerform⟩
    obtain ⟨-, hSome⟩ := Option.ite_none_right_eq_some.mp hPerform
    obtain rfl := Option.some.inj hSome
    have hServed : some (b, k) = s.served := hLabels
    -- the label says which sector the handler found ready: it is the front's, at `sector_offset`
    unfold Storage.served at hServed
    split at hServed
    · cases hServed
    · next hBusy =>
      have hReady : s.device.busy = false := by simpa using hBusy
      obtain ⟨c, hHead, hEq⟩ := Option.map_eq_some_iff.mp hServed.symm
      obtain ⟨rfl, rfl⟩ := Prod.mk.inj hEq
      cases Q with
      | nil =>
        have hNone : s.head = none := hControl.chain
        rw [hHead] at hNone
        cases hNone
      | cons d R =>
        have hFirst : s.head = some d := hControl.chain.1
        rw [hHead] at hFirst
        obtain rfl := Option.some.inj hFirst
        rw [interrupt_of_head hReady hHead, hRequests]
        -- the handler lowers the pin first, which no part of the invariant looks at
        have hPin : Serving { s with pin := false } (c :: R) :=
          hServing.congr rfl rfl rfl hServing.locking
        have hReceived := hPin.sectorReceived hReady
        exact ⟨rfl, rfl, hReceived.image, hReceived.others, hReceived.written, hReceived.read,
          hReceived.done⟩
  · rintro t ⟨hLabels, hPerform⟩
    obtain ⟨-, hSome⟩ := Option.ite_none_right_eq_some.mp hPerform
    obtain rfl := Option.some.inj hSome
    -- a stale interrupt: the disk is busy with the next sector, or no request is left
    have hServed : none = s.served := hLabels
    unfold Storage.served at hServed
    split at hServed
    · next hBusy => rw [Storage.interrupt, if_pos hBusy]
    · exact interrupt_of_none (Option.map_eq_none_iff.mp hServed.symm)
  · intro e t hStep hDisk
    rw [hRequests]
    exact hControl.requests_untouched hStep hDisk

end Steps

/-- Two processes read a block each, with an interrupt left over from the loader. -/
theorem boot_queue_in_order :
    ∃ s : Storage Bool, Run (Guarded Step Orderly)
      (boot (fun _ => 0) (fun _ _ => 0) true)
      [.interrupt none, .read true 1 34, .readFrame true (some 0), .read false 1 35,
        .readFrame false (some 1), .transfer, .interrupt (some (0, 0))] s ∧
      s.requests = [0, 1] ∧ s.sectorOffset = 1 ∧
      InOrder [.interrupt none, .read true 1 34, .readFrame true (some 0), .read false 1 35,
        .readFrame false (some 1), .transfer, .interrupt (some (0, 0))] s := by
  have hRun : Run (Guarded Step Orderly) (boot (fun _ => 0) (fun _ _ => 0) true : Storage Bool)
      [.interrupt none, .read true 1 34, .readFrame true (some 0), .read false 1 35,
        .readFrame false (some 1), .transfer, .interrupt (some (0, 0))] _ :=
    .cons ⟨⟨rfl, rfl⟩, trivial, trivial⟩ (.cons ⟨⟨trivial, rfl⟩, trivial, by decide⟩
      (.cons ⟨⟨rfl, rfl⟩, trivial, trivial⟩ (.cons ⟨⟨trivial, rfl⟩, trivial, by decide⟩
      (.cons ⟨⟨rfl, rfl⟩, trivial, trivial⟩ (.cons ⟨⟨trivial, rfl⟩, trivial, trivial⟩
      (.cons ⟨⟨rfl, rfl⟩, trivial, trivial⟩ (.nil _)))))))
  exact ⟨_, hRun, rfl, rfl, disk_queue_in_order hRun⟩

end Storage

end Xv6502.Block
