import Xv6502.Block.Control

/-!
# A Disk Request Returns When It Is Done

`disk_submit` sleeps once, and whatever wakes the process up makes it return. As long as only
`disk_interrupt` does, the process returns behind all the sectors of its block, and a queued
buffer is left alone. `sys_kill` of a process that sleeps in `disk_submit` breaks this.
-/

namespace Xv6502.Block

open Xv6502.Emulator
open Xv6502.Lib

variable {P : Type}

/-! ## §1 What has been transferred -/

/-- The process is awake in `disk_submit`, which returns when the process runs. -/
def Call.returnsFor (b : BufferId) : Call → Prop
  | .reading _ c asleep => c = b ∧ asleep = false
  | .writing c asleep => c = b ∧ asleep = false
  | _ => False

/-- The buffer that an event submits to the disk. -/
def Storage.Event.submits : Storage.Event P → Option BufferId
  | .readFrame _ submitted => submitted
  | .write _ b _ _ => some b
  | _ => none

/-- The sectors of each buffer that `disk_interrupt` has finished since the buffer was last
    submitted, after one more event. -/
def serve (sectors : BufferId → List Nat) (e : Storage.Event P) (b : BufferId) : List Nat :=
  match e with
  | .interrupt (some (c, sector)) => if c = b then sectors b ++ [sector] else sectors b
  | e => if e.submits = some b then [] else sectors b

/-- The sectors of a buffer that were finished since its last submission in a run. -/
def servedSince (es : List (Storage.Event P)) : BufferId → List Nat :=
  es.foldl serve fun _ => []

namespace Storage

/-- The disk queue, from `disk.head` on. -/
def requests (s : Storage P) : List BufferId :=
  follow (fun b => (s.buffer b).queue) 16 s.head

/-- An event releases a buffer, hands it out by `buffer_get` or submits it. -/
def Disturbs (t : Storage P) (b : BufferId) : Event P → Prop
  | .release _ c => c = b
  | .read p _ _ => ∃ block, t.call p = .got block b
  | .retry p => ∃ block, t.call p = .got block b
  | .readFrame _ submitted => submitted = some b
  | .write _ c _ _ => c = b
  | _ => False

variable {s t : Storage P} {Q R : List BufferId} {b c : BufferId} {p : P}

theorem Control.requests_eq (h : Control s Q) : s.requests = Q := by
  apply h.chain.follow_eq
  have hCard := h.nodup.length_le_card
  simpa using hCard

/-! ## §2 The progress of the queue -/

/-- The first request has got as far as `disk.sector_offset` tells, the others have not begun,
    and a process that is awake in `disk_submit` has got its whole block. -/
structure Progress (sectors : BufferId → List Nat) (s : Storage P) (Q : List BufferId) : Prop where
  offset : Q ≠ [] → s.sectorOffset < sectorsPerBlock
  first : ∀ b R, Q = b :: R → sectors b = List.range s.sectorOffset
  others : ∀ c ∈ Q.tail, sectors c = []
  done : ∀ p b, (s.call p).returnsFor b → sectors b = List.range sectorsPerBlock

theorem Call.uses_of_returnsFor {call : Call} (h : call.returnsFor b) : call.uses b := by
  cases call with
  | reading block c asleep => exact h.1
  | writing c asleep => exact h.1
  | _ => exact absurd h id

theorem Call.returnsFor_wake {call : Call} (h : (call.wake b).returnsFor c) :
    call.returnsFor c ∨ c = b ∧ call.uses b := by
  cases call with
  | reading block d asleep =>
    obtain ⟨rfl, hAwake⟩ := h
    by_cases hd : d = b
    · exact .inr ⟨hd, hd⟩
    · exact .inl ⟨rfl, by simpa [hd] using hAwake⟩
  | writing d asleep =>
    obtain ⟨rfl, hAwake⟩ := h
    by_cases hd : d = b
    · exact .inr ⟨hd, hd⟩
    · exact .inl ⟨rfl, by simpa [hd] using hAwake⟩
  | _ => exact absurd h id

/-- A process that is awake in `disk_submit` has no queued buffer. -/
theorem CallOk.not_queued {call : Call} (h : s.CallOk Q p call) (hReturns : call.returnsFor b) :
    b ∉ Q := by
  intro hb
  cases call with
  | reading block c asleep =>
    obtain ⟨rfl, rfl⟩ := hReturns
    exact Bool.false_ne_true (h.2.1.mpr hb)
  | writing c asleep =>
    obtain ⟨rfl, rfl⟩ := hReturns
    exact Bool.false_ne_true (h.2.mpr hb)
  | _ => exact absurd hReturns id

/-- A step that leaves the queue alone and ends no wait in `disk_submit`. -/
theorem Progress.quiet {sectors : BufferId → List Nat} (h : Progress sectors s Q)
    (hOffset : t.sectorOffset = s.sectorOffset)
    (hCall : ∀ p b, (t.call p).returnsFor b → (s.call p).returnsFor b) : Progress sectors t Q where
  offset := by
    rw [hOffset]
    exact h.offset
  first := by
    rw [hOffset]
    exact h.first
  others := h.others
  done p b hReturns := h.done p b (hCall p b hReturns)

/-- The request of an owner that is not in `disk_submit` is new. -/
theorem Progress.submitted {sectors : BufferId → List Nat} (h : Progress sectors s Q)
    (hControl : Control s Q) (hOwner : (s.use b).owner = some p) (hb : b ∉ Q)
    (hOffset : t.sectorOffset = if Q = [] then 0 else s.sectorOffset)
    (hSelf : ∀ c, ¬ (t.call p).returnsFor c) (hCall : ∀ q, q ≠ p → t.call q = s.call q) :
    Progress (fun c => if some b = some c then [] else sectors c) t (Q ++ [b]) where
  offset _ := by
    rw [hOffset]
    split
    · decide
    · next hQ => exact h.offset hQ
  first c R hQ := by
    cases Q with
    | nil =>
      obtain rfl : b = c := by simpa using (List.cons.inj hQ).1
      simp [hOffset]
    | cons d L =>
      obtain rfl : d = c := (List.cons.inj hQ).1
      have hNe : b ≠ d := fun hEq => hb (hEq ▸ List.mem_cons_self)
      rw [if_neg (by simpa using hNe), h.first d L rfl, hOffset, if_neg (by simp)]
  others c hc := by
    cases Q with
    | nil => cases hc
    | cons d L =>
      by_cases hbc : b = c
      · rw [if_pos (by rw [hbc])]
      · rw [if_neg (by simpa using hbc)]
        apply h.others
        rcases List.mem_append.mp hc with hOld | hNew
        · exact hOld
        · exact absurd (List.mem_singleton.mp hNew).symm hbc
  done q c hReturns := by
    have hq : q ≠ p := by
      rintro rfl
      exact hSelf c hReturns
    rw [hCall q hq] at hReturns
    -- the buffer has one owner, so that it is not the one of another process
    have hbc : b ≠ c := by
      rintro rfl
      have hOther := (hControl.calls q).owner (Call.uses_of_returnsFor hReturns)
      rw [hOwner] at hOther
      exact hq (Option.some.inj hOther).symm
    rw [if_neg (by simpa using hbc)]
    exact h.done q c hReturns

theorem copySector_call : (s.copySector b).call = s.call := by
  unfold copySector
  split <;> rfl

/-- The counter and the calls after a sector that is not the last one. -/
theorem finishSector_more (hMore : s.sectorOffset + 1 < sectorsPerBlock) :
    (s.finishSector b).sectorOffset = s.sectorOffset + 1 ∧ (s.finishSector b).call = s.call := by
  unfold finishSector
  dsimp only
  rw [copySector_sectorOffset, if_neg (by omega), startOperation_eq]
  exact ⟨rfl, copySector_call⟩

theorem copySector_queue : ((s.copySector b).buffer b).queue = (s.buffer b).queue := by
  unfold copySector
  split
  · rfl
  · simp [setBuffer]

theorem finishBlock_call : (s.finishBlock b).call = fun p => (s.call p).wake b := by
  unfold finishBlock
  dsimp only
  split
  · rfl
  · rw [startOperation_eq]
    rfl

theorem finishBlock_sectorOffset (hNext : (s.buffer b).queue ≠ none) :
    (s.finishBlock b).sectorOffset = 0 := by
  unfold finishBlock
  dsimp only
  rw [if_neg (by simpa [setBuffer, wakeup] using hNext), startOperation_eq]

/-- The counter and the calls after the last sector. -/
theorem finishSector_last (hLast : sectorsPerBlock ≤ s.sectorOffset + 1) :
    (s.finishSector b).call = (fun p => (s.call p).wake b) ∧
      ((s.buffer b).queue ≠ none → (s.finishSector b).sectorOffset = 0) := by
  unfold finishSector
  dsimp only
  rw [copySector_sectorOffset, if_pos hLast, finishBlock_call]
  refine ⟨?_, fun hNext => finishBlock_sectorOffset ?_⟩
  · show (fun p => ((s.copySector b).call p).wake b) = _
    rw [copySector_call]
  · show ((s.copySector b).buffer b).queue ≠ none
    rw [copySector_queue]
    exact hNext

/-- `disk_interrupt` for the first request. -/
theorem Progress.finishSector {sectors : BufferId → List Nat} (h : Progress sectors s (b :: R))
    (hControl : Control s (b :: R)) :
    Progress (fun c => if b = c then sectors c ++ [s.sectorOffset] else sectors c)
      (s.finishSector b) (if s.sectorOffset + 1 < sectorsPerBlock then b :: R else R) := by
  have hRange : sectors b ++ [s.sectorOffset] = List.range (s.sectorOffset + 1) := by
    rw [h.first b R rfl, List.range_succ]
  have hOffset := h.offset (by simp)
  have hNodup := List.nodup_cons.mp hControl.nodup
  have hNe : ∀ c ∈ R, b ≠ c := fun c hc hEq => hNodup.1 (hEq ▸ hc)
  by_cases hMore : s.sectorOffset + 1 < sectorsPerBlock
  · rw [if_pos hMore]
    obtain ⟨hNext, hCall⟩ := finishSector_more (b := b) hMore
    refine ⟨fun _ => by rw [hNext]; exact hMore, ?_, ?_, ?_⟩
    · intro c L hQ
      obtain rfl : b = c := (List.cons.inj hQ).1
      rw [if_pos rfl, hRange, hNext]
    · intro c hc
      rw [if_neg (hNe c hc)]
      exact h.others c hc
    · intro p c hReturns
      rw [hCall] at hReturns
      have hbc : b ≠ c := by
        rintro rfl
        exact (hControl.calls p).not_queued hReturns List.mem_cons_self
      rw [if_neg hbc]
      exact h.done p c hReturns
  · rw [if_neg hMore]
    have hEight : s.sectorOffset + 1 = sectorsPerBlock := by omega
    obtain ⟨hCall, hZero⟩ := finishSector_last (b := b) (s := s) (by omega)
    -- if there is a next request, its transfer has been started
    have hStarted : R ≠ [] → (s.finishSector b).sectorOffset = 0 := by
      intro hR
      apply hZero
      intro hNone
      have hRest : Chain (fun b => (s.buffer b).queue) (s.buffer b).queue R := hControl.chain.2
      rw [hNone] at hRest
      cases R with
      | nil => exact hR rfl
      | cons c L => exact absurd hRest.1 (by simp)
    refine ⟨?_, ?_, ?_, ?_⟩
    · intro hR
      rw [hStarted hR]
      decide
    · intro c L hQ
      have hc : c ∈ R := by simp [hQ]
      rw [if_neg (hNe c hc), hStarted (by simp [hQ])]
      exact h.others c hc
    · intro c hc
      have hc' := List.mem_of_mem_tail hc
      rw [if_neg (hNe c hc')]
      exact h.others c hc'
    · intro p c hReturns
      rw [hCall] at hReturns
      by_cases hbc : b = c
      · rw [if_pos hbc, ← hbc, hRange, hEight]
      · rw [if_neg hbc]
        rcases Call.returnsFor_wake hReturns with hOld | ⟨hEq, -⟩
        · exact h.done p c hOld
        · exact absurd hEq.symm hbc

theorem Progress.interrupt {sectors : BufferId → List Nat} (h : Progress sectors s Q)
    (hControl : Control s Q) :
    Progress (serve sectors (.interrupt s.served : Event P)) s.interrupt
      (s.nextQueue Q (.interrupt s.served)) := by
  unfold nextQueue
  -- a stale interrupt finds the disk busy, or the queue empty; only the third case serves a
  -- sector
  by_cases hBusy : s.device.busy = true
  · rw [if_neg (by simp [hBusy]), Storage.interrupt, if_pos hBusy]
    have hServed : s.served = none := by simp [served, hBusy]
    rw [hServed]
    exact h.quiet rfl fun _ _ hReturns => hReturns
  · have hReady : s.device.busy = false := by simpa using hBusy
    cases Q with
    | nil =>
      have hHead : s.head = none := hControl.chain
      have hServed : s.served = none := by simp [served, hHead]
      rw [interrupt_of_none hHead, hServed]
      have hNext := h.quiet (t := { s with pin := false }) rfl fun _ _ hReturns => hReturns
      simp only [List.tail_nil, ite_self]
      exact hNext
    | cons b R =>
      have hHead : s.head = some b := hControl.chain.1
      have hServed : s.served = some (b, s.sectorOffset) := by simp [served, hHead, hReady]
      rw [interrupt_of_head hReady hHead, hServed]
      have hPin : Progress sectors { s with pin := false } (b :: R) :=
        h.quiet rfl fun _ _ hReturns => hReturns
      have hNext := hPin.finishSector (hControl.congr rfl rfl rfl rfl rfl rfl)
      -- the block has more sectors, or its buffer leaves the queue with all eight reported
      by_cases hMore : s.sectorOffset + 1 < sectorsPerBlock
      · rw [if_neg (by omega)]
        rw [if_pos hMore] at hNext
        exact hNext
      · rw [if_pos ⟨hReady, by omega⟩]
        rw [if_neg hMore] at hNext
        exact hNext

theorem boot_progress (image : Nat → Byte) (frames : BufferId → Nat → Byte) (pin : Bool) :
    Progress (fun _ => []) (boot image frames pin : Storage P) [] where
  offset h := absurd rfl h
  first := by simp
  others := by simp
  done p b h := absurd h id

section Steps

variable [DecidableEq P]

theorem bufferGet_call {drive : Byte} {block : Word} (h : s.bufferGet p drive block = some t) :
    t.sectorOffset = s.sectorOffset ∧ (∀ c, ¬ (t.call p).returnsFor c) ∧
      ∀ q, q ≠ p → t.call q = s.call q := by
  -- asleep, a hit, a victim: none of them waits for the disk
  unfold bufferGet at h
  split at h
  · split at h
    · obtain rfl := Option.some.inj h
      refine ⟨rfl, fun c => ?_, fun q hq => ?_⟩
      · simp [setCall, Call.returnsFor]
      · simp [setCall, hq]
    · obtain rfl := Option.some.inj h
      refine ⟨rfl, fun c => ?_, fun q hq => ?_⟩
      · simp [lock, setCall, Call.returnsFor]
      · simp [lock, setCall, setBuffer, hq]
  · obtain ⟨b, -, rfl⟩ := Option.map_eq_some_iff.mp h
    refine ⟨rfl, fun c => ?_, fun q hq => ?_⟩
    · simp [recycle, setCall, Call.returnsFor]
    · simp [recycle, setCall, setBuffer, hq]

theorem Progress.bufferGet {sectors : BufferId → List Nat} {drive : Byte} {block : Word}
    (h : Progress sectors s Q) (hGet : s.bufferGet p drive block = some t) : Progress sectors t Q := by
  obtain ⟨hOffset, hSelf, hOthers⟩ := bufferGet_call hGet
  apply h.quiet hOffset
  intro q c hReturns
  by_cases hq : q = p
  · subst hq
    exact absurd hReturns (hSelf c)
  · rwa [hOthers q hq] at hReturns

theorem returnsFor_setCall {call : Call} (hNot : ∀ c, ¬ call.returnsFor c) :
    ∀ q c, (Function.update s.call p call q).returnsFor c → (s.call q).returnsFor c := by
  intro q c hReturns
  by_cases hq : q = p
  · subst hq
    rw [Function.update_self] at hReturns
    exact absurd hReturns (hNot c)
  · rwa [Function.update_of_ne hq] at hReturns

/-- Who is not asleep in `disk_submit` is not woken up there. -/
theorem returnsFor_of_awake {call : Call} (hSpared : ¬ call.waitsFor c)
    (h : (Call.awake call).returnsFor c) : call.returnsFor c := by
  cases call with
  | reading block d asleep =>
    obtain ⟨rfl, -⟩ := h
    exact ⟨rfl, by simpa [Call.waitsFor] using hSpared⟩
  | writing d asleep =>
    obtain ⟨rfl, -⟩ := h
    exact ⟨rfl, by simpa [Call.waitsFor] using hSpared⟩
  | _ => exact absurd h id

/-- A buffer is submitted by its owner. -/
theorem Progress.request {sectors : BufferId → List Nat} (h : Progress sectors s Q)
    (hControl : Control s Q) (hOwner : (s.use b).owner = some p) (hb : b ∉ Q) (dirty : Bool)
    (call : Call) (hCall : ∀ c, ¬ call.returnsFor c) :
    Progress (fun c => if some b = some c then [] else sectors c)
      (((s.setBuffer b fun e => { e with dirty := dirty }).submit b).setCall p call) (Q ++ [b]) := by
  have hMarked : Control (s.setBuffer b fun e => { e with dirty := dirty }) Q :=
    hControl.rebuffer (hControl.busy_of_owner hOwner) { s.buffer b with dirty := dirty }
      ⟨rfl, rfl, rfl, rfl, rfl⟩
  have hCalls := (hMarked.submit hb).2.1
  apply h.submitted hControl hOwner hb
  · exact hMarked.submit_sectorOffset hb
  · simpa [setCall] using hCall
  · intro q hq
    simp only [setCall, Function.update_of_ne hq, hCalls]
    rfl

theorem Progress.release {sectors : BufferId → List Nat} (h : Progress sectors s Q)
    (hControl : Control s Q) (hHand : s.atHand p b = true) :
    Progress sectors (s.bufferRelease b) Q := by
  obtain ⟨hCall, changed, hUse⟩ := atHand_iff.mp hHand
  rw [bufferRelease_eq]
  refine h.quiet rfl fun q c hReturns => ?_
  rcases Call.returnsFor_wake hReturns with hOld | ⟨-, hUses⟩
  · exact hOld
  · -- only the holder uses the buffer, and it is not in a call
    have hOwner := (hControl.calls q).owner hUses
    rw [hUse] at hOwner
    obtain rfl : p = q := Option.some.inj hOwner
    rw [hCall] at hUses
    exact absurd hUses id

/-- **Step lemma**: the sectors that the labels report are those the queue has got through. -/
theorem Progress.step {sectors : BufferId → List Nat} {e : Event P} (h : Progress sectors s Q)
    (hControl : Control s Q) (hStep : s.Step e t) (hSpares : s.SparesRequests e) :
    Progress (serve sectors e) t (s.nextQueue Q e) := by
  obtain ⟨hLabels, hPerform⟩ := hStep
  cases e with
  | read p drive block =>
    obtain ⟨-, hGet⟩ := Option.ite_none_right_eq_some.mp hPerform
    exact h.bufferGet hGet
  | retry p =>
    simp only [perform] at hPerform
    split at hPerform
    · exact h.bufferGet hPerform
    · cases hPerform
  | readFrame p submitted =>
    simp only [perform] at hPerform
    split at hPerform
    · next block b hCall =>
      obtain rfl := Option.some.inj hPerform
      -- a hit submits nothing; a miss opens a request with no sector served yet
      have hSubmitted : submitted = if (s.buffer b).valid then none else some b := by
        rw [show submitted = s.toSubmit p from hLabels, toSubmit, hCall]
      have hOwn := hControl.calls p
      rw [hCall] at hOwn
      rw [nextQueue, hSubmitted]
      unfold readFrame
      by_cases hValid : (s.buffer b).valid = true
      · rw [if_pos hValid, if_pos hValid, Option.toList_none, List.append_nil]
        apply h.quiet
        · rfl
        · exact returnsFor_setCall (by simp [Call.returnsFor])
      · rw [if_neg hValid, if_neg hValid, Option.toList_some]
        exact h.request hControl (by rw [hOwn.1]; rfl) hOwn.2.1 false _ (by simp [Call.returnsFor])
    · cases hPerform
  | readDone p =>
    simp only [perform] at hPerform
    split at hPerform
    · obtain rfl := Option.some.inj hPerform
      apply h.quiet
      · rfl
      · exact returnsFor_setCall (by simp [Call.returnsFor])
    · cases hPerform
  | modify p b frame =>
    obtain ⟨-, hSome⟩ := Option.ite_none_right_eq_some.mp hPerform
    obtain rfl := Option.some.inj hSome
    exact h.quiet rfl fun _ _ hReturns => hReturns
  | write p b block frame =>
    obtain ⟨⟨hHand, -⟩, hSome⟩ := Option.ite_none_right_eq_some.mp hPerform
    obtain rfl := Option.some.inj hSome
    obtain ⟨hCall, changed, hUse⟩ := atHand_iff.mp hHand
    have hOwner : (s.use b).owner = some p := by rw [hUse]; rfl
    -- a buffer whose owner is at work is not in the queue, so the request is a new one
    have hb : b ∉ Q := hControl.not_queued_of_owner hOwner (by rw [hCall]; exact id)
    have hNext := h.request hControl hOwner hb true (.writing b true) (by simp [Call.returnsFor])
    exact ⟨hNext.offset, hNext.first, hNext.others, hNext.done⟩
  | writeDone p =>
    simp only [perform] at hPerform
    split at hPerform
    · obtain rfl := Option.some.inj hPerform
      apply h.quiet
      · rfl
      · exact returnsFor_setCall (by simp [Call.returnsFor])
    · cases hPerform
  | release p b =>
    obtain ⟨⟨hHand, -⟩, hSome⟩ := Option.ite_none_right_eq_some.mp hPerform
    obtain rfl := Option.some.inj hSome
    exact h.release hControl hHand
  | transfer =>
    obtain ⟨-, hSome⟩ := Option.ite_none_right_eq_some.mp hPerform
    obtain rfl := Option.some.inj hSome
    unfold Storage.transfer
    split <;> exact h.quiet rfl fun _ _ hReturns => hReturns
  | interrupt served =>
    obtain ⟨-, hSome⟩ := Option.ite_none_right_eq_some.mp hPerform
    obtain rfl := Option.some.inj hSome
    rw [show served = s.served from hLabels]
    exact h.interrupt hControl
  -- a kill lets the process return early, which takes a process out of those that wait and puts
  -- none in
  | kill p =>
    obtain rfl := Option.some.inj hPerform
    apply h.quiet
    · rfl
    · intro q c hReturns
      by_cases hq : q = p
      · subst hq
        simp only [Function.update_self] at hReturns
        exact returnsFor_of_awake (hSpares c) hReturns
      · simpa [hq] using hReturns

/-- Nothing disturbs a queued buffer. -/
theorem Control.undisturbed {e : Event P} (h : Control s Q) (hStep : s.Step e t) (hb : b ∈ Q)
    (hDisturbs : t.Disturbs b e) : False := by
  -- a buffer that `buffer_get` hands out is not in the queue behind the step, nor before
  have hHanded : ∀ {p : P} {block : Word}, Control t Q → t.call p = .got block b → False := by
    intro p block hNext hGot
    have hCall := hNext.calls p
    rw [hGot] at hCall
    exact hCall.2.1 hb
  have hNotHeld : ∀ {p : P}, s.atHand p b = true → False := by
    intro p hHand
    obtain ⟨hCall, changed, hUse⟩ := atHand_iff.mp hHand
    refine h.not_queued_of_owner (p := p) (by rw [hUse]; rfl) ?_ hb
    rw [hCall]
    exact id
  cases e with
  | read p drive block =>
    obtain ⟨block, hGot⟩ := hDisturbs
    exact hHanded (h.step hStep trivial) hGot
  | retry p =>
    obtain ⟨block, hGot⟩ := hDisturbs
    exact hHanded (h.step hStep trivial) hGot
  | readFrame p submitted =>
    have hNodup := (h.step hStep trivial).nodup
    rw [nextQueue, show submitted = some b from hDisturbs, Option.toList_some,
      List.nodup_append] at hNodup
    exact hNodup.2.2 b hb b (by simp) rfl
  | write p c block frame =>
    obtain rfl : c = b := hDisturbs
    obtain ⟨⟨hHand, -⟩, -⟩ := Option.ite_none_right_eq_some.mp hStep.2
    exact hNotHeld hHand
  | release p c =>
    obtain rfl : c = b := hDisturbs
    obtain ⟨⟨hHand, -⟩, -⟩ := Option.ite_none_right_eq_some.mp hStep.2
    exact hNotHeld hHand
  | _ => exact hDisturbs

/-! ## §3 Runs from boot -/

/-- The two invariants, with the sectors collected from the labels. -/
def Tracked (x : Storage P × (BufferId → List Nat)) : Prop :=
  ∃ Q, Control x.1 Q ∧ Progress x.2 x.1 Q

theorem run_progress {image : Nat → Byte} {frames : BufferId → Nat → Byte} {pin : Bool}
    {es : List (Event P)} (h : Run (Guarded Step SparesRequests) (boot image frames pin) es s) :
    Tracked (s, servedSince es) := by
  have hHistory := h.with_history serve fun _ => []
  refine hHistory.invariant ?_ ⟨[], boot_control .., boot_progress ..⟩
  rintro ⟨s, sectors⟩ e ⟨t, sectors'⟩ ⟨Q, hControl, hProgress⟩ ⟨⟨hStep, hSpares⟩, rfl⟩
  exact ⟨s.nextQueue Q e, hControl.step hStep hSpares, hProgress.step hControl hStep hSpares⟩

/-- **Requests**: in a run where no process asleep in `disk_submit` is killed, `disk_submit`
    returns only behind all the sectors of its block, with the buffer out of the queue, and
    nothing releases, hands out or submits a buffer of the queue. The queue of the driver is
    followed beside the run, with the sectors that the labels have reported for each request in
    it. -/
theorem requests_complete {image : Nat → Byte} {frames : BufferId → Nat → Byte} {pin : Bool}
    {es : List (Event P)} (h : Run (Guarded Step SparesRequests) (boot image frames pin) es s) :
    (∀ p b, (s.call p).returnsFor b → servedSince es b = List.range sectorsPerBlock ∧
      b ∉ s.requests) ∧
    ∀ e t, s.Step e t → ∀ b ∈ s.requests, ¬ t.Disturbs b e := by
  obtain ⟨Q, hControl, hProgress⟩ := run_progress h
  rw [hControl.requests_eq]
  constructor
  · intro p b hReturns
    exact ⟨hProgress.done p b hReturns, (hControl.calls p).not_queued hReturns⟩
  · intro e t hStep b hb hDisturbs
    exact hControl.undisturbed hStep hb hDisturbs

end Steps

/-- An event, if its label tells what the state has. The labels with the bytes of a frame and the
    kills are left out. -/
def performTold [DecidableEq P] (s : Storage P) (e : Event P) : Option (Storage P) :=
  match e with
  | .readFrame p submitted => if submitted = s.toSubmit p then s.perform e else none
  | .interrupt served => if served = s.served then s.perform e else none
  | .write _ _ _ _ => none
  | .kill _ => none
  | e => s.perform e

theorem step_of_performTold [DecidableEq P] {e : Event P} (h : s.performTold e = some t) :
    Guarded Step SparesRequests s e t := by
  cases e with
  | readFrame p submitted =>
    obtain ⟨hLabel, hPerform⟩ := Option.ite_none_right_eq_some.mp h
    exact ⟨⟨hLabel, hPerform⟩, trivial⟩
  | interrupt served =>
    obtain ⟨hLabel, hPerform⟩ := Option.ite_none_right_eq_some.mp h
    exact ⟨⟨hLabel, hPerform⟩, trivial⟩
  | write p b block frame => cases h
  | kill p => cases h
  | _ => exact ⟨⟨trivial, h⟩, trivial⟩

theorem run_of_performTold [DecidableEq P] {es : List (Event P)}
    (h : performAll performTold s es = some t) : Run (Guarded Step SparesRequests) s es t := by
  induction es generalizing s with
  | nil =>
    obtain rfl := Option.some.inj h
    exact .nil s
  | cons e es ih =>
    obtain ⟨u, hFirst, hRest⟩ := Option.bind_eq_some_iff.mp h
    exact .cons (step_of_performTold hFirst) (ih hRest)

/-- Two processes read a block each, and the disk transfers the eight sectors of the first one. -/
def firstOfTwo : List (Event Bool) :=
  [.read true 0 34, .readFrame true (some 0), .read false 0 35, .readFrame false (some 1)] ++
    (List.range sectorsPerBlock).flatMap fun n => [.transfer, .interrupt (some (0, n))]

/-- `disk_submit` of the first process returns, and the second request is still in the queue. -/
theorem boot_requests_complete :
    ∃ s : Storage Bool, Run (Guarded Step SparesRequests)
      (boot (fun _ => 0) (fun _ _ => 0) false) firstOfTwo s ∧ (s.call true).returnsFor 0 ∧
      (servedSince firstOfTwo 0 = List.range sectorsPerBlock ∧ 0 ∉ s.requests) ∧
      s.requests = [1] ∧ ∀ e t, s.Step e t → ∀ b ∈ s.requests, ¬ t.Disturbs b e := by
  have hRuns : (performAll performTold (boot (fun _ => 0) (fun _ _ => 0) false : Storage Bool)
      firstOfTwo).any (fun s => s.call true == .reading 34 0 false && s.requests == [1]) = true := by
    decide +kernel
  obtain ⟨s, hPerform, hRuns⟩ := (Option.any_eq_true _ _).mp hRuns
  obtain ⟨hCall, hRequests⟩ := Bool.and_eq_true_iff.mp hRuns
  have hRun := run_of_performTold hPerform
  have hReturns : (s.call true).returnsFor 0 := by
    rw [eq_of_beq hCall]
    exact ⟨rfl, rfl⟩
  obtain ⟨hServed, hUndisturbed⟩ := requests_complete hRun
  exact ⟨s, hRun, hReturns, hServed true 0 hReturns, eq_of_beq hRequests, hUndisturbed⟩

/-- A process that is killed in `disk_submit` returns while its buffer is still in the queue,
    and releases it there. -/
theorem kill_ends_request :
    ∃ s t : Storage Bool, Run Step (boot (fun _ => 0) (fun _ _ => 0) false)
      [.read true 0 34, .readFrame true (some 0), .kill true] s ∧
      (s.call true).returnsFor 0 ∧ 0 ∈ s.requests ∧
      servedSince [.read true 0 34, .readFrame true (some 0), .kill true] 0 ≠
        List.range sectorsPerBlock ∧
      Run Step s [.readDone true] t ∧ 0 ∈ t.requests ∧ ∃ u, t.Step (.release true 0) u := by
  have hRun : Run Step (boot (fun _ => 0) (fun _ _ => 0) false : Storage Bool)
      [.read true 0 34, .readFrame true (some 0), .kill true] _ :=
    .cons ⟨trivial, rfl⟩ (.cons ⟨rfl, rfl⟩ (.cons ⟨trivial, rfl⟩ (.nil _)))
  refine ⟨_, _, hRun, ⟨rfl, rfl⟩, ?_, ?_, .cons ⟨trivial, rfl⟩ (.nil _), ?_, _, trivial, rfl⟩
  · exact List.mem_cons_self
  · decide
  · exact List.mem_cons_self

end Storage

end Xv6502.Block
