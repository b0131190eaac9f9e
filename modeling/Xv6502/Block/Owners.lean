import Xv6502.Block.Refinement

/-!
# What an Event Leaves to the Other Processes

An event of the block layer is one of the disk or one of a process. The other processes keep the
buffers they have locked, with their blocks, and stay where they are in their calls; at most they
are woken up.
-/

namespace Xv6502.Block.Storage

open Xv6502.Emulator
open Xv6502.Block

variable {P : Type} {s t u : Storage P} {Q : List BufferId} {p q : P} {b c : BufferId}
  {drive : Byte} {block : Word}

/-- The process that does something. -/
def Event.actor : Event P → Option P
  | .read p _ _ => some p
  | .retry p => some p
  | .readFrame p _ => some p
  | .readDone p => some p
  | .modify p _ _ => some p
  | .write p _ _ _ => some p
  | .writeDone p => some p
  | .release p _ => some p
  | .transfer => none
  | .interrupt _ => none
  | .kill p => some p

/-- A process keeps its place and its buffers. -/
structure Spared (s t : Storage P) (q : P) : Prop where
  call : Call.awake (t.call q) = Call.awake (s.call q)
  kept : ∀ c, (s.use c).owner = some q →
    t.use c = s.use c ∧ (t.buffer c).blockNumber = (s.buffer c).blockNumber
  owner : ∀ c, (t.use c).owner = some q → (s.use c).owner = some q

theorem Spared.trans (h : Spared s t q) (h' : Spared t u q) : Spared s u q where
  call := h'.call.trans h.call
  kept := by
    intro c hOwner
    obtain ⟨hUse, hBlock⟩ := h.kept c hOwner
    obtain ⟨hUse', hBlock'⟩ := h'.kept c (by rw [hUse]; exact hOwner)
    exact ⟨hUse'.trans hUse, hBlock'.trans hBlock⟩
  owner := fun c hOwner => h.owner c (h'.owner c hOwner)

/-- A step that changes no use of a buffer. -/
theorem Spared.of_use_eq (hCall : Call.awake (t.call q) = Call.awake (s.call q))
    (hUse : t.use = s.use)
    (hBlock : ∀ c, (t.buffer c).blockNumber = (s.buffer c).blockNumber) : Spared s t q where
  call := hCall
  kept := fun c _ => ⟨by rw [hUse], hBlock c⟩
  owner := fun c hOwner => by rwa [hUse] at hOwner

/-- A step at a buffer that neither was nor becomes the process's own. -/
theorem Spared.at_buffer {use : Use P} (hCall : Call.awake (t.call q) = Call.awake (s.call q))
    (hUse : t.use = Function.update s.use b use)
    (hBlock : ∀ c, c ≠ b → (t.buffer c).blockNumber = (s.buffer c).blockNumber)
    (hBefore : (s.use b).owner ≠ some q) (hAfter : use.owner ≠ some q) : Spared s t q where
  call := hCall
  kept := by
    intro c hOwner
    -- a buffer of `q` is not the one of this step
    have hc : c ≠ b := by
      rintro rfl
      exact hBefore hOwner
    exact ⟨by rw [hUse, Function.update_of_ne hc], hBlock c hc⟩
  owner := by
    intro c hOwner
    rw [hUse] at hOwner
    by_cases hc : c = b
    · rw [hc, Function.update_self] at hOwner
      exact absurd hOwner hAfter
    · rwa [Function.update_of_ne hc] at hOwner

/-! ## §1 The operations -/

theorem blockNumber_setBuffer (s : Storage P) (b c : BufferId) (f : Buffer → Buffer)
    (hf : ∀ e, (f e).blockNumber = e.blockNumber) :
    ((s.setBuffer b f).buffer c).blockNumber = (s.buffer c).blockNumber := by
  unfold setBuffer
  by_cases hc : c = b
  · rw [hc]
    simp [hf]
  · simp [hc]

theorem blockNumber_submit (s : Storage P) (b c : BufferId) :
    ((s.submit b).buffer c).blockNumber = (s.buffer c).blockNumber := by
  have hStart : ∀ t : Storage P, t.startOperation.buffer = t.buffer := by
    intro t
    rw [startOperation_eq]
  -- only the links of the queue and the device change
  have hSet : ∀ (t : Storage P) (b' : BufferId) (link : Option BufferId),
      ((t.setBuffer b' fun e => { e with queue := link }).buffer c).blockNumber =
        (t.buffer c).blockNumber :=
    fun t b' link => blockNumber_setBuffer t b' c _ fun _ => rfl
  unfold submit
  dsimp only
  split
  · split
    · rw [hStart]
      exact hSet s b none
    · exact hSet s b none
  · next tail _ _ =>
    split
    · rw [hStart]
      exact (hSet _ tail (some b)).trans (hSet s b none)
    · exact (hSet _ tail (some b)).trans (hSet s b none)
  · split
    · rw [hStart]
      exact hSet s b none
    · exact hSet s b none

/-- The disk changes no use and no block number. -/
theorem interrupt_use (s : Storage P) :
    s.interrupt.use = s.use ∧
      ∀ c, (s.interrupt.buffer c).blockNumber = (s.buffer c).blockNumber := by
  unfold Storage.interrupt
  dsimp only
  split
  · exact ⟨rfl, fun _ => rfl⟩
  · split
    · exact ⟨rfl, fun _ => rfl⟩
    · next b _ =>
      -- the next sector, or the end of the request
      by_cases hMore : s.sectorOffset + 1 < sectorsPerBlock
      · rw [finishSector_eq_advanced (s := { s with pin := false }) hMore, startOperation_eq]
        refine ⟨rfl, fun c => ?_⟩
        by_cases hc : c = b
        · rw [hc]
          simp [advanced]
        · simp [advanced, hc]
      · have hBlock : ∀ c, ((({ s with pin := false } : Storage P).popped b).buffer c).blockNumber =
            (s.buffer c).blockNumber := by
          intro c
          by_cases hc : c = b
          · rw [hc]
            simp [popped]
          · simp [popped, hc]
        rw [finishSector_eq_popped (s := { s with pin := false }) (Nat.le_of_not_lt hMore)]
        split
        · exact ⟨rfl, hBlock⟩
        · rw [startOperation_eq]
          exact ⟨rfl, hBlock⟩

theorem transfer_use (s : Storage P) :
    s.transfer.use = s.use ∧ s.transfer.call = s.call ∧ s.transfer.buffer = s.buffer := by
  unfold Storage.transfer
  split <;> exact ⟨rfl, rfl, rfl⟩

/-- A use of a buffer that the process has already. -/
theorem owner_of_update {use : Use P} (hBefore : (s.use b).owner = some p)
    (hOwner : (Function.update s.use b use c).owner = some p) : (s.use c).owner = some p := by
  by_cases hc : c = b
  · rw [hc]
    exact hBefore
  · rwa [Function.update_of_ne hc] at hOwner

section Processes

variable [DecidableEq P]

/-- What `buffer_get` does: it goes to sleep, or it gets a buffer that nobody uses. -/
theorem Control.bufferGet_cases (h : Control s Q) (hGet : s.bufferGet p drive block = some t) :
    (∃ b, t = s.setCall p (.locking drive block b true)) ∨
      ∃ b, s.use b = .free ∧ t.call = Function.update s.call p (.got block b) ∧
        t.use = Function.update s.use b (.fetching p) ∧ (t.buffer b).blockNumber = block ∧
        ∀ c, c ≠ b → (t.buffer c).blockNumber = (s.buffer c).blockNumber := by
  unfold Storage.bufferGet at hGet
  -- the block is in the cache, locked or not, or a buffer is recycled for it
  split at hGet
  · next b hFound =>
    split at hGet
    · exact .inl ⟨b, (Option.some.inj hGet).symm⟩
    · next hBusy =>
      obtain rfl := Option.some.inj hGet
      have hFor : s.isFor drive block b = true := List.find?_some hFound
      simp only [isFor, Bool.and_eq_true, beq_iff_eq] at hFor
      have hFree : s.use b = .free := by
        by_contra hUse
        exact hBusy ((h.busy b).mpr hUse)
      refine .inr ⟨b, hFree, rfl, rfl, ?_, fun c hc => ?_⟩
      · simpa [Storage.lock, setCall, setBuffer] using hFor.1
      · simp [Storage.lock, setCall, setBuffer, hc]
  · obtain ⟨b, hVictim, rfl⟩ := Option.map_eq_some_iff.mp hGet
    have hUnused : s.unused b = true := List.find?_some hVictim
    have hFree : s.use b = .free := by
      by_contra hUse
      simp [unused, (h.busy b).mpr hUse] at hUnused
    refine .inr ⟨b, hFree, rfl, rfl, ?_, fun c hc => ?_⟩
    · simp [Storage.recycle, setCall, setBuffer]
    · simp [Storage.recycle, setCall, setBuffer, hc]

theorem awake_update {call : Call} (hq : q ≠ p) :
    Call.awake (Function.update s.call p call q) = Call.awake (s.call q) := by
  rw [Function.update_of_ne hq]

theorem Control.spared_bufferGet (h : Control s Q) (hq : q ≠ p)
    (hGet : s.bufferGet p drive block = some t) : Spared s t q := by
  rcases h.bufferGet_cases hGet with ⟨b, rfl⟩ | ⟨b, hFree, hCall, hUse, -, hBlock⟩
  · exact .of_use_eq (awake_update hq) rfl fun _ => rfl
  · refine .at_buffer ?_ hUse hBlock ?_ ?_
    · rw [hCall]
      exact awake_update hq
    · rw [hFree]
      exact (Option.some_ne_none q).symm
    · intro hOwner
      exact hq (Option.some.inj hOwner).symm

/-- A process gets a buffer back that it has locked. -/
theorem spared_return (hq : q ≠ p) (hOwner : (s.use b).owner = some p) :
    Spared s (s.returnBuffer p b) q := by
  refine .at_buffer (b := b) (awake_update hq) rfl (fun _ _ => rfl) ?_ ?_
  · rw [hOwner]
    exact fun hEq => hq (Option.some.inj hEq).symm
  · exact fun hEq => hq (Option.some.inj hEq).symm

/-- **Frame lemma**: the processes that do nothing in an event keep their places and their
    buffers. -/
theorem Control.spared {e : Event P} (h : Control s Q) (hStep : s.Step e t)
    (hq : e.actor ≠ some q) : Spared s t q := by
  obtain ⟨-, hPerform⟩ := hStep
  -- the event is another process's, or the disk's
  have hNe : ∀ {p}, e.actor = some p → q ≠ p := by
    rintro p hp rfl
    exact hq hp
  cases e with
  | read p drive block =>
    exact h.spared_bufferGet (hNe rfl) (Option.ite_none_right_eq_some.mp hPerform).2
  | retry p =>
    simp only [perform] at hPerform
    split at hPerform
    · exact h.spared_bufferGet (hNe rfl) hPerform
    · cases hPerform
  -- the buffer of `p` is not one of `q`'s
  | readFrame p submitted =>
    simp only [perform] at hPerform
    split at hPerform
    · next block b hCall =>
      obtain rfl := Option.some.inj hPerform
      have hOwner := (h.calls p).owner (b := b) (by rw [hCall]; rfl)
      unfold Storage.readFrame
      split
      · exact spared_return (hNe rfl) hOwner
      · refine .of_use_eq ?_ (submit_use _ _) fun c => ?_
        · simp only [setCall, submit_call]
          exact awake_update (hNe rfl)
        · exact (blockNumber_submit _ b c).trans (blockNumber_setBuffer s b c _ fun _ => rfl)
    · cases hPerform
  | readDone p =>
    simp only [perform] at hPerform
    split at hPerform
    · next block b hCall =>
      obtain rfl := Option.some.inj hPerform
      have hOwner := (h.calls p).owner (b := b) (by rw [hCall]; rfl)
      have hValid : Spared s (s.setBuffer b fun e => { e with valid := true }) q :=
        .of_use_eq rfl rfl fun c => blockNumber_setBuffer s b c _ fun _ => rfl
      exact hValid.trans (spared_return (hNe rfl) hOwner)
    · cases hPerform
  | modify p b frame =>
    obtain ⟨hHand, hSome⟩ := Option.ite_none_right_eq_some.mp hPerform
    obtain rfl := Option.some.inj hSome
    obtain ⟨-, changed, hUse⟩ := atHand_iff.mp hHand
    have hNot : (Use.held p true : Use P).owner ≠ some q :=
      fun hEq => hNe rfl (Option.some.inj hEq).symm
    refine .at_buffer (b := b) rfl rfl (fun c hc => ?_) ?_ hNot
    · simp [setBuffer, hc]
    · rw [hUse]
      exact hNot
  | write p b block frame =>
    obtain ⟨⟨hHand, -⟩, hSome⟩ := Option.ite_none_right_eq_some.mp hPerform
    obtain rfl := Option.some.inj hSome
    obtain ⟨-, changed, hUse⟩ := atHand_iff.mp hHand
    have hNot : (Use.held p false : Use P).owner ≠ some q :=
      fun hEq => hNe rfl (Option.some.inj hEq).symm
    refine .at_buffer (b := b) ?_ ?_ (fun c hc => ?_) ?_ hNot
    · have hCall := submit_call (s.setBuffer b fun e => { e with dirty := true }) b
      simp only [Storage.bufferWrite, setCall]
      rw [hCall]
      exact awake_update (hNe rfl)
    · have hSame := submit_use (s.setBuffer b fun e => { e with dirty := true }) b
      simp only [Storage.bufferWrite, setCall]
      rw [hSame]
      rfl
    · exact (blockNumber_submit _ b c).trans (blockNumber_setBuffer s b c _ fun _ => rfl)
    · rw [hUse]
      exact hNot
  | writeDone p =>
    simp only [perform] at hPerform
    split at hPerform
    · obtain rfl := Option.some.inj hPerform
      exact .of_use_eq (awake_update (hNe rfl)) rfl fun _ => rfl
    · cases hPerform
  -- a sleeper on the buffer wakes up, which `Spared` allows for
  | release p b =>
    obtain ⟨⟨hHand, -⟩, hSome⟩ := Option.ite_none_right_eq_some.mp hPerform
    obtain rfl := Option.some.inj hSome
    obtain ⟨-, changed, hUse⟩ := atHand_iff.mp hHand
    rw [bufferRelease_eq]
    refine .at_buffer (b := b) (awake_wake (s.call q)) rfl (fun c hc => ?_) ?_
      (Option.some_ne_none q).symm
    · simp [hc]
    · rw [hUse]
      exact fun hEq => hNe rfl (Option.some.inj hEq).symm
  | transfer =>
    obtain ⟨-, hSome⟩ := Option.ite_none_right_eq_some.mp hPerform
    obtain rfl := Option.some.inj hSome
    obtain ⟨hUse, hCall, hBuffer⟩ := transfer_use s
    exact .of_use_eq (by rw [hCall]) hUse fun c => by rw [hBuffer]
  | interrupt served =>
    obtain ⟨-, hSome⟩ := Option.ite_none_right_eq_some.mp hPerform
    obtain rfl := Option.some.inj hSome
    obtain ⟨hUse, hBlock⟩ := interrupt_use s
    exact .of_use_eq (awake_interrupt s q) hUse hBlock
  | kill p =>
    obtain rfl := Option.some.inj hPerform
    exact .of_use_eq (awake_update (hNe rfl)) rfl fun _ => rfl

/-! ## §2 The process that does something -/

/-- The block that the process looks for in an event. -/
def seeks (s : Storage P) : Event P → Option Word
  | .read _ _ block => some block
  | .retry p =>
    match s.call p with
    | .locking _ block _ _ => some block
    | _ => none
  | _ => none

/-- What a process has locked behind `buffer_get`. -/
theorem Control.owned_bufferGet (h : Control s Q) (hGet : s.bufferGet p drive block = some t)
    (hOwner : (t.use c).owner = some p) :
    (s.use c).owner = some p ∧ (t.buffer c).blockNumber = (s.buffer c).blockNumber ∨
      (t.buffer c).blockNumber = block := by
  rcases h.bufferGet_cases hGet with ⟨b, rfl⟩ | ⟨b, -, -, hUse, hNew, hBlock⟩
  · exact .inl ⟨hOwner, rfl⟩
  · by_cases hc : c = b
    · rw [hc]
      exact .inr hNew
    · rw [hUse, Function.update_of_ne hc] at hOwner
      exact .inl ⟨hOwner, hBlock c hc⟩

/-- What a process has locked behind an event of its own: what it had before, or the block that it
    was looking for. -/
theorem Control.owned {e : Event P} (h : Control s Q) (hStep : s.Step e t)
    (hActor : e.actor = some p) (hOwner : (t.use c).owner = some p) :
    (s.use c).owner = some p ∧ (t.buffer c).blockNumber = (s.buffer c).blockNumber ∨
      s.seeks e = some (t.buffer c).blockNumber := by
  obtain ⟨-, hPerform⟩ := hStep
  -- only `buffer_get` gives a buffer to a process, one for the block it looks for
  cases e with
  | read q drive block =>
    obtain rfl := Option.some.inj hActor
    obtain ⟨-, hGet⟩ := Option.ite_none_right_eq_some.mp hPerform
    exact (h.owned_bufferGet hGet hOwner).imp_right fun hBlock => by rw [hBlock]; rfl
  | retry q =>
    obtain rfl := Option.some.inj hActor
    simp only [perform] at hPerform
    split at hPerform
    · next d n b' hCall =>
      refine (h.owned_bufferGet hPerform hOwner).imp_right fun hBlock => ?_
      rw [hBlock, seeks, hCall]
    · cases hPerform
  | readFrame q submitted =>
    obtain rfl := Option.some.inj hActor
    simp only [perform] at hPerform
    split at hPerform
    · next n b' hCall =>
      obtain rfl := Option.some.inj hPerform
      have hBefore := (h.calls q).owner (b := b') (by rw [hCall]; rfl)
      left
      unfold Storage.readFrame at hOwner ⊢
      split at hOwner
      · next hValid =>
        rw [if_pos hValid]
        exact ⟨owner_of_update hBefore hOwner, rfl⟩
      · next hValid =>
        rw [if_neg hValid]
        simp only [setCall, submit_use] at hOwner
        exact ⟨hOwner, (blockNumber_submit _ b' c).trans (blockNumber_setBuffer s b' c _ fun _ => rfl)⟩
    · cases hPerform
  | readDone q =>
    obtain rfl := Option.some.inj hActor
    simp only [perform] at hPerform
    split at hPerform
    · next n b' hCall =>
      obtain rfl := Option.some.inj hPerform
      have hBefore := (h.calls q).owner (b := b') (by rw [hCall]; rfl)
      refine .inl ⟨owner_of_update hBefore hOwner, ?_⟩
      by_cases hc : c = b'
      · rw [hc]
        simp [Storage.readDone, returnBuffer, setCall, setBuffer]
      · simp [Storage.readDone, returnBuffer, setCall, setBuffer, hc]
    · cases hPerform
  | modify q b' frame =>
    obtain rfl := Option.some.inj hActor
    obtain ⟨hHand, hSome⟩ := Option.ite_none_right_eq_some.mp hPerform
    obtain rfl := Option.some.inj hSome
    obtain ⟨-, changed, hUse⟩ := atHand_iff.mp hHand
    refine .inl ⟨owner_of_update (b := b') (by rw [hUse]; rfl) hOwner, ?_⟩
    by_cases hc : c = b'
    · rw [hc]
      simp [setBuffer]
    · simp [setBuffer, hc]
  | write q b' block frame =>
    obtain rfl := Option.some.inj hActor
    obtain ⟨⟨hHand, -⟩, hSome⟩ := Option.ite_none_right_eq_some.mp hPerform
    obtain rfl := Option.some.inj hSome
    obtain ⟨-, changed, hUse⟩ := atHand_iff.mp hHand
    have hSame := submit_use (s.setBuffer b' fun e => { e with dirty := true }) b'
    simp only [Storage.bufferWrite, setCall] at hOwner
    rw [hSame] at hOwner
    exact .inl ⟨owner_of_update (b := b') (by rw [hUse]; rfl) hOwner,
      (blockNumber_submit _ b' c).trans (blockNumber_setBuffer s b' c _ fun _ => rfl)⟩
  | writeDone q =>
    simp only [perform] at hPerform
    split at hPerform
    · obtain rfl := Option.some.inj hPerform
      exact .inl ⟨hOwner, rfl⟩
    · cases hPerform
  | release q b' =>
    obtain ⟨-, hSome⟩ := Option.ite_none_right_eq_some.mp hPerform
    obtain rfl := Option.some.inj hSome
    rw [bufferRelease_eq] at hOwner ⊢
    left
    by_cases hc : c = b'
    · rw [hc] at hOwner
      simp [Use.owner] at hOwner
    · simp only [Function.update_of_ne hc] at hOwner ⊢
      exact ⟨hOwner, trivial⟩
  | transfer => cases hActor
  | interrupt served => cases hActor
  | kill q =>
    obtain rfl := Option.some.inj hPerform
    exact .inl ⟨hOwner, rfl⟩

/-- A process waits for the lock of a block that it is looking for, or that it was waiting for
    before. -/
theorem Control.locking_of_step {e : Event P} {d : Byte} {n : Word} {asleep : Bool}
    (h : Control s Q) (hStep : s.Step e t) (hActor : e.actor = some p)
    (hCall : t.call p = .locking d n b asleep) :
    s.seeks e = some n ∨ ∃ asleep', s.call p = .locking d n b asleep' := by
  -- a process that sleeps behind `buffer_get` looks for the block it has been given
  have hGet : ∀ {d' n'}, s.bufferGet p d' n' = some t → n' = n := by
    intro d' n' hGet
    rcases h.bufferGet_cases hGet with ⟨b', rfl⟩ | ⟨b', -, hGot, -⟩
    · simp only [setCall, Function.update_self, Call.locking.injEq] at hCall
      exact hCall.2.1
    · rw [hGot, Function.update_self] at hCall
      cases hCall
  obtain ⟨-, hPerform⟩ := hStep
  cases e with
  | read q drive block =>
    obtain rfl := Option.some.inj hActor
    left
    rw [seeks, hGet (Option.ite_none_right_eq_some.mp hPerform).2]
  | retry q =>
    obtain rfl := Option.some.inj hActor
    simp only [perform] at hPerform
    split at hPerform
    · next hBefore =>
      left
      rw [seeks, hBefore, hGet hPerform]
    · cases hPerform
  | readFrame q submitted =>
    obtain rfl := Option.some.inj hActor
    simp only [perform] at hPerform
    split at hPerform
    · obtain rfl := Option.some.inj hPerform
      unfold Storage.readFrame at hCall
      split at hCall
      · simp [returnBuffer, setCall] at hCall
      · simp [setCall] at hCall
    · cases hPerform
  | readDone q =>
    obtain rfl := Option.some.inj hActor
    simp only [perform] at hPerform
    split at hPerform
    · obtain rfl := Option.some.inj hPerform
      simp [Storage.readDone, returnBuffer, setCall] at hCall
    · cases hPerform
  | modify q b' frame =>
    obtain ⟨-, hSome⟩ := Option.ite_none_right_eq_some.mp hPerform
    obtain rfl := Option.some.inj hSome
    exact .inr ⟨asleep, hCall⟩
  | write q b' block frame =>
    obtain rfl := Option.some.inj hActor
    obtain ⟨-, hSome⟩ := Option.ite_none_right_eq_some.mp hPerform
    obtain rfl := Option.some.inj hSome
    simp [Storage.bufferWrite, setCall] at hCall
  | writeDone q =>
    obtain rfl := Option.some.inj hActor
    simp only [perform] at hPerform
    split at hPerform
    · obtain rfl := Option.some.inj hPerform
      simp [setCall] at hCall
    · cases hPerform
  | release q b' =>
    obtain rfl := Option.some.inj hActor
    obtain ⟨⟨hHand, -⟩, hSome⟩ := Option.ite_none_right_eq_some.mp hPerform
    obtain rfl := Option.some.inj hSome
    rw [bufferRelease_eq] at hCall
    simp only [(atHand_iff.mp hHand).1, Call.wake] at hCall
    cases hCall
  | transfer => cases hActor
  | interrupt served => cases hActor
  | kill q =>
    obtain rfl := Option.some.inj hActor
    obtain rfl := Option.some.inj hPerform
    simp only [Function.update_self] at hCall
    right
    cases hBefore : s.call q with
    | locking d' n' b' asleep' =>
      rw [hBefore] at hCall
      obtain ⟨rfl, rfl, rfl, -⟩ := Call.locking.inj hCall
      exact ⟨asleep', rfl⟩
    | _ =>
      rw [hBefore] at hCall
      cases hCall

end Processes

end Xv6502.Block.Storage
