import Xv6502.Lib.LinkedRing
import Xv6502.Block.Serving
import Mathlib.Data.Fintype.Card

/-!
# The Links of the Buffer Cache

`buffer_init`, `buffer_get` and `buffer_release` of `kernel/buffer.c` as they work on the links of
the buffers: the two loops of `buffer_get` follow `next` and `prev`, and `buffer_release` takes a
buffer out of the list and puts it in behind the head. The list of buffers that the block layer
has been modelled with is what the links stand for, and every step on the links is a step of that
model.
-/

namespace Xv6502.Block

open Xv6502.Emulator
open Xv6502.Lib

variable {P : Type}

/-! ## §1 Locks and sleepers -/

/-- The process is `SLEEPING` on the address of the buffer: for its lock, or for the disk. -/
def Call.sleepsOn (b : BufferId) : Call → Prop
  | .locking _ _ c asleep => c = b ∧ asleep = true
  | .reading _ c asleep => c = b ∧ asleep = true
  | .writing c asleep => c = b ∧ asleep = true
  | _ => False

theorem Call.uses_wake {call : Call} {b c : BufferId} : (call.wake b).uses c ↔ call.uses c := by
  cases call <;> exact Iff.rfl

/-- A process that sleeps behind `wakeup(b)` has slept before, and on another buffer. -/
theorem Call.sleepsOn_of_wake {call : Call} {b c : BufferId} (h : (call.wake b).sleepsOn c) :
    call.sleepsOn c ∧ c ≠ b := by
  cases call with
  | none => exact absurd h id
  | got block d => exact absurd h id
  | locking drive block d asleep =>
    obtain ⟨rfl, hAsleep⟩ := h
    simpa [Call.sleepsOn] using hAsleep
  | reading block d asleep =>
    obtain ⟨rfl, hAsleep⟩ := h
    simpa [Call.sleepsOn] using hAsleep
  | writing d asleep =>
    obtain ⟨rfl, hAsleep⟩ := h
    simpa [Call.sleepsOn] using hAsleep

namespace Storage

/-- The process has locked no buffer in its call. -/
def Idle (s : Storage P) (p : P) : Prop := ∀ c, ¬ (s.call p).uses c

/-- A step that takes no buffer and gives none back: what it does to the uses of the buffers, the
    calls of the processes and the list of the cache. -/
inductive Goes [DecidableEq P] (s t : Storage P) : Prop
  /-- The owner of a buffer goes on with it. -/
  | keep (p : P) (b : BufferId) (next : Use P) (call' : Call) (owner : (s.use b).owner = some p)
      (kept : next.owner = some p) (only : ∀ c, (s.call p).uses c → c = b)
      (fetching : next = .fetching p → call'.uses b)
      (sleeps : ∀ c, call'.sleepsOn c → c = b)
      (use : t.use = Function.update s.use b next)
      (call : t.call = Function.update s.call p call') (order : t.order = s.order)
  /-- The disk finishes something. -/
  | disk (use : t.use = s.use)
      (call : t.call = s.call ∨ ∃ b, t.call = fun q => (s.call q).wake b)
      (order : t.order = s.order)

/-- The same for any step, kills apart. -/
inductive Move [DecidableEq P] (s t : Storage P) : Prop
  /-- A process that looks for a buffer goes to sleep on it. -/
  | wait (p : P) (drive : Byte) (block : Word) (b : BufferId) (idle : s.Idle p)
      (locked : s.use b ≠ .free) (use : t.use = s.use)
      (call : t.call = Function.update s.call p (.locking drive block b true))
  /-- A process gets a buffer. -/
  | take (p : P) (block : Word) (b : BufferId) (idle : s.Idle p)
      (use : t.use = Function.update s.use b (.fetching p))
      (call : t.call = Function.update s.call p (.got block b))
  /-- The holder of a buffer gives it back. -/
  | release (p : P) (b : BufferId) (use : t.use = Function.update s.use b .free)
      (call : t.call = fun q => (s.call q).wake b)
  | goes (h : Goes s t)

/-- The event takes a buffer or gives one back, or is a kill. -/
def Event.locks : Event P → Bool
  | .read _ _ _ => true
  | .retry _ => true
  | .release _ _ => true
  | .kill _ => true
  | _ => false

variable {s t : Storage P} {Q : List BufferId} {p : P} {b : BufferId}

theorem submit_order (s : Storage P) (b : BufferId) : (s.submit b).order = s.order :=
  submit_proj Storage.order (fun _ _ _ _ _ _ => rfl) s b

theorem interrupt_goes [DecidableEq P] (s : Storage P) : Goes s s.interrupt := by
  unfold Storage.interrupt
  dsimp only
  split
  · exact .disk rfl (.inl rfl) rfl
  · split
    · exact .disk rfl (.inl rfl) rfl
    · next b _ =>
      -- the driver moves its queue and the device, never the list
      by_cases hMore : s.sectorOffset + 1 < sectorsPerBlock
      · rw [finishSector_eq_advanced (s := { s with pin := false }) hMore, startOperation_eq]
        exact .disk rfl (.inl rfl) rfl
      · rw [finishSector_eq_popped (s := { s with pin := false }) (Nat.le_of_not_lt hMore)]
        split
        · exact .disk rfl (.inr ⟨b, rfl⟩) rfl
        · rw [startOperation_eq]
          exact .disk rfl (.inr ⟨b, rfl⟩) rfl

section Steps

variable [DecidableEq P] {drive : Byte} {block : Word}

theorem Control.bufferGet_move (h : Control s Q) (hIdle : s.Idle p)
    (hGet : s.bufferGet p drive block = some t) : Move s t := by
  unfold Storage.bufferGet at hGet
  split at hGet
  · next b hFound =>
    split at hGet
    · next hBusy =>
      obtain rfl := Option.some.inj hGet
      exact .wait p drive block b hIdle ((h.busy b).mp hBusy) rfl rfl
    · obtain rfl := Option.some.inj hGet
      exact .take p block b hIdle rfl rfl
  · obtain ⟨b, -, rfl⟩ := Option.map_eq_some_iff.mp hGet
    exact .take p block b hIdle rfl rfl

/-- **Inversion**: what an event does that takes no buffer and gives none back. -/
theorem Control.goes {e : Event P} (h : Control s Q) (hPerform : s.perform e = some t)
    (hLocks : e.locks = false) : Goes s t := by
  -- each event changes the call of its process and the use of the one buffer the process has
  cases e with
  | read p drive block => cases hLocks
  | retry p => cases hLocks
  | readFrame p submitted =>
    simp only [perform] at hPerform
    split at hPerform
    · next block b hCall =>
      obtain rfl := Option.some.inj hPerform
      have hOwn := h.calls p
      rw [hCall] at hOwn
      have hOwner : (s.use b).owner = some p := by rw [hOwn.1]; rfl
      have hOnly : ∀ c, (s.call p).uses c → c = b := by
        intro c hUses
        rw [hCall] at hUses
        exact Eq.symm hUses
      unfold Storage.readFrame
      split
      · exact .keep p b (.held p false) .none hOwner rfl hOnly (by simp) (fun _ => False.elim)
          rfl rfl rfl
      · refine .keep p b (.fetching p) (.reading block b true) hOwner rfl hOnly (fun _ => rfl)
          (fun c hSleeps => hSleeps.1.symm) ?_ ?_ ?_
        · rw [← hOwn.1, Function.update_eq_self]
          exact submit_use _ b
        · simp only [setCall, submit_call]
          rfl
        · exact submit_order _ b
    · cases hPerform
  | readDone p =>
    simp only [perform] at hPerform
    split at hPerform
    · next block b hCall =>
      obtain rfl := Option.some.inj hPerform
      have hOwn := h.calls p
      rw [hCall] at hOwn
      refine .keep p b (.held p false) .none (by rw [hOwn.1]; rfl) rfl ?_ (by simp)
        (fun _ => False.elim) rfl rfl rfl
      intro c hUses
      rw [hCall] at hUses
      exact Eq.symm hUses
    · cases hPerform
  | modify p b frame =>
    obtain ⟨hHand, hSome⟩ := Option.ite_none_right_eq_some.mp hPerform
    obtain rfl := Option.some.inj hSome
    obtain ⟨hCall, changed, hUse⟩ := atHand_iff.mp hHand
    refine .keep p b (.held p true) .none (by rw [hUse]; rfl) rfl ?_ (by simp)
      (fun _ => False.elim) rfl ?_ rfl
    · rw [hCall]
      exact fun _ => False.elim
    · rw [← hCall, Function.update_eq_self]
      rfl
  | write p b block frame =>
    obtain ⟨⟨hHand, -⟩, hSome⟩ := Option.ite_none_right_eq_some.mp hPerform
    obtain rfl := Option.some.inj hSome
    obtain ⟨hCall, changed, hUse⟩ := atHand_iff.mp hHand
    refine .keep p b (.held p false) (.writing b true) (by rw [hUse]; rfl) rfl ?_ (by simp)
      (fun c hSleeps => hSleeps.1.symm) ?_ ?_ ?_
    · rw [hCall]
      exact fun _ => False.elim
    · simp only [Storage.bufferWrite, setCall, submit_use]
      rfl
    · simp only [Storage.bufferWrite, setCall, submit_call]
      rfl
    · exact submit_order _ b
  | writeDone p =>
    simp only [perform] at hPerform
    split at hPerform
    · next b hCall =>
      obtain rfl := Option.some.inj hPerform
      have hOwn := h.calls p
      rw [hCall] at hOwn
      obtain ⟨⟨changed, hUse⟩, -⟩ := hOwn
      refine .keep p b (.held p changed) .none (by rw [hUse]; rfl) rfl ?_ (by simp)
        (fun _ => False.elim) ?_ rfl rfl
      · intro c hUses
        rw [hCall] at hUses
        exact Eq.symm hUses
      · rw [← hUse, Function.update_eq_self]
        rfl
    · cases hPerform
  | release p b => cases hLocks
  | transfer =>
    obtain ⟨-, hSome⟩ := Option.ite_none_right_eq_some.mp hPerform
    obtain rfl := Option.some.inj hSome
    unfold Storage.transfer
    split <;> exact .disk rfl (.inl rfl) rfl
  | interrupt served =>
    obtain ⟨-, hSome⟩ := Option.ite_none_right_eq_some.mp hPerform
    obtain rfl := Option.some.inj hSome
    exact interrupt_goes s
  | kill p => cases hLocks

/-- **Inversion**: what any event can do, kills apart. -/
theorem Control.move {e : Event P} (h : Control s Q) (hPerform : s.perform e = some t)
    (hKill : ∀ p, e ≠ .kill p) : Move s t := by
  -- an event that takes or gives back no lock leaves list, locks and counts alone
  cases hLocks : e.locks with
  | false => exact .goes (h.goes hPerform hLocks)
  | true =>
    cases e with
    | read p drive block =>
      obtain ⟨hCall, hGet⟩ := Option.ite_none_right_eq_some.mp hPerform
      exact h.bufferGet_move (fun c => by rw [hCall]; exact id) hGet
    | retry p =>
      simp only [perform] at hPerform
      split at hPerform
      · next hCall => exact h.bufferGet_move (fun c => by rw [hCall]; exact id) hPerform
      · cases hPerform
    | release p b =>
      obtain ⟨-, hSome⟩ := Option.ite_none_right_eq_some.mp hPerform
      obtain rfl := Option.some.inj hSome
      rw [bufferRelease_eq]
      exact .release p b rfl rfl
    | kill p => exact absurd rfl (hKill p)
    | _ => cases hLocks

omit [DecidableEq P] in
theorem owner_update {use : Use P} (hOwner : use.owner = (s.use b).owner) (c : BufferId) :
    (Function.update s.use b use c).owner = (s.use c).owner := by
  by_cases hc : c = b
  · rw [hc, Function.update_self, hOwner]
  · rw [Function.update_of_ne hc]

theorem Goes.owner (h : Goes s t) (c : BufferId) : (t.use c).owner = (s.use c).owner := by
  cases h with
  | keep p b next call' owner kept only fetching sleeps use call order =>
    rw [use]
    exact owner_update (kept.trans owner.symm) c
  | disk use call order => rw [use]

theorem Goes.order (h : Goes s t) : t.order = s.order := by
  cases h with
  | keep p b next call' owner kept only fetching sleeps use call order => exact order
  | disk use call order => exact order

end Steps

/-- A buffer that is being fetched is the one of a call, and nobody waits for the lock of a buffer
    that is not locked. -/
structure Attended (s : Storage P) : Prop where
  fetching : ∀ b p, s.use b = .fetching p → (s.call p).uses b
  sleepers : ∀ p b, (s.call p).sleepsOn b → s.use b ≠ .free

theorem boot_attended (image : Nat → Byte) (frames : BufferId → Nat → Byte) (pin : Bool) :
    Attended (boot image frames pin : Storage P) :=
  ⟨fun _ _ h => absurd h (by simp [boot]), fun _ _ h => absurd h id⟩

theorem Attended.goes [DecidableEq P] (h : Attended s) (hGoes : Goes s t) : Attended t := by
  cases hGoes with
  | keep p b next call' owner kept only fetching sleeps use call order =>
    have hNext : next ≠ .free := by
      rintro rfl
      cases kept
    constructor
    · intro c q hFetching
      rw [use] at hFetching
      rw [call]
      -- the buffer of the event, or another one, whose process is another one too
      by_cases hc : c = b
      · rw [hc, Function.update_self] at hFetching
        obtain rfl : p = q := by
          rw [hFetching] at kept
          exact (Option.some.inj kept).symm
        rw [hc, Function.update_self]
        exact fetching hFetching
      · rw [Function.update_of_ne hc] at hFetching
        have hUses := h.fetching c q hFetching
        have hq : q ≠ p := by
          rintro rfl
          exact hc (only c hUses)
        rwa [Function.update_of_ne hq]
    · intro q c hSleeps
      rw [use]
      rw [call] at hSleeps
      by_cases hc : c = b
      · rwa [hc, Function.update_self]
      · rw [Function.update_of_ne hc]
        by_cases hq : q = p
        · rw [hq, Function.update_self] at hSleeps
          exact absurd (sleeps c hSleeps) hc
        · rw [Function.update_of_ne hq] at hSleeps
          exact h.sleepers q c hSleeps
  | disk use call order =>
    -- the disk interrupt may wake the sleepers on one buffer up
    rcases call with call | ⟨b, call⟩
    · exact ⟨by rw [use, call]; exact h.fetching, by rw [use, call]; exact h.sleepers⟩
    · constructor
      · intro c q hFetching
        rw [use] at hFetching
        rw [call]
        exact Call.uses_wake.mpr (h.fetching c q hFetching)
      · intro q c hSleeps
        rw [call] at hSleeps
        rw [use]
        exact h.sleepers q c (Call.sleepsOn_of_wake hSleeps).1

theorem Attended.move [DecidableEq P] (h : Attended s) (hMove : Move s t) : Attended t := by
  cases hMove with
  -- the process falls asleep on a locked buffer, which is the first half of `sleepers`
  | wait p drive block b idle locked use call =>
    constructor
    · intro c q hFetching
      rw [use] at hFetching
      have hUses := h.fetching c q hFetching
      have hq : q ≠ p := by
        rintro rfl
        exact idle c hUses
      rwa [call, Function.update_of_ne hq]
    · intro q c hSleeps
      rw [use]
      rw [call] at hSleeps
      by_cases hq : q = p
      · rw [hq, Function.update_self] at hSleeps
        obtain ⟨rfl, -⟩ := hSleeps
        exact locked
      · rw [Function.update_of_ne hq] at hSleeps
        exact h.sleepers q c hSleeps
  -- the buffer is locked from now on
  | take p block b idle use call =>
    constructor
    · intro c q hFetching
      rw [use] at hFetching
      rw [call]
      by_cases hc : c = b
      · rw [hc, Function.update_self] at hFetching
        obtain rfl := Use.fetching.inj hFetching
        rw [Function.update_self]
        exact hc.symm
      · rw [Function.update_of_ne hc] at hFetching
        have hUses := h.fetching c q hFetching
        have hq : q ≠ p := by
          rintro rfl
          exact idle c hUses
        rwa [Function.update_of_ne hq]
    · intro q c hSleeps
      rw [use]
      rw [call] at hSleeps
      by_cases hq : q = p
      · rw [hq, Function.update_self] at hSleeps
        exact absurd hSleeps id
      · rw [Function.update_of_ne hq] at hSleeps
        by_cases hc : c = b
        · rw [hc, Function.update_self]
          simp
        · rw [Function.update_of_ne hc]
          exact h.sleepers q c hSleeps
  -- the buffer is free, but nobody sleeps on it any more
  | release p b use call =>
    constructor
    · intro c q hFetching
      rw [use] at hFetching
      rw [call]
      have hc : c ≠ b := by
        rintro rfl
        simp at hFetching
      rw [Function.update_of_ne hc] at hFetching
      exact Call.uses_wake.mpr (h.fetching c q hFetching)
    · intro q c hSleeps
      rw [call] at hSleeps
      obtain ⟨hBefore, hc⟩ := Call.sleepsOn_of_wake hSleeps
      rw [use, Function.update_of_ne hc]
      exact h.sleepers q c hBefore
  | goes hGoes => exact h.goes hGoes

end Storage

/-! ## §2 The cache with its links -/

/-- The state of the block layer together with the links of the buffers. The list `order` of the
    block layer is carried along, but nothing below looks at it. -/
structure LinkedCache (P : Type) where
  storage : Storage P
  links : Links BufferId
  /-- The processes that have got a buffer from `buffer_get` and have not released it. -/
  holders : BufferId → List P

namespace LinkedCache

open Storage (Event)

/-- More turns than a loop over the list takes. -/
def turns : Nat := 17

section Operations

variable [DecidableEq P]

/-- A process gets a buffer. -/
def hold (s : LinkedCache P) (p : P) (b : BufferId) (storage : Storage P) : LinkedCache P :=
  { s with storage := storage, holders := Function.update s.holders b (p :: s.holders b) }

/-- `buffer_get`, up to its return or to `sleep(b)`; `none` is `panic("full cache")`, or a loop
    that does not end. -/
def bufferGet (s : LinkedCache P) (p : P) (drive : Byte) (block : Word) :
    Option (LinkedCache P) :=
  match Links.search s.links.next (s.storage.isFor drive block) turns (s.links.next none) with
  | some (some b) =>
    -- the buffer is found: sleep on it if it is locked, and lock it if not
    if (s.storage.buffer b).busy then
      some { s with storage := s.storage.setCall p (.locking drive block b true) }
    else some (s.hold p b (s.storage.lock p block b))
  | some none =>
    -- a miss: the search for a victim runs from the tail
    match Links.search s.links.prev s.storage.unused turns (s.links.prev none) with
    | some (some b) => some (s.hold p b (s.storage.recycle p drive block b))
    | _ => none
  | none => none

/-- `buffer_release`. -/
def bufferRelease (s : LinkedCache P) (p : P) (b : BufferId) : LinkedCache P where
  storage := s.storage.bufferRelease b
  links :=
    if (s.storage.buffer b).refcount - 1 = 0 then (s.links.unlink b).insertFront b else s.links
  holders := Function.update s.holders b ((s.holders b).erase p)

/-- The process holds the buffer and is not in a call. -/
def mayUse (s : LinkedCache P) (p : P) (b : BufferId) : Bool :=
  s.storage.call p == .none && (s.holders b).contains p

/-- One event; `none` if it cannot happen or the kernel panics. Nothing but `buffer_get` and
    `buffer_release` looks at the links. -/
def perform (s : LinkedCache P) : Event P → Option (LinkedCache P)
  | .read p drive block => if s.storage.call p = .none then s.bufferGet p drive block else none
  | .retry p =>
    match s.storage.call p with
    | .locking drive block _ false => s.bufferGet p drive block
    | _ => none
  | .modify p b frame =>
    if s.mayUse p b then
      some { s with storage := { s.storage.setBuffer b fun e => { e with frame := frame } with
        use := Function.update s.storage.use b (.held p true) } }
    else none
  | .write p b _ _ =>
    if s.mayUse p b ∧ (s.storage.buffer b).busy then
      some { s with storage := s.storage.bufferWrite p b }
    else none
  | .release p b =>
    if s.mayUse p b ∧ (s.storage.buffer b).busy then some (s.bufferRelease p b) else none
  | e => (s.storage.perform e).map fun storage => { s with storage := storage }

/-- The step relation of the events, kills apart. -/
def Step (s : LinkedCache P) (e : Event P) (t : LinkedCache P) : Prop :=
  (s.storage.Labels e ∧ s.perform e = some t) ∧ ∀ p, e ≠ .kill p

/-- `buffer_init` on links with any contents. -/
def bufferInit (links : Links BufferId) : Links BufferId :=
  (List.finRange 16).foldl Links.insertFront
    ⟨Function.update links.next none none, Function.update links.prev none none⟩

/-- The machine behind `buffer_init` and `disk_init`. -/
def boot (image : Nat → Byte) (frames : BufferId → Nat → Byte) (pin : Bool)
    (links : Links BufferId) : LinkedCache P where
  storage := Storage.boot image frames pin
  links := bufferInit links
  holders := fun _ => []

end Operations

/-! ## §3 The links stand for the list -/

/-- The invariant, with the disk queue `Q`. -/
structure Linked (s : LinkedCache P) (Q : List BufferId) : Prop where
  control : Storage.Control s.storage Q
  attended : Storage.Attended s.storage
  ring : s.links.Ring s.storage.order
  holders : ∀ b, s.holders b = (s.storage.use b).owner.toList

variable {s t : LinkedCache P} {Q : List BufferId} {p : P} {b : BufferId} {e : Event P}

theorem order_length (hNodup : s.storage.order.Nodup) : s.storage.order.length < turns := by
  have hLength : s.storage.order.length ≤ Fintype.card BufferId := hNodup.length_le_card
  rw [Fintype.card_fin] at hLength
  exact Nat.lt_succ_of_le hLength

/-- The uses say what the holders are. -/
theorem Linked.mem_holders (h : Linked s Q) :
    p ∈ s.holders b ↔ (s.storage.use b).owner = some p := by
  rw [h.holders b, Option.mem_toList]

section Simulation

variable [DecidableEq P] {drive : Byte} {block : Word}

/-- The two loops of `buffer_get` find what the list has. -/
theorem bufferGet_eq (hRing : s.links.Ring s.storage.order) (hNodup : s.storage.order.Nodup) :
    s.bufferGet p drive block =
      match s.storage.lookup drive block with
      | some b =>
        if (s.storage.buffer b).busy then
          some { s with storage := s.storage.setCall p (.locking drive block b true) }
        else some (s.hold p b (s.storage.lock p block b))
      | none => s.storage.victim.map fun b => s.hold p b (s.storage.recycle p drive block b) := by
  unfold bufferGet
  rw [hRing.search_next (order_length hNodup), hRing.search_prev (order_length hNodup)]
  unfold Storage.lookup Storage.victim
  cases s.storage.order.find? (s.storage.isFor drive block) with
  | some b => rfl
  | none =>
    cases s.storage.order.reverse.find? s.storage.unused with
    | some b => rfl
    | none => rfl

/-- `buffer_get` on the links is `buffer_get` on the list, and counts a holder for the buffer. -/
theorem Linked.bufferGet (h : Linked s Q) (hGet : s.bufferGet p drive block = some t) :
    s.storage.bufferGet p drive block = some t.storage ∧ t.links = s.links ∧
      t.storage.order = s.storage.order ∧
      ∀ b, t.holders b = (t.storage.use b).owner.toList := by
  rw [bufferGet_eq h.ring h.control.order] at hGet
  unfold Storage.bufferGet
  -- a process takes a buffer that nobody holds
  have hHold : ∀ b (storage : Storage P), s.storage.use b = .free →
      storage.use = Function.update s.storage.use b (.fetching p) → ∀ c,
      (s.hold p b storage).holders c = ((s.hold p b storage).storage.use c).owner.toList := by
    intro b storage hFree hUse c
    simp only [hold, hUse]
    by_cases hc : c = b
    · rw [hc, Function.update_self, Function.update_self, h.holders b, hFree]
      rfl
    · rw [Function.update_of_ne hc, Function.update_of_ne hc]
      exact h.holders c
  have hFree : ∀ b, (s.storage.buffer b).busy = false → s.storage.use b = .free := by
    intro b hBusy
    by_contra hUse
    rw [(h.control.busy b).mpr hUse] at hBusy
    cases hBusy
  cases hFound : s.storage.lookup drive block with
  | some b =>
    rw [hFound] at hGet
    dsimp only at hGet ⊢
    by_cases hBusy : (s.storage.buffer b).busy
    · rw [if_pos hBusy] at hGet
      obtain rfl := Option.some.inj hGet
      exact ⟨if_pos hBusy, rfl, rfl, h.holders⟩
    · rw [if_neg hBusy] at hGet
      obtain rfl := Option.some.inj hGet
      exact ⟨if_neg hBusy, rfl, rfl, hHold b _ (hFree b (by simpa using hBusy)) rfl⟩
  | none =>
    rw [hFound] at hGet
    dsimp only at hGet ⊢
    obtain ⟨b, hVictim, rfl⟩ := Option.map_eq_some_iff.mp hGet
    have hUnused : s.storage.unused b = true := List.find?_some hVictim
    rw [hVictim]
    refine ⟨rfl, rfl, rfl, hHold b _ (hFree b ?_) rfl⟩
    simp only [Storage.unused, Bool.and_eq_true, Bool.not_eq_true'] at hUnused
    exact hUnused.2

/-- A process that holds a buffer outside of a call has been given it by `buffer_read`. -/
theorem Linked.atHand (h : Linked s Q) (hUse : s.mayUse p b = true) :
    s.storage.atHand p b = true := by
  obtain ⟨hCall, hHolds⟩ : s.storage.call p = .none ∧ p ∈ s.holders b := by
    simpa [mayUse] using hUse
  rw [h.mem_holders] at hHolds
  refine Storage.atHand_iff.mpr ⟨hCall, ?_⟩
  -- a buffer that is being fetched has its process inside a call
  cases hOwner : s.storage.use b with
  | free =>
    rw [hOwner] at hHolds
    cases hHolds
  | fetching q =>
    rw [hOwner] at hHolds
    obtain rfl := Option.some.inj hHolds
    have hUses := h.attended.fetching b q hOwner
    rw [hCall] at hUses
    exact absurd hUses id
  | held q changed =>
    rw [hOwner] at hHolds
    obtain rfl := Option.some.inj hHolds
    exact ⟨changed, rfl⟩

/-- An event that neither takes a buffer nor gives one back. -/
theorem Linked.other {storage : Storage P} (h : Linked s Q)
    (hPerform : s.storage.perform e = some storage) (hLocks : e.locks = false) :
    s.links.Ring storage.order ∧ ∀ b, s.holders b = (storage.use b).owner.toList := by
  have hGoes := h.control.goes hPerform hLocks
  rw [hGoes.order]
  exact ⟨h.ring, fun b => by rw [hGoes.owner, h.holders]⟩

/-- `buffer_release` moves the buffer to the front of the ring. -/
theorem Linked.bufferRelease (h : Linked s Q) (hBusy : (s.storage.buffer b).busy = true)
    (hOwner : (s.storage.use b).owner = some p) :
    (s.bufferRelease p b).links.Ring (s.storage.bufferRelease b).order ∧
      ∀ c, (s.bufferRelease p b).holders c =
        ((s.storage.bufferRelease b).use c).owner.toList := by
  -- a locked buffer has one reference, so that the count goes to 0
  have hOne : (s.storage.buffer b).refcount = 1 := by simp [h.control.refcount b, hBusy]
  have hCount : (s.storage.buffer b).refcount - 1 = 0 := by
    rw [hOne]
    rfl
  have hOrder : (s.storage.bufferRelease b).order = b :: s.storage.order.erase b := by
    simp [Storage.bufferRelease, Storage.wakeup, Storage.setBuffer, hOne]
  constructor
  · rw [hOrder]
    unfold LinkedCache.bufferRelease
    dsimp only
    rw [if_pos hCount]
    exact h.ring.moveFront h.control.order (h.control.listed b)
  · intro c
    rw [Storage.bufferRelease_eq]
    by_cases hc : c = b
    · subst hc
      simp only [LinkedCache.bufferRelease, Function.update_self]
      rw [h.holders, hOwner]
      simp [Use.owner]
    · simp [LinkedCache.bufferRelease, hc, h.holders]

/-- **Simulation**: a step on the links is a step on the list, and the links and the holders stay
    right. -/
theorem Linked.simulates (h : Linked s Q) (hStep : s.Step e t) :
    s.storage.perform e = some t.storage ∧ t.links.Ring t.storage.order ∧
      ∀ b, t.holders b = (t.storage.use b).owner.toList := by
  obtain ⟨⟨-, hPerform⟩, hKill⟩ := hStep
  -- the two events that look for a buffer
  have hGet : ∀ {p drive block}, s.bufferGet p drive block = some t →
      s.storage.bufferGet p drive block = some t.storage ∧ t.links.Ring t.storage.order ∧
        ∀ b, t.holders b = (t.storage.use b).owner.toList := by
    intro p drive block hGet
    obtain ⟨hStorage, hLinks, hOrder, hHolders⟩ := h.bufferGet hGet
    refine ⟨hStorage, ?_, hHolders⟩
    rw [hLinks, hOrder]
    exact h.ring
  -- the events that leave the links alone
  have hOther : ∀ {storage}, s.storage.perform e = some storage → e.locks = false →
      t = { s with storage := storage } →
      s.storage.perform e = some t.storage ∧ t.links.Ring t.storage.order ∧
        ∀ b, t.holders b = (t.storage.use b).owner.toList := by
    rintro storage hStorage hLocks rfl
    exact ⟨hStorage, h.other hStorage hLocks⟩
  cases e with
  | read p drive block =>
    obtain ⟨hCall, hSome⟩ := Option.ite_none_right_eq_some.mp hPerform
    obtain ⟨hStorage, hRest⟩ := hGet hSome
    exact ⟨(if_pos hCall).trans hStorage, hRest⟩
  | retry p =>
    simp only [perform] at hPerform
    split at hPerform
    · next hCall =>
      obtain ⟨hStorage, hRest⟩ := hGet hPerform
      refine ⟨?_, hRest⟩
      simp only [Storage.perform, hCall]
      exact hStorage
    · cases hPerform
  | modify p b frame =>
    obtain ⟨hUse, hSome⟩ := Option.ite_none_right_eq_some.mp hPerform
    exact hOther (if_pos (h.atHand hUse)) rfl (Option.some.inj hSome).symm
  | write p b block frame =>
    obtain ⟨⟨hUse, hBusy⟩, hSome⟩ := Option.ite_none_right_eq_some.mp hPerform
    exact hOther (if_pos ⟨h.atHand hUse, hBusy⟩) rfl (Option.some.inj hSome).symm
  | release p b =>
    obtain ⟨⟨hUse, hBusy⟩, hSome⟩ := Option.ite_none_right_eq_some.mp hPerform
    obtain rfl := Option.some.inj hSome
    have hHand := h.atHand hUse
    obtain ⟨-, changed, hHeld⟩ := Storage.atHand_iff.mp hHand
    exact ⟨if_pos ⟨hHand, hBusy⟩, h.bufferRelease hBusy (by rw [hHeld]; rfl)⟩
  | kill p => exact absurd rfl (hKill p)
  | _ =>
    obtain ⟨storage, hStorage, hEq⟩ := Option.map_eq_some_iff.mp hPerform
    exact hOther hStorage rfl hEq.symm

/-- **Step lemma**: every event keeps the invariant. -/
theorem Linked.step (h : Linked s Q) (hStep : s.Step e t) :
    Linked t (s.storage.nextQueue Q e) := by
  obtain ⟨hPerform, hRing, hHolders⟩ := h.simulates hStep
  obtain ⟨⟨hLabels, -⟩, hKill⟩ := hStep
  have hSpares : s.storage.SparesRequests e := by
    cases e with
    | kill p => exact absurd rfl (hKill p)
    | _ => trivial
  exact ⟨h.control.step ⟨hLabels, hPerform⟩ hSpares,
    h.attended.move (h.control.move hPerform hKill), hRing, hHolders⟩

end Simulation

/-! ## §4 The representation invariant -/

/-- The representation invariant: the head and the buffers form one ring, and locks, keys and
    sleepers are in order. -/
structure Represented (s : LinkedCache P) : Prop where
  /-- The head and all the buffers, each of them once, form one circular list. -/
  ring : ∃ buffers : List BufferId, buffers.Nodup ∧ (∀ b, b ∈ buffers) ∧ s.links.Ring buffers
  inverse : ∀ x, s.links.prev (s.links.next x) = x ∧ s.links.next (s.links.prev x) = x
  /-- No two locked or valid buffers have the same key. -/
  unique : ∀ b c,
    (s.storage.buffer b).busy = true ∨ (s.storage.buffer b).valid = true →
    (s.storage.buffer c).busy = true ∨ (s.storage.buffer c).valid = true →
    (s.storage.buffer b).drive = (s.storage.buffer c).drive →
    (s.storage.buffer b).blockNumber = (s.storage.buffer c).blockNumber → b = c
  refcount : ∀ b, (s.storage.buffer b).refcount = if (s.storage.buffer b).busy then 1 else 0
  holders : ∀ b, (s.holders b).length ≤ 1
  sleepers : ∀ p b, (s.storage.call p).sleepsOn b → (s.storage.buffer b).busy = true

theorem Linked.represented (h : Linked s Q) : s.Represented where
  ring := ⟨s.storage.order, h.control.order, h.control.listed, h.ring⟩
  inverse x := ⟨h.ring.prev_next h.control.listed x, h.ring.next_prev h.control.listed x⟩
  unique _ _ hb hc hDrive hBlock := h.control.unique hb hc hDrive hBlock
  refcount := h.control.refcount
  holders b := by
    rw [h.holders b]
    cases (s.storage.use b).owner with
    | none => exact Nat.zero_le 1
    | some p => exact Nat.le_refl 1
  sleepers p b hSleeps := (h.control.busy b).mpr (h.attended.sleepers p b hSleeps)

theorem bufferInit_ring (links : Links BufferId) :
    (bufferInit links).Ring (List.finRange 16).reverse := by
  have hEmpty : Links.Ring (α := BufferId)
      ⟨Function.update links.next none none, Function.update links.prev none none⟩ [] :=
    List.isChain_pair.mpr (by simp [Links.Adjacent])
  have hAll := hEmpty.insertAll (List.nodup_finRange 16) fun _ _ => List.not_mem_nil
  rwa [List.append_nil] at hAll

theorem boot_linked (image : Nat → Byte) (frames : BufferId → Nat → Byte) (pin : Bool)
    (links : Links BufferId) : Linked (boot image frames pin links : LinkedCache P) [] where
  control := Storage.boot_control image frames pin
  attended := Storage.boot_attended image frames pin
  ring := bufferInit_ring links
  holders _ := rfl

section Runs

variable [DecidableEq P]

/-- **Main theorem**: from `buffer_init` on, whatever the processes do with the cache and whenever
    the disk interrupts, the representation invariant holds, as long as no process is killed. By
    the inversion lemma an event is one of a few moves, and each of them keeps the ring, the keys
    and the counts. -/
theorem cache_represented {image : Nat → Byte} {frames : BufferId → Nat → Byte} {pin : Bool}
    {links : Links BufferId} {es : List (Event P)}
    (hRun : Run Step (boot image frames pin links : LinkedCache P) es s) : s.Represented := by
  have hLinked := @Run.invariant _ _ _ _ _ _ (fun s => ∃ Q, Linked (P := P) s Q)
    (fun s e t ⟨Q, h⟩ hStep => ⟨s.storage.nextQueue Q e, h.step hStep⟩) hRun
    ⟨[], boot_linked image frames pin links⟩
  obtain ⟨Q, h⟩ := hLinked
  exact h.represented

/-- Two processes ask for one block: the second one goes to sleep on the buffer that has been
    recycled for the first one. -/
theorem second_reader_sleeps :
    ∃ s : LinkedCache Bool,
      Run Step (boot (fun _ => 0) (fun _ _ => 0) false ⟨id, id⟩)
        [.read false 0 5, .read true 0 5] s ∧
      s.storage.call true = .locking 0 5 0 true ∧ s.Represented := by
  have hRuns : ((boot (fun _ => 0) (fun _ _ => 0) false ⟨id, id⟩ : LinkedCache Bool).perform
      (.read false 0 5)).any (fun s => (s.perform (.read true 0 5)).any fun t =>
        t.storage.call true == .locking 0 5 0 true) = true := by
    decide +kernel
  obtain ⟨s, hFirst, hSecond⟩ := (Option.any_eq_true _ _).mp hRuns
  obtain ⟨t, hLast, hSleeps⟩ := (Option.any_eq_true _ _).mp hSecond
  have hRun : Run Step (boot (fun _ => 0) (fun _ _ => 0) false ⟨id, id⟩ : LinkedCache Bool)
      [.read false 0 5, .read true 0 5] t :=
    .cons ⟨⟨trivial, hFirst⟩, by simp⟩ (.cons ⟨⟨trivial, hLast⟩, by simp⟩ (.nil t))
  exact ⟨t, hRun, by simpa using hSleeps, cache_represented hRun⟩

end Runs

end LinkedCache

end Xv6502.Block
