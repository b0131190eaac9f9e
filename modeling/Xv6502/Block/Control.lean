import Xv6502.Block.Cache

/-!
# Locks, Calls and the Disk Queue

The invariant that ties the locks of the buffers, the calls of the processes and the links of
the disk queue together. It says nothing about the bytes of a block, and it is kept by every
step but one: `sys_kill` of a process that sleeps in `disk_submit`.
-/

namespace Xv6502.Block

open Xv6502.Emulator
open Xv6502.Lib

variable {P : Type}

/-! ## §1 The invariant -/

/-- The process that uses a buffer. -/
def Use.owner : Use P → Option P
  | .free => none
  | .fetching p => some p
  | .held p _ => some p

/-- The process has locked the buffer in its call. -/
def Call.uses (b : BufferId) : Call → Prop
  | .got _ c => c = b
  | .reading _ c _ => c = b
  | .writing c _ => c = b
  | _ => False

/-- The process sleeps in `disk_submit` until the buffer is transferred. -/
def Call.waitsFor (b : BufferId) : Call → Prop
  | .reading _ c asleep => c = b ∧ asleep = true
  | .writing c asleep => c = b ∧ asleep = true
  | _ => False

theorem Call.uses_of_waitsFor {call : Call} {b : BufferId} (h : call.waitsFor b) :
    call.uses b := by
  cases call with
  | reading block c asleep => exact h.1
  | writing c asleep => exact h.1
  | _ => exact absurd h id

/-- `wakeup(b)` does not end a wait for another buffer. -/
theorem Call.waitsFor_wake {call : Call} {b c : BufferId} (hc : c ≠ b) :
    (call.wake b).waitsFor c ↔ call.waitsFor c := by
  cases call with
  | reading block d asleep =>
    simp only [Call.wake, Call.waitsFor, Bool.and_eq_true, bne_iff_ne]
    constructor
    · exact fun h => ⟨h.1, h.2.1⟩
    · exact fun h => ⟨h.1, h.2, by rw [h.1]; exact hc⟩
  | writing d asleep =>
    simp only [Call.wake, Call.waitsFor, Bool.and_eq_true, bne_iff_ne]
    constructor
    · exact fun h => ⟨h.1, h.2.1⟩
    · exact fun h => ⟨h.1, h.2, by rw [h.1]; exact hc⟩
  | _ => exact Iff.rfl

namespace Storage

/-- What the call of a process says about the buffer it has locked. A process sleeps in
    `disk_submit` as long as its buffer is in the disk queue. -/
def CallOk (s : Storage P) (Q : List BufferId) (p : P) : Call → Prop
  | .got block b => s.use b = .fetching p ∧ b ∉ Q ∧ (s.buffer b).blockNumber = block
  | .reading block b asleep =>
    s.use b = .fetching p ∧ (asleep = true ↔ b ∈ Q) ∧ (s.buffer b).blockNumber = block
  | .writing b asleep => (∃ changed, s.use b = .held p changed) ∧ (asleep = true ↔ b ∈ Q)
  | _ => True

/-- The invariant, with the disk queue `Q`. -/
structure Control (s : Storage P) (Q : List BufferId) : Prop where
  chain : Chain (fun b => (s.buffer b).queue) s.head Q
  tail : ∀ b, Q.getLast? = some b → s.tail = some b
  nodup : Q.Nodup
  order : s.order.Nodup
  listed : ∀ b, b ∈ s.order
  busy : ∀ b, (s.buffer b).busy = true ↔ s.use b ≠ .free
  refcount : ∀ b, (s.buffer b).refcount = if (s.buffer b).busy then 1 else 0
  -- a buffer that is locked or valid is the one that `buffer_get` finds for its block
  first : ∀ b, (s.buffer b).busy = true ∨ (s.buffer b).valid = true →
    s.lookup (s.buffer b).drive (s.buffer b).blockNumber = some b
  calls : ∀ p, s.CallOk Q p (s.call p)
  queued : ∀ b ∈ Q, ∃ p, (s.call p).waitsFor b

variable {s t : Storage P} {Q Q' : List BufferId} {p q : P} {b c : BufferId} {call : Call}

theorem CallOk.owner (h : s.CallOk Q p call) (hUses : call.uses b) :
    (s.use b).owner = some p := by
  cases call with
  | none => exact absurd hUses id
  | locking => exact absurd hUses id
  | got block c =>
    obtain rfl : c = b := hUses
    rw [h.1]
    rfl
  | reading block c asleep =>
    obtain rfl : c = b := hUses
    rw [h.1]
    rfl
  | writing c asleep =>
    obtain rfl : c = b := hUses
    obtain ⟨⟨changed, hUse⟩, -⟩ := h
    rw [hUse]
    rfl

/-- The invariant does not look at the device, the sector counter and the interrupt line. -/
theorem Control.congr (h : Control s Q) (hBuffer : t.buffer = s.buffer) (hOrder : t.order = s.order)
    (hHead : t.head = s.head) (hTail : t.tail = s.tail) (hCall : t.call = s.call)
    (hUse : t.use = s.use) : Control t Q := by
  obtain ⟨buffer, order, head, tail, _, _, _, call, use⟩ := t
  cases hBuffer
  cases hOrder
  cases hHead
  cases hTail
  cases hCall
  cases hUse
  exact ⟨h.chain, h.tail, h.nodup, h.order, h.listed, h.busy, h.refcount, h.first, h.calls, h.queued⟩

/-- A queued buffer is locked. -/
theorem Control.owner_of_queued (h : Control s Q) (hb : b ∈ Q) :
    ∃ p, (s.use b).owner = some p ∧ (s.call p).waitsFor b := by
  obtain ⟨p, hWaits⟩ := h.queued b hb
  exact ⟨p, (h.calls p).owner (Call.uses_of_waitsFor hWaits), hWaits⟩

theorem Control.busy_of_owner (h : Control s Q) (hOwner : (s.use b).owner = some p) :
    (s.buffer b).busy = true := by
  rw [h.busy]
  intro hFree
  rw [hFree] at hOwner
  cases hOwner

/-- Two locked or valid buffers of one block are the same. -/
theorem Control.unique (h : Control s Q) (hb : (s.buffer b).busy = true ∨ (s.buffer b).valid = true)
    (hc : (s.buffer c).busy = true ∨ (s.buffer c).valid = true)
    (hDrive : (s.buffer b).drive = (s.buffer c).drive)
    (hBlock : (s.buffer b).blockNumber = (s.buffer c).blockNumber) : b = c := by
  have hFirst := h.first b hb
  rw [hDrive, hBlock, h.first c hc] at hFirst
  exact (Option.some.inj hFirst).symm

/-- A call stays right if nothing changes at the buffer it has locked. -/
theorem CallOk.congr (h : s.CallOk Q p call)
    (hUse : ∀ b, call.uses b → t.use b = s.use b ∧
      (t.buffer b).blockNumber = (s.buffer b).blockNumber ∧ (b ∈ Q' ↔ b ∈ Q)) :
    t.CallOk Q' p call := by
  cases call with
  | none => trivial
  | locking => trivial
  | got block b =>
    obtain ⟨hUse, hBlock, hQ⟩ := hUse b rfl
    obtain ⟨hOwn, hOut, hEq⟩ := h
    exact ⟨by rw [hUse, hOwn], by rwa [hQ], by rw [hBlock, hEq]⟩
  | reading block b asleep =>
    obtain ⟨hUse, hBlock, hQ⟩ := hUse b rfl
    obtain ⟨hOwn, hAsleep, hEq⟩ := h
    exact ⟨by rw [hUse, hOwn], by rw [hQ, hAsleep], by rw [hBlock, hEq]⟩
  | writing b asleep =>
    obtain ⟨hUse, -, hQ⟩ := hUse b rfl
    obtain ⟨⟨changed, hOwn⟩, hAsleep⟩ := h
    exact ⟨⟨changed, by rw [hUse, hOwn]⟩, by rw [hQ, hAsleep]⟩

/-- A call about another buffer stays right when a buffer is woken up for. -/
theorem CallOk.wake (h : s.CallOk Q p call) (hUses : ¬ call.uses b) :
    s.CallOk Q p (call.wake b) := by
  cases call with
  | none => trivial
  | locking => trivial
  | got block c => exact h
  | reading block c asleep =>
    have hc : (c != b) = true := by simpa [Call.uses] using hUses
    simpa [Call.wake, hc] using h
  | writing c asleep =>
    have hc : (c != b) = true := by simpa [Call.uses] using hUses
    simpa [Call.wake, hc] using h

/-- **Ownership rule**: a step at a buffer that nobody else uses leaves the calls of the other
    processes right. -/
theorem Control.others (h : Control s Q) (p : P) (b : BufferId)
    (hOwner : ∀ q, (s.use b).owner = some q → q = p)
    (hUse : ∀ c, c ≠ b → t.use c = s.use c ∧
      (t.buffer c).blockNumber = (s.buffer c).blockNumber ∧ (c ∈ Q' ↔ c ∈ Q))
    (hq : q ≠ p) : t.CallOk Q' q (s.call q) := by
  apply (h.calls q).congr
  intro c hUses
  apply hUse c
  rintro rfl
  exact hq (hOwner q ((h.calls q).owner hUses))

/-! ## §2 What the operations leave alone -/

/-- Starting an operation changes the device only. -/
theorem startOperation_eq (s : Storage P) :
    s.startOperation = { s with device := s.startOperation.device } := by
  unfold startOperation
  split
  · rfl
  · split <;> rfl

theorem startOperation_image (s : Storage P) :
    s.startOperation.device.image = s.device.image := by
  unfold startOperation
  split
  · rfl
  · split <;> rfl

theorem Control.startOperation (h : Control s Q) : Control s.startOperation Q := by
  rw [startOperation_eq]
  exact h.congr rfl rfl rfl rfl rfl rfl

/-- `disk_submit` changes buffers, the queue and the device only. -/
theorem submit_proj {α : Type} (f : Storage P → α)
    (hf : ∀ s buffer head tail sectorOffset device, f { s with
      buffer := buffer, head := head, tail := tail
      sectorOffset := sectorOffset, device := device } = f s) (s : Storage P) (b : BufferId) :
    f (s.submit b) = f s := by
  -- all that `disk_submit` does is a change of buffers, the queue, or a start of the disk
  have hStart : ∀ t : Storage P, f t = f s → f t.startOperation = f s := by
    intro t ht
    rw [startOperation_eq, hf t t.buffer t.head t.tail t.sectorOffset, ht]
  unfold submit
  dsimp only
  split
  · split
    · exact hStart _ (hf s _ _ _ _ _)
    · exact hf s _ _ _ _ _
  · split
    · exact hStart _ (hf s _ _ _ _ _)
    · exact hf s _ _ _ _ _
  · split
    · exact hStart _ (hf s _ _ _ _ _)
    · exact hf s _ _ _ _ _

theorem submit_use (s : Storage P) (b : BufferId) : (s.submit b).use = s.use :=
  submit_proj Storage.use (fun _ _ _ _ _ _ => rfl) s b

theorem submit_call (s : Storage P) (b : BufferId) : (s.submit b).call = s.call :=
  submit_proj Storage.call (fun _ _ _ _ _ _ => rfl) s b

/-- What `buffer_release` changes besides the list of the cache. -/
theorem bufferRelease_eq (s : Storage P) (b : BufferId) : s.bufferRelease b = { s with
    buffer := Function.update s.buffer b
      { s.buffer b with busy := false, refcount := (s.buffer b).refcount - 1 }
    order := (s.bufferRelease b).order
    call := fun q => (s.call q).wake b
    use := Function.update s.use b .free } := by
  unfold bufferRelease
  dsimp only
  split <;> rfl

/-- The buffers are the same but for their links. -/
def SameButLinks (s t : Storage P) : Prop :=
  ∀ c, t.buffer c = { s.buffer c with queue := (t.buffer c).queue }

/-- `disk_submit` to an empty queue starts the transfer. -/
theorem Control.submit_empty (h : Control s []) :
    s.submit b = { s.setBuffer b fun e => { e with queue := none } with
      head := some b, tail := some b, sectorOffset := 0 }.startOperation := by
  have hNone : s.head = none := h.chain
  simp [Storage.submit, setBuffer, hNone]

/-- `disk_submit` behind the last request. -/
theorem Control.submit_behind {L : List BufferId} {last : BufferId} (h : Control s (L ++ [last]))
    (hb : b ∉ L ++ [last]) :
    s.submit b = { (s.setBuffer b fun e => { e with queue := none }).setBuffer last
      fun e => { e with queue := some b } with tail := some b } := by
  have hTail : s.tail = some last := h.tail last (by simp)
  obtain ⟨first, hFirst⟩ : ∃ first, (L ++ [last]).head? = some first := by
    cases L with
    | nil => exact ⟨last, rfl⟩
    | cons x L => exact ⟨x, rfl⟩
  have hNe : first ≠ b := by
    rintro rfl
    exact hb (List.mem_of_head? hFirst)
  simp [Storage.submit, setBuffer, h.chain.head_eq, hFirst, hTail, hNe]

theorem Control.submit_image (h : Control s Q) (hb : b ∉ Q) :
    (s.submit b).device.image = s.device.image := by
  rcases List.eq_nil_or_concat' Q with rfl | ⟨L, last, rfl⟩
  · rw [h.submit_empty, startOperation_image]
    rfl
  · rw [h.submit_behind hb]
    rfl

theorem Control.submit_sectorOffset (h : Control s Q) (hb : b ∉ Q) :
    (s.submit b).sectorOffset = if Q = [] then 0 else s.sectorOffset := by
  rcases List.eq_nil_or_concat' Q with rfl | ⟨L, last, rfl⟩
  · rw [h.submit_empty, startOperation_eq]
    rfl
  · rw [h.submit_behind hb]
    simp [setBuffer]

/-- `disk_submit` appends a buffer that is not in the queue. -/
theorem Control.submit (h : Control s Q) (hb : b ∉ Q) :
    (s.submit b).order = s.order ∧ (s.submit b).call = s.call ∧ (s.submit b).tail = some b ∧
      SameButLinks s (s.submit b) ∧
      Chain (fun c => ((s.submit b).buffer c).queue) (s.submit b).head (Q ++ [b]) := by
  -- the link of the new last buffer is cleared first
  have hCleared : Chain (fun c => ((s.setBuffer b fun e => { e with queue := none }).buffer c).queue)
      s.head Q := by
    apply h.chain.congr
    intro c hc
    have hNe : c ≠ b := by
      rintro rfl
      exact hb hc
    simp [setBuffer, hNe]
  rcases List.eq_nil_or_concat' Q with rfl | ⟨L, last, rfl⟩
  · rw [h.submit_empty, startOperation_eq]
    refine ⟨rfl, rfl, rfl, ?_, rfl, ?_⟩
    · intro c
      by_cases hc : c = b
      · subst hc
        simp [setBuffer]
      · simp [setBuffer, hc]
    · simp [setBuffer, Chain]
  · have hLast : last ≠ b := by
      rintro rfl
      exact hb (by simp)
    rw [h.submit_behind hb]
    refine ⟨rfl, rfl, rfl, ?_, ?_⟩
    · intro c
      by_cases hcLast : c = last
      · subst hcLast
        simp [setBuffer, hLast]
      · by_cases hcb : c = b
        · subst hcb
          simp [setBuffer, hcLast]
        · simp [setBuffer, hcLast, hcb]
    · have hAppended := hCleared.append h.nodup hb (by simp [setBuffer])
      apply hAppended.congr
      intro c _
      by_cases hcLast : c = last
      · subst hcLast
        simp [setBuffer]
      · simp [setBuffer, hcLast]

/-! ## §3 Looking a block up -/

section Lookup

variable {α : Type} {l : List α} {a : α} {f g : α → Bool}

/-- What is found first is found first by a narrower test that it passes. -/
theorem find?_of_imp (h : l.find? f = some a) (hImp : ∀ x, g x = true → f x = true)
    (ha : g a = true) : l.find? g = some a := by
  obtain ⟨-, before, after, hl, hBefore⟩ := List.find?_eq_some_iff_append.mp h
  apply List.find?_eq_some_iff_append.mpr
  refine ⟨ha, before, after, hl, ?_⟩
  intro x hx
  have hNot := hBefore x hx
  by_contra hTrue
  simp only [Bool.not_eq_true', Bool.not_eq_false] at hTrue hNot
  simp [hImp x hTrue] at hNot

/-- A test passed by one element only finds it. -/
theorem find?_eq_of_unique (ha : a ∈ l) (h : ∀ x, f x = true ↔ x = a) : l.find? f = some a := by
  cases hFind : l.find? f with
  | none =>
    have hNone := List.find?_eq_none.mp hFind a ha
    simp [(h a).mpr rfl] at hNone
  | some x =>
    rw [(h x).mp (List.find?_some hFind)]

/-- An element that fails the test may be taken out. -/
theorem find?_erase_of_not [DecidableEq α] (ha : f a = false) :
    (l.erase a).find? f = l.find? f := by
  induction l with
  | nil => rfl
  | cons x l ih =>
    by_cases hx : x = a
    · subst hx
      rw [List.erase_cons_head, List.find?_cons, ha]
    · rw [List.erase_cons_tail (by simpa using hx), List.find?_cons, List.find?_cons, ih]

end Lookup

/-! ## §4 The steps of `buffer_get` -/

/-- A buffer without an owner is not in the queue. -/
theorem Control.not_queued (h : Control s Q) (hFree : s.use b = .free) : b ∉ Q := by
  intro hb
  obtain ⟨q, hOwner, -⟩ := h.owner_of_queued hb
  rw [hFree] at hOwner
  cases hOwner

/-- A buffer whose owner is not in `disk_submit` is not in the queue. -/
theorem Control.not_queued_of_owner (h : Control s Q) (hOwner : (s.use b).owner = some p)
    (hAwake : ¬ (s.call p).waitsFor b) : b ∉ Q := by
  intro hb
  obtain ⟨q, hOwner', hWaits⟩ := h.owner_of_queued hb
  rw [hOwner] at hOwner'
  cases hOwner'
  exact hAwake hWaits

theorem lookup_congr (hOrder : t.order = s.order)
    (hKey : ∀ c, (t.buffer c).drive = (s.buffer c).drive ∧
      (t.buffer c).blockNumber = (s.buffer c).blockNumber) : t.lookup = s.lookup := by
  funext drive block
  unfold lookup
  rw [hOrder]
  congr 1
  funext c
  simp [isFor, hKey c]

/-- The lookups stay right if no key changes and no other buffer is locked or made valid. -/
theorem Control.first_of (h : Control s Q) (hOrder : t.order = s.order)
    (hKey : ∀ c, (t.buffer c).drive = (s.buffer c).drive ∧
      (t.buffer c).blockNumber = (s.buffer c).blockNumber)
    (hOld : ∀ c, (t.buffer c).busy = true ∨ (t.buffer c).valid = true →
      (s.buffer c).busy = true ∨ (s.buffer c).valid = true)
    (hc : (t.buffer c).busy = true ∨ (t.buffer c).valid = true) :
    t.lookup (t.buffer c).drive (t.buffer c).blockNumber = some c := by
  rw [lookup_congr hOrder hKey, (hKey c).1, (hKey c).2]
  exact h.first c (hOld c hc)

/-- The same when a locked buffer is moved to the front of the list. -/
theorem Control.first_moved (h : Control s Q) (hBusy : (s.buffer b).busy = true)
    (hOrder : t.order = b :: s.order.erase b)
    (hKey : ∀ c, (t.buffer c).drive = (s.buffer c).drive ∧
      (t.buffer c).blockNumber = (s.buffer c).blockNumber)
    (hOld : ∀ c, c ≠ b → (t.buffer c).busy = true ∨ (t.buffer c).valid = true →
      (s.buffer c).busy = true ∨ (s.buffer c).valid = true)
    (hc : (t.buffer c).busy = true ∨ (t.buffer c).valid = true) :
    t.lookup (t.buffer c).drive (t.buffer c).blockNumber = some c := by
  have hFor : t.isFor = s.isFor := by
    funext drive block x
    simp [isFor, hKey x]
  rw [lookup, hFor, hOrder, (hKey c).1, (hKey c).2, List.find?_cons]
  by_cases hcb : c = b
  · subst hcb
    simp [isFor]
  · -- the other buffer is locked or valid, so that its block is another one
    have hNot : s.isFor (s.buffer c).drive (s.buffer c).blockNumber b = false := by
      by_contra hTrue
      simp only [isFor, Bool.not_eq_false, Bool.and_eq_true, beq_iff_eq] at hTrue
      exact hcb (h.unique (hOld c hcb hc) (.inl hBusy) hTrue.2.symm hTrue.1.symm)
    rw [hNot]
    simp only
    rw [find?_erase_of_not hNot]
    exact h.first c (hOld c hcb hc)

theorem lookup_update {buffer : Buffer} (hDrive : buffer.drive = (s.buffer b).drive)
    (hBlock : buffer.blockNumber = (s.buffer b).blockNumber) :
    { s with buffer := Function.update s.buffer b buffer }.lookup = s.lookup := by
  refine lookup_congr rfl ?_
  intro c
  by_cases hc : c = b
  · subst hc
    simp [hDrive, hBlock]
  · simp [hc]

/-- The key, the lock and the link of a buffer are the same. -/
structure SameLock (e e' : Buffer) : Prop where
  busy : e'.busy = e.busy
  refcount : e'.refcount = e.refcount
  drive : e'.drive = e.drive
  blockNumber : e'.blockNumber = e.blockNumber
  queue : e'.queue = e.queue

/-- A locked buffer may change its frame and be marked valid or dirty. -/
theorem Control.rebuffer (h : Control s Q) (hBusy : (s.buffer b).busy = true) (buffer : Buffer)
    (hLock : SameLock (s.buffer b) buffer) :
    Control { s with buffer := Function.update s.buffer b buffer } Q := by
  -- neither the links nor the locks change, and no key does
  refine ⟨?_, h.tail, h.nodup, h.order, h.listed, ?_, ?_, ?_, ?_, h.queued⟩
  · apply h.chain.congr
    intro c _
    by_cases hc : c = b
    · subst hc
      simp [hLock.queue]
    · simp [hc]
  · intro c
    by_cases hc : c = b
    · subst hc
      simpa [hLock.busy] using h.busy c
    · simpa [hc] using h.busy c
  · intro c
    by_cases hc : c = b
    · subst hc
      simpa [hLock.busy, hLock.refcount] using h.refcount c
    · simpa [hc] using h.refcount c
  · intro c hc
    refine h.first_of rfl ?_ ?_ hc
    · intro x
      by_cases hx : x = b
      · subst hx
        simp [hLock.drive, hLock.blockNumber]
      · simp [hx]
    · intro x hx
      by_cases hxb : x = b
      · subst hxb
        exact .inl hBusy
      · simpa [hxb] using hx
  · intro p
    apply (h.calls p).congr
    intro c _
    refine ⟨rfl, ?_, Iff.rfl⟩
    by_cases hc : c = b
    · subst hc
      simp [hLock.blockNumber]
    · simp [hc]

/-- The first request of the queue is done: it is taken out and its process is woken up. -/
theorem Control.pop {R : List BufferId} (h : Control s (b :: R)) :
    Control ({ s with head := (s.buffer b).queue }.wakeup b) R := by
  have hNodup := List.nodup_cons.mp h.nodup
  have hMem : ∀ c, c ≠ b → (c ∈ R ↔ c ∈ b :: R) := by
    intro c hc
    simp [hc]
  refine ⟨h.chain.2, ?_, hNodup.2, h.order, h.listed, h.busy, h.refcount, h.first, ?_, ?_⟩
  · intro c hc
    apply h.tail c
    cases R with
    | nil => cases hc
    | cons d R => exact hc
  · intro q
    show s.CallOk R q ((s.call q).wake b)
    have hCall := h.calls q
    -- the process at the head is woken up; the others wait for other buffers
    by_cases hUses : (s.call q).uses b
    · -- the process that waits for the buffer
      cases hEq : s.call q with
      | none => trivial
      | locking => trivial
      | got block c =>
        rw [hEq] at hCall hUses
        obtain rfl : c = b := hUses
        exact absurd List.mem_cons_self hCall.2.1
      | reading block c asleep =>
        rw [hEq] at hCall hUses
        obtain rfl : c = b := hUses
        exact ⟨hCall.1, by simp [hNodup.1], hCall.2.2⟩
      | writing c asleep =>
        rw [hEq] at hCall hUses
        obtain rfl : c = b := hUses
        exact ⟨hCall.1, by simp [hNodup.1]⟩
    · have hOther : s.CallOk R q (s.call q) := by
        apply hCall.congr
        intro c hc
        refine ⟨rfl, rfl, hMem c ?_⟩
        rintro rfl
        exact hUses hc
      exact hOther.wake hUses
  · intro c hc
    have hcb : c ≠ b := by
      rintro rfl
      exact hNodup.1 hc
    obtain ⟨q, hWaits⟩ := h.queued c (List.mem_cons_of_mem _ hc)
    exact ⟨q, (Call.waitsFor_wake hcb).mpr hWaits⟩

theorem copySector_sectorOffset : (s.copySector b).sectorOffset = s.sectorOffset := by
  unfold copySector
  split <;> rfl

theorem Control.copySector (h : Control s Q) (hBusy : (s.buffer b).busy = true) :
    Control (s.copySector b) Q := by
  unfold Storage.copySector
  split
  · exact h
  · exact h.rebuffer hBusy _ ⟨rfl, rfl, rfl, rfl, rfl⟩

theorem Control.finishBlock {R : List BufferId} (h : Control s (b :: R)) :
    Control (s.finishBlock b) R := by
  obtain ⟨q, hOwner, -⟩ := h.owner_of_queued List.mem_cons_self
  have hValid : Control (s.setBuffer b fun e => { e with valid := true, dirty := false }) (b :: R) :=
    h.rebuffer (h.busy_of_owner hOwner) { s.buffer b with valid := true, dirty := false }
      ⟨rfl, rfl, rfl, rfl, rfl⟩
  have hPop := hValid.pop
  unfold Storage.finishBlock
  dsimp only
  split
  · exact hPop
  · exact Control.startOperation (hPop.congr rfl rfl rfl rfl rfl rfl)

/-- A finished sector is the last one of its block, or the block stays at the head. -/
theorem Control.finishSector {R : List BufferId} (h : Control s (b :: R)) :
    Control (s.finishSector b) (if s.sectorOffset + 1 < sectorsPerBlock then b :: R else R) := by
  obtain ⟨q, hOwner, -⟩ := h.owner_of_queued List.mem_cons_self
  have hCopied := h.copySector (h.busy_of_owner hOwner)
  have hNext : Control { s.copySector b with sectorOffset := (s.copySector b).sectorOffset + 1 }
      (b :: R) := hCopied.congr rfl rfl rfl rfl rfl rfl
  unfold Storage.finishSector
  dsimp only
  rw [copySector_sectorOffset]
  rw [copySector_sectorOffset] at hNext
  -- the queue loses its head with the eighth sector
  by_cases hMore : s.sectorOffset + 1 < sectorsPerBlock
  · rw [if_neg (by omega), if_pos hMore]
    exact hNext.startOperation
  · rw [if_pos (by omega), if_neg hMore]
    exact hNext.finishBlock

theorem interrupt_of_head (hReady : s.device.busy = false) (hHead : s.head = some b) :
    s.interrupt = { s with pin := false }.finishSector b := by
  unfold Storage.interrupt
  dsimp only
  rw [if_neg (by simp [hReady])]
  split
  · next hNone => simp [hHead] at hNone
  · next c hSome =>
    obtain rfl : b = c := by simpa [hHead] using hSome
    rfl

theorem interrupt_of_none (hHead : s.head = none) : s.interrupt = { s with pin := false } := by
  unfold Storage.interrupt
  dsimp only
  split
  · rfl
  · split
    · rfl
    · next c hSome => simp [hHead] at hSome

theorem Control.interrupt (h : Control s Q) :
    Control s.interrupt
      (if s.device.busy = false ∧ sectorsPerBlock ≤ s.sectorOffset + 1 then Q.tail else Q) := by
  have hPin : Control { s with pin := false } Q := h.congr rfl rfl rfl rfl rfl rfl
  -- the same three cases as in the driver: busy, nothing queued, a sector done
  by_cases hBusy : s.device.busy = true
  · rw [if_neg (by simp [hBusy]), Storage.interrupt, if_pos hBusy]
    exact hPin
  · have hReady : s.device.busy = false := by simpa using hBusy
    cases Q with
    | nil =>
      rw [interrupt_of_none h.chain]
      simpa using hPin
    | cons b R =>
      rw [interrupt_of_head hReady h.chain.1]
      have hNext := hPin.finishSector
      by_cases hMore : s.sectorOffset + 1 < sectorsPerBlock
      · rw [if_neg (by omega)]
        simpa [hMore] using hNext
      · rw [if_pos ⟨hReady, by omega⟩]
        simpa [hMore] using hNext

section Steps

variable [DecidableEq P] {block : Word} {drive : Byte}

/-- A process goes on to another call that is right, and does not leave a queued buffer. -/
theorem Control.recall (h : Control s Q) (hNew : s.CallOk Q p call)
    (hOld : ∀ b, b ∈ Q → (s.call p).waitsFor b → call.waitsFor b) : Control (s.setCall p call) Q := by
  refine ⟨h.chain, h.tail, h.nodup, h.order, h.listed, h.busy, h.refcount, h.first, ?_, ?_⟩
  · intro q
    show s.CallOk Q q (Function.update s.call p call q)
    by_cases hq : q = p
    · subst hq
      rw [Function.update_self]
      exact hNew
    · rw [Function.update_of_ne hq]
      exact h.calls q
  · intro b hb
    -- who waits for a queued buffer still does
    obtain ⟨q, hWaits⟩ := h.queued b hb
    by_cases hq : q = p
    · subst hq
      exact ⟨q, by simpa [setCall] using hOld b hb hWaits⟩
    · exact ⟨q, by simpa [setCall, hq] using hWaits⟩

/-- `buffer_get` locks a buffer `b`, which is made the one of its block before: what the two
    branches of `buffer_get` have in common. -/
theorem Control.fetch (h : Control s Q) (hIdle : ∀ c, ¬ (s.call p).waitsFor c)
    (hFree : s.use b = .free) (buffer : Buffer)
    (hBuffer : buffer.busy = true ∧ buffer.refcount = 1 ∧ buffer.blockNumber = block ∧
      buffer.queue = (s.buffer b).queue)
    (hFirst : ∀ c, (Function.update s.buffer b buffer c).busy = true ∨
        (Function.update s.buffer b buffer c).valid = true →
      { s with buffer := Function.update s.buffer b buffer }.lookup
        (Function.update s.buffer b buffer c).drive
        (Function.update s.buffer b buffer c).blockNumber = some c) :
    Control { { s with buffer := Function.update s.buffer b buffer }.setCall p (.got block b) with
      use := Function.update s.use b (.fetching p) } Q := by
  -- a free buffer is in no queue, so locking it disturbs no request
  have hb := h.not_queued hFree
  refine ⟨?_, h.tail, h.nodup, h.order, h.listed, ?_, ?_, hFirst, ?_, ?_⟩
  · apply h.chain.congr
    intro c _
    by_cases hc : c = b
    · subst hc
      simp [setCall, hBuffer]
    · simp [setCall, hc]
  · intro c
    by_cases hc : c = b
    · subst hc
      simp [setCall, hBuffer]
    · simpa [setCall, hc] using h.busy c
  · intro c
    by_cases hc : c = b
    · subst hc
      simp [setCall, hBuffer]
    · simpa [setCall, hc] using h.refcount c
  · intro q
    by_cases hq : q = p
    · subst hq
      simp [setCall, CallOk, hBuffer, hb]
    · show CallOk _ Q q (Function.update s.call p (.got block b) q)
      rw [Function.update_of_ne hq]
      apply h.others p b (by simp [hFree, Use.owner]) _ hq
      intro c hc
      simp [setCall, hc]
  · intro c hc
    obtain ⟨q, hWaits⟩ := h.queued c hc
    have hq : q ≠ p := by
      rintro rfl
      exact hIdle c hWaits
    exact ⟨q, by simpa [setCall, hq] using hWaits⟩

theorem Control.lock (h : Control s Q) (hIdle : ∀ c, ¬ (s.call p).waitsFor c)
    (hFound : s.lookup drive block = some b) (hBusy : (s.buffer b).busy = false) :
    Control (s.lock p block b) Q := by
  have hFor := List.find?_some hFound
  simp only [isFor, Bool.and_eq_true, beq_iff_eq] at hFor
  have hFree : s.use b = .free := by
    by_contra hUse
    rw [(h.busy b).mpr hUse] at hBusy
    cases hBusy
  set buffer := { s.buffer b with busy := true, refcount := (s.buffer b).refcount + 1 }
  have hLookup : { s with buffer := Function.update s.buffer b buffer }.lookup = s.lookup :=
    lookup_update rfl rfl
  refine h.fetch hIdle hFree buffer ⟨rfl, ?_, hFor.1, rfl⟩ ?_
  · simp [buffer, h.refcount b, hBusy]
  · intro c hc
    rw [hLookup]
    by_cases hcb : c = b
    · subst hcb
      rw [Function.update_self, ← hFound]
      exact congrArg₂ s.lookup hFor.2 hFor.1
    · rw [Function.update_of_ne hcb] at hc ⊢
      exact h.first c hc

theorem Control.recycle (h : Control s Q) (hIdle : ∀ c, ¬ (s.call p).waitsFor c)
    (hNone : s.lookup drive block = none) (hVictim : s.victim = some b) :
    Control (s.recycle p drive block b) Q := by
  have hUnused := List.find?_some hVictim
  simp only [unused, Bool.and_eq_true, Bool.not_eq_true'] at hUnused
  have hFree : s.use b = .free := by
    by_contra hUse
    rw [(h.busy b).mpr hUse] at hUnused
    simp at hUnused
  -- no buffer has been the one of the block
  have hOther : ∀ c, s.isFor drive block c = false := by
    intro c
    simpa using List.find?_eq_none.mp hNone c (h.listed c)
  refine h.fetch hIdle hFree _ ⟨rfl, rfl, rfl, rfl⟩ ?_
  intro c hc
  by_cases hcb : c = b
  · subst hcb
    apply find?_eq_of_unique (h.listed c)
    intro x
    by_cases hx : x = c
    · subst hx
      simp [isFor]
    · have hNot := hOther x
      simp only [isFor] at hNot
      simp [isFor, hx, hNot]
  · rw [Function.update_of_ne hcb] at hc ⊢
    have hNot := hOther c
    simp only [isFor] at hNot
    apply find?_of_imp (h.first c hc)
    · intro x hx
      by_cases hxb : x = b
      · subst hxb
        simp only [isFor, Function.update_self, Bool.and_eq_true, beq_iff_eq] at hx
        simp [hx.1, hx.2] at hNot
      · simpa [isFor, hxb] using hx
    · simp [isFor, hcb]

/-! ## §5 The steps of the owner of a buffer -/

/-- The owner of a buffer changes it, goes on to another call and keeps the buffer. -/
theorem Control.ownerStep (h : Control s Q) (hOwner : (s.use b).owner = some p)
    (hIdle : ∀ c, ¬ (s.call p).waitsFor c) (buffer : Buffer) (hLock : SameLock (s.buffer b) buffer)
    (use : Use P) (hUse : use ≠ .free) (call : Call)
    (hCall : { s with
      buffer := Function.update s.buffer b buffer
      use := Function.update s.use b use }.CallOk Q p call) :
    Control { s with
      buffer := Function.update s.buffer b buffer
      call := Function.update s.call p call
      use := Function.update s.use b use } Q := by
  have hBusy := h.busy_of_owner hOwner
  have hNext := h.rebuffer hBusy buffer hLock
  -- the buffer stays with its owner, so the clauses about the other calls carry over
  refine ⟨hNext.chain, h.tail, h.nodup, h.order, h.listed, ?_, hNext.refcount, hNext.first, ?_, ?_⟩
  · intro c
    by_cases hc : c = b
    · subst hc
      simp [hLock.busy, hBusy, hUse]
    · simpa [hc] using h.busy c
  · intro q
    by_cases hq : q = p
    · subst hq
      simp only [Function.update_self]
      exact hCall
    · simp only [Function.update_of_ne hq]
      apply h.others p b _ _ hq
      · intro r hr
        rw [hOwner] at hr
        exact (Option.some.inj hr).symm
      · intro c hc
        simp [hc]
  · intro c hc
    obtain ⟨q, hWaits⟩ := h.queued c hc
    have hq : q ≠ p := by
      rintro rfl
      exact hIdle c hWaits
    exact ⟨q, by simpa [hq] using hWaits⟩

/-- `buffer_read` returns a buffer, which it has made valid if it was not. -/
theorem Control.readDone (h : Control s Q)
    (hCall : s.call p = .got block b ∨ s.call p = .reading block b false) :
    Control (s.readDone p b) Q := by
  have hUses : (s.call p).uses b := by
    rcases hCall with hGot | hReading
    · rw [hGot]
      rfl
    · rw [hReading]
      rfl
  -- the process does not sleep, so no queued buffer loses the one that waits for it
  have hIdle : ∀ c, ¬ (s.call p).waitsFor c := by
    intro c hWaits
    rcases hCall with hGot | hReading
    · rw [hGot] at hWaits
      exact hWaits
    · rw [hReading] at hWaits
      exact absurd hWaits.2 (by simp)
  exact h.ownerStep ((h.calls p).owner hUses) hIdle { s.buffer b with valid := true }
    ⟨rfl, rfl, rfl, rfl, rfl⟩ (.held p false) (by simp) .none trivial

theorem atHand_iff :
    s.atHand p b = true ↔ s.call p = .none ∧ ∃ changed, s.use b = .held p changed := by
  simp [atHand]

/-- The holder changes the frame. -/
theorem Control.modify (h : Control s Q) (hHand : s.atHand p b = true) (frame : Nat → Byte) :
    Control { s.setBuffer b fun e => { e with frame := frame } with
      use := Function.update s.use b (.held p true) } Q := by
  obtain ⟨hCall, changed, hUse⟩ := atHand_iff.mp hHand
  have hStep := h.ownerStep (b := b) (p := p) (by rw [hUse]; rfl)
    (fun c hWaits => by rw [hCall] at hWaits; exact hWaits) { s.buffer b with frame := frame }
    ⟨rfl, rfl, rfl, rfl, rfl⟩ (.held p true) (by simp) .none trivial
  have hSame : Function.update s.call p .none = s.call := by rw [← hCall, Function.update_eq_self]
  rw [hSame] at hStep
  exact hStep

/-- The owner of a buffer submits it and sleeps. -/
theorem Control.submitted (h : Control s Q) (hOwner : (s.use b).owner = some p)
    (hIdle : ∀ c, ¬ (s.call p).waitsFor c) (dirty : Bool) (use : Use P) (hUse : use ≠ .free)
    (call : Call) (hWaits : call.waitsFor b)
    (hCall : { s with use := Function.update s.use b use }.CallOk (Q ++ [b]) p call) :
    Control { ((s.setBuffer b fun e => { e with dirty := dirty }).submit b).setCall p call with
      use := Function.update s.use b use } (Q ++ [b]) := by
  have hb : b ∉ Q := h.not_queued_of_owner hOwner (hIdle b)
  have hBusy := h.busy_of_owner hOwner
  have hMarked : Control (s.setBuffer b fun e => { e with dirty := dirty }) Q := by
    exact h.rebuffer hBusy { s.buffer b with dirty := dirty } ⟨rfl, rfl, rfl, rfl, rfl⟩
  set m := s.setBuffer b fun e => { e with dirty := dirty } with hm
  obtain ⟨hOrder, hCalls, hTail, hSame, hChain⟩ := hMarked.submit hb
  -- the buffers keep their keys and locks
  have hLocks : ∀ c, ((m.submit b).buffer c).busy = (s.buffer c).busy ∧
      ((m.submit b).buffer c).refcount = (s.buffer c).refcount ∧
      ((m.submit b).buffer c).valid = (s.buffer c).valid ∧
      ((m.submit b).buffer c).drive = (s.buffer c).drive ∧
      ((m.submit b).buffer c).blockNumber = (s.buffer c).blockNumber := by
    intro c
    rw [hSame c]
    by_cases hc : c = b
    · subst hc
      simp [hm, setBuffer]
    · simp [hm, setBuffer, hc]
  refine ⟨hChain, ?_, ?_, ?_, ?_, ?_, ?_, ?_, ?_, ?_⟩
  · intro c hc
    simp only [setCall]
    rw [hTail]
    simpa using hc
  · rw [List.nodup_append]
    simpa using ⟨h.nodup, fun c hc hcb => hb (hcb ▸ hc)⟩
  · simp only [setCall]
    rw [hOrder]
    exact h.order
  · intro c
    simp only [setCall]
    rw [hOrder]
    exact h.listed c
  · intro c
    simp only [setCall]
    rw [(hLocks c).1]
    by_cases hc : c = b
    · subst hc
      simp [hBusy, hUse]
    · simpa [hc] using h.busy c
  · intro c
    have hCount := h.refcount c
    simpa [setCall, (hLocks c).1, (hLocks c).2.1] using hCount
  · intro c hc
    refine h.first_of hOrder ?_ ?_ hc
    · exact fun x => (hLocks x).2.2.2
    · intro x hx
      simp only [setCall] at hx
      rwa [(hLocks x).1, (hLocks x).2.2.1] at hx
  · intro q
    simp only [setCall]
    by_cases hq : q = p
    · subst hq
      rw [Function.update_self]
      apply hCall.congr
      intro c _
      exact ⟨rfl, (hLocks c).2.2.2.2, Iff.rfl⟩
    · rw [Function.update_of_ne hq, hCalls]
      apply h.others p b _ _ hq
      · intro r hr
        rw [hOwner] at hr
        exact (Option.some.inj hr).symm
      · intro c hc
        refine ⟨Function.update_of_ne hc _ _, (hLocks c).2.2.2.2, ?_⟩
        simp [hc]
  · intro c hc
    simp only [setCall]
    rcases List.mem_append.mp hc with hOld | hNew
    · obtain ⟨q, hWaits'⟩ := h.queued c hOld
      have hq : q ≠ p := by
        rintro rfl
        exact hIdle c hWaits'
      exact ⟨q, by rw [Function.update_of_ne hq, hCalls]; exact hWaits'⟩
    · refine ⟨p, ?_⟩
      rw [Function.update_self, List.mem_singleton.mp hNew]
      exact hWaits

/-! ## §6 `buffer_release` -/

theorem Control.release (h : Control s Q) (hHand : s.atHand p b = true) :
    Control (s.bufferRelease b) Q := by
  obtain ⟨hCall, changed, hUse⟩ := atHand_iff.mp hHand
  have hOwner : (s.use b).owner = some p := by rw [hUse]; rfl
  have hBusy := h.busy_of_owner hOwner
  have hb : b ∉ Q := h.not_queued_of_owner hOwner (by rw [hCall]; exact id)
  -- a held buffer is locked once, so the release takes it out of use altogether
  have hCount : (s.buffer b).refcount = 1 := by simp [h.refcount b, hBusy]
  have hEq : s.bufferRelease b = { s with
      buffer := Function.update s.buffer b { s.buffer b with busy := false, refcount := 0 }
      order := b :: s.order.erase b
      call := fun q => (s.call q).wake b
      use := Function.update s.use b .free } := by
    simp [bufferRelease, wakeup, setBuffer, hCount]
  rw [hEq]
  refine ⟨?_, h.tail, h.nodup, ?_, ?_, ?_, ?_, ?_, ?_, ?_⟩
  · apply h.chain.congr
    intro c _
    by_cases hc : c = b
    · subst hc
      simp
    · simp [hc]
  · exact List.nodup_cons.mpr ⟨h.order.not_mem_erase, h.order.erase b⟩
  · intro c
    by_cases hc : c = b
    · subst hc
      exact List.mem_cons_self
    · exact List.mem_cons_of_mem _ ((List.mem_erase_of_ne hc).mpr (h.listed c))
  · intro c
    by_cases hc : c = b
    · subst hc
      simp
    · simpa [hc] using h.busy c
  · intro c
    by_cases hc : c = b
    · subst hc
      simp
    · simpa [hc] using h.refcount c
  -- at the front of the list it is found first, which nobody else's search notices
  · intro c hc
    refine h.first_moved hBusy rfl ?_ ?_ hc
    · intro x
      by_cases hx : x = b
      · subst hx
        simp
      · simp [hx]
    · intro x hx hOld
      simpa [hx] using hOld
  · intro q
    show CallOk _ Q q ((s.call q).wake b)
    by_cases hq : q = p
    · subst hq
      rw [hCall]
      trivial
    -- nobody else has a call about the buffer, except to wait for it
    · have hUses : ¬ (s.call q).uses b := by
        intro hUses
        have hOwner' := (h.calls q).owner hUses
        rw [hOwner] at hOwner'
        exact hq (Option.some.inj hOwner').symm
      refine CallOk.wake ?_ hUses
      apply h.others p b _ _ hq
      · intro r hr
        rw [hOwner] at hr
        exact (Option.some.inj hr).symm
      · intro c hc
        simp [hc]
  · intro c hc
    have hcb : c ≠ b := by
      rintro rfl
      exact hb hc
    obtain ⟨q, hWaits⟩ := h.queued c hc
    exact ⟨q, (Call.waitsFor_wake hcb).mpr hWaits⟩

/-! ## §7 The step lemma -/

/-- The step does not wake up a process that sleeps in `disk_submit` before its time. -/
def SparesRequests (s : Storage P) : Event P → Prop
  | .kill p => ∀ b, ¬ (s.call p).waitsFor b
  | _ => True

/-- The disk queue after a step. -/
def nextQueue (s : Storage P) (Q : List BufferId) : Event P → List BufferId
  | .readFrame _ submitted => Q ++ submitted.toList
  | .write _ b _ _ => Q ++ [b]
  | .interrupt _ =>
    if s.device.busy = false ∧ sectorsPerBlock ≤ s.sectorOffset + 1 then Q.tail else Q
  | _ => Q

theorem Control.bufferGet (h : Control s Q) (hIdle : ∀ c, ¬ (s.call p).waitsFor c)
    (hGet : s.bufferGet p drive block = some t) : Control t Q := by
  unfold Storage.bufferGet at hGet
  split at hGet
  · next b hFound =>
    split at hGet
    · obtain rfl := Option.some.inj hGet
      exact h.recall trivial fun c _ hWaits => absurd hWaits (hIdle c)
    · next hBusy =>
      obtain rfl := Option.some.inj hGet
      exact h.lock hIdle hFound (by simpa using hBusy)
  · next hNone =>
    obtain ⟨b, hVictim, rfl⟩ := Option.map_eq_some_iff.mp hGet
    exact h.recycle hIdle hNone hVictim

/-- `buffer_read` behind `buffer_get`. -/
theorem Control.readFrame (h : Control s Q) (hCall : s.call p = .got block b) :
    Control (s.readFrame p block b) (if (s.buffer b).valid then Q else Q ++ [b]) := by
  have hOwn := h.calls p
  rw [hCall] at hOwn
  obtain ⟨hUse, hOut, hBlock⟩ := hOwn
  unfold Storage.readFrame
  -- a hit writes the flag that is set already; a miss submits
  by_cases hValid : (s.buffer b).valid = true
  · rw [if_pos hValid, if_pos hValid]
    have hSame : s.setBuffer b (fun e => { e with valid := true }) = s := by
      have hEq : { s.buffer b with valid := true } = s.buffer b := by rw [← hValid]
      simp only [setBuffer, hEq, Function.update_eq_self]
    have hDone := h.readDone (.inl hCall)
    rwa [Storage.readDone, hSame] at hDone
  · rw [if_neg hValid, if_neg hValid]
    have hStep := h.submitted (b := b) (by rw [hUse]; rfl) (fun c => by rw [hCall]; exact id) false
      (.fetching p) (by simp) (.reading block b true) ⟨rfl, rfl⟩ ⟨by simp, by simp, hBlock⟩
    have hSame : Function.update s.use b (.fetching p) = s.use := by
      rw [← hUse, Function.update_eq_self]
    rw [hSame] at hStep
    refine hStep.congr rfl rfl rfl rfl rfl ?_
    exact submit_use _ b

theorem Control.bufferWrite (h : Control s Q) (hHand : s.atHand p b = true) :
    Control (s.bufferWrite p b) (Q ++ [b]) := by
  obtain ⟨hCall, changed, hUse⟩ := atHand_iff.mp hHand
  have hStep := h.submitted (b := b) (by rw [hUse]; rfl) (fun c => by rw [hCall]; exact id) true
    (.held p false) (by simp) (.writing b true) ⟨rfl, rfl⟩ ⟨⟨false, by simp⟩, by simp⟩
  refine hStep.congr rfl rfl rfl rfl rfl ?_
  simp only [Storage.bufferWrite, setCall, submit_use]
  rfl

/-- **Step lemma**: every step but the early wakeup keeps the invariant. -/
theorem Control.step {e : Event P} (h : Control s Q) (hStep : s.Step e t)
    (hSpares : s.SparesRequests e) : Control t (s.nextQueue Q e) := by
  obtain ⟨hLabels, hPerform⟩ := hStep
  cases e with
  | read p drive block =>
    obtain ⟨hCall, hGet⟩ := Option.ite_none_right_eq_some.mp hPerform
    exact h.bufferGet (fun c => by rw [hCall]; exact id) hGet
  | retry p =>
    simp only [perform] at hPerform
    split at hPerform
    · next hCall => exact h.bufferGet (fun c => by rw [hCall]; exact id) hPerform
    · cases hPerform
  | readFrame p submitted =>
    simp only [perform] at hPerform
    split at hPerform
    · next block b hCall =>
      obtain rfl := Option.some.inj hPerform
      have hSubmitted : submitted = if (s.buffer b).valid then none else some b := by
        rw [show submitted = s.toSubmit p from hLabels, toSubmit, hCall]
      have hNext := h.readFrame hCall
      rw [nextQueue, hSubmitted]
      by_cases hValid : (s.buffer b).valid = true
      · simpa [hValid] using hNext
      · simpa [hValid] using hNext
    · cases hPerform
  | readDone p =>
    simp only [perform] at hPerform
    split at hPerform
    · next block b hCall =>
      obtain rfl := Option.some.inj hPerform
      exact h.readDone (.inr hCall)
    · cases hPerform
  | modify p b frame =>
    obtain ⟨hHand, hSome⟩ := Option.ite_none_right_eq_some.mp hPerform
    obtain rfl := Option.some.inj hSome
    exact h.modify hHand frame
  | write p b block frame =>
    obtain ⟨⟨hHand, -⟩, hSome⟩ := Option.ite_none_right_eq_some.mp hPerform
    obtain rfl := Option.some.inj hSome
    exact h.bufferWrite hHand
  | writeDone p =>
    simp only [perform] at hPerform
    split at hPerform
    · next b hCall =>
      obtain rfl := Option.some.inj hPerform
      refine h.recall trivial fun c _ hWaits => ?_
      rw [hCall] at hWaits
      exact absurd hWaits.2 (by simp)
    · cases hPerform
  | release p b =>
    obtain ⟨⟨hHand, -⟩, hSome⟩ := Option.ite_none_right_eq_some.mp hPerform
    obtain rfl := Option.some.inj hSome
    exact h.release hHand
  | transfer =>
    obtain ⟨-, hSome⟩ := Option.ite_none_right_eq_some.mp hPerform
    obtain rfl := Option.some.inj hSome
    unfold Storage.transfer
    split <;> exact h.congr rfl rfl rfl rfl rfl rfl
  | interrupt served =>
    obtain ⟨-, hSome⟩ := Option.ite_none_right_eq_some.mp hPerform
    obtain rfl := Option.some.inj hSome
    exact h.interrupt
  | kill p =>
    obtain rfl := Option.some.inj hPerform
    refine h.recall ?_ fun c _ hWaits => absurd hWaits (hSpares c)
    -- a process that does not sleep in `disk_submit` goes on as before
    have hCall := h.calls p
    cases hEq : s.call p with
    | none => trivial
    | locking => trivial
    | got block b =>
      rw [hEq] at hCall
      exact hCall
    | reading block b asleep =>
      have hAwake := hSpares b
      rw [hEq] at hCall hAwake
      obtain rfl : asleep = false := by simpa [Call.waitsFor] using hAwake
      exact hCall
    | writing b asleep =>
      have hAwake := hSpares b
      rw [hEq] at hCall hAwake
      obtain rfl : asleep = false := by simpa [Call.waitsFor] using hAwake
      exact hCall

end Steps

/-- At boot no buffer is locked and the queue is empty. -/
theorem boot_control (image : Nat → Byte) (frames : BufferId → Nat → Byte) (pin : Bool) :
    Control (boot image frames pin : Storage P) [] where
  chain := rfl
  tail := by simp
  nodup := List.nodup_nil
  order := List.nodup_reverse.mpr (List.nodup_finRange 16)
  listed b := List.mem_reverse.mpr (List.mem_finRange b)
  busy := by simp [boot]
  refcount := by simp [boot]
  first := by simp [boot]
  calls p := trivial
  queued := by simp

end Storage

end Xv6502.Block
