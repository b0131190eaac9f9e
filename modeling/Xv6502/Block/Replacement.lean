import Xv6502.Lib.Recency
import Xv6502.Block.CacheLinks

/-!
# Which Buffer is Recycled

A miss recycles the buffer that has been released longest ago, among those that are not locked.
The time of the last release is not written down anywhere: it is the place of the buffer in the
list, and busy buffers keep their old places in it. The operations are `buffer_get` and
`buffer_release` on the links, in any order and by any process; between them anything may happen
that leaves the links, the locks and the reference counts alone.
-/

namespace Xv6502.Block

open Xv6502.Emulator
open Xv6502.Lib

variable {P : Type}

/-! ## §1 Locks and reference counts -/

namespace Storage

/-- The flag `BUFFER_FLAGS_BUSY` and the reference count of a buffer. -/
def lockState (s : Storage P) (b : BufferId) : Bool × Byte :=
  ((s.buffer b).busy, (s.buffer b).refcount)

variable {s : Storage P}

theorem setBuffer_lockState (b : BufferId) {f : Buffer → Buffer}
    (hf : ∀ e, (f e).busy = e.busy ∧ (f e).refcount = e.refcount) :
    (s.setBuffer b f).lockState = s.lockState := by
  funext c
  unfold Storage.lockState setBuffer
  by_cases hc : c = b
  · rw [hc]
    simp [hf]
  · simp [hc]

theorem startOperation_lockState : s.startOperation.lockState = s.lockState := by
  rw [startOperation_eq]
  rfl

theorem submit_lockState (b : BufferId) : (s.submit b).lockState = s.lockState := by
  have hSet : ∀ (t : Storage P) (c : BufferId) (q : Option BufferId),
      (t.setBuffer c fun e => { e with queue := q }).lockState = t.lockState :=
    fun t c q => setBuffer_lockState c fun _ => ⟨rfl, rfl⟩
  unfold submit
  dsimp only
  split
  · split
    · rw [startOperation_lockState]
      exact hSet s b none
    · exact hSet s b none
  · next tail _ _ =>
    split
    · rw [startOperation_lockState]
      exact (hSet _ tail (some b)).trans (hSet s b none)
    · exact (hSet _ tail (some b)).trans (hSet s b none)
  · split
    · rw [startOperation_lockState]
      exact hSet s b none
    · exact hSet s b none

theorem copySector_lockState (b : BufferId) : (s.copySector b).lockState = s.lockState := by
  unfold copySector
  split
  · rfl
  · exact setBuffer_lockState b fun _ => ⟨rfl, rfl⟩

theorem interrupt_lockState : s.interrupt.lockState = s.lockState := by
  have hFinish : ∀ (t : Storage P) (b : BufferId), (t.finishBlock b).lockState = t.lockState := by
    intro t b
    have hSet : (t.setBuffer b fun e => { e with valid := true, dirty := false }).lockState =
        t.lockState := setBuffer_lockState b fun _ => ⟨rfl, rfl⟩
    unfold finishBlock
    dsimp only
    split
    · exact hSet
    · rw [startOperation_lockState]
      exact hSet
  -- ready or not, the handler writes `valid`, `dirty` and the queue: neither the list nor a lock
  unfold interrupt
  dsimp only
  split
  · rfl
  · split
    · rfl
    · next b _ =>
      unfold finishSector
      dsimp only
      split
      · rw [hFinish]
        exact copySector_lockState b
      · rw [startOperation_lockState]
        exact copySector_lockState b

end Storage

namespace LinkedCache

open Storage (Event)

/-! ## §2 Operations -/

/-- A call of a function of the cache by a process. -/
inductive Operation (P : Type) where
  | get (p : P) (drive : Byte) (block : Word)
  | release (p : P) (b : BufferId)

variable [DecidableEq P]

/-- A call; `none` if the kernel panics. -/
def operate (s : LinkedCache P) : Operation P → Option (LinkedCache P)
  | .get p drive block => s.bufferGet p drive block
  | .release p b => if (s.storage.buffer b).busy then some (s.bufferRelease p b) else none

/-- Nothing happens to the links, the locks and the reference counts. -/
structure LocksKept (s t : LinkedCache P) : Prop where
  links : t.links = s.links
  order : t.storage.order = s.storage.order
  locks : t.storage.lockState = s.storage.lockState

/-- A call of an operation, or anything that leaves the locks alone. -/
inductive Moves (s : LinkedCache P) : Option (Operation P) → LinkedCache P → Prop
  | call {o : Operation P} {t : LinkedCache P} (h : s.operate o = some t) : Moves s (some o) t
  | other {t : LinkedCache P} (h : LocksKept s t) : Moves s none t

/-- The buffers that have been released, newest first. -/
def collect (released : List BufferId) : Option (Operation P) → List BufferId
  | some (.release _ b) => b :: released
  | _ => released

/-- The buffers released in a run, newest first. -/
def released (os : List (Option (Operation P))) : List BufferId := os.foldl collect []

/-! ## §3 The invariant -/

/-- The links stand for a list of all the buffers, ordered by the last release, and a buffer is
    referred to exactly while it is locked. -/
structure Ordered (s : LinkedCache P) (uses : List BufferId) : Prop where
  ring : s.links.Ring s.storage.order
  nodup : s.storage.order.Nodup
  listed : ∀ b, b ∈ s.storage.order
  refcount : ∀ b, (s.storage.buffer b).refcount = if (s.storage.buffer b).busy then 1 else 0
  recency : ByRecency uses s.storage.order

variable {s t : LinkedCache P} {uses : List BufferId} {p : P} {b : BufferId} {drive : Byte}
  {block : Word} {o : Operation P}

omit [DecidableEq P] in
theorem Ordered.congr (h : Ordered s uses) (hKept : LocksKept s t) : Ordered t uses where
  ring := by
    rw [hKept.links, hKept.order]
    exact h.ring
  nodup := hKept.order ▸ h.nodup
  listed b := hKept.order ▸ h.listed b
  refcount b := by
    obtain ⟨hBusy, hCount⟩ := Prod.mk.inj (congrFun hKept.locks b)
    rw [hBusy, hCount]
    exact h.refcount b
  recency := hKept.order ▸ h.recency

omit [DecidableEq P] in
/-- A buffer is locked; its place in the list stays the same. -/
theorem Ordered.hold (h : Ordered s uses) {storage : Storage P}
    (hOrder : storage.order = s.storage.order)
    (hLocks : storage.lockState = Function.update s.storage.lockState b (true, 1)) :
    Ordered (s.hold p b storage) uses where
  ring := by
    show s.links.Ring storage.order
    rw [hOrder]
    exact h.ring
  nodup := hOrder ▸ h.nodup
  listed b := hOrder ▸ h.listed b
  refcount c := by
    have hLock := congrFun hLocks c
    -- the lock takes the count from 0 to 1
    by_cases hc : c = b
    · rw [hc, Function.update_self] at hLock
      obtain ⟨hBusy, hCount⟩ := Prod.mk.inj hLock
      show (storage.buffer c).refcount = if (storage.buffer c).busy then 1 else 0
      rw [hc, hBusy, hCount, if_pos rfl]
    · rw [Function.update_of_ne hc] at hLock
      obtain ⟨hBusy, hCount⟩ := Prod.mk.inj hLock
      show (storage.buffer c).refcount = if (storage.buffer c).busy then 1 else 0
      rw [hBusy, hCount]
      exact h.refcount c
  recency := hOrder ▸ h.recency

/-- `buffer_get` does not move a buffer in the list. -/
theorem Ordered.get (h : Ordered s uses) (hGet : s.bufferGet p drive block = some t) :
    Ordered t uses := by
  rw [bufferGet_eq h.ring h.nodup] at hGet
  cases hFound : s.storage.lookup drive block with
  | some b =>
    rw [hFound] at hGet
    dsimp only at hGet
    by_cases hBusy : (s.storage.buffer b).busy = true
    · -- the process goes to sleep
      rw [if_pos hBusy] at hGet
      obtain rfl := Option.some.inj hGet
      exact h.congr ⟨rfl, rfl, rfl⟩
    · rw [if_neg hBusy] at hGet
      obtain rfl := Option.some.inj hGet
      -- a free buffer has no reference, so this one is its first
      have hCount := h.refcount b
      rw [if_neg hBusy] at hCount
      refine h.hold rfl ?_
      funext c
      by_cases hc : c = b
      · rw [hc, Function.update_self]
        simp [Storage.lockState, Storage.lock, Storage.setBuffer, Storage.setCall, hCount]
      · rw [Function.update_of_ne hc]
        simp [Storage.lockState, Storage.lock, Storage.setBuffer, Storage.setCall, hc]
  | none =>
    rw [hFound] at hGet
    dsimp only at hGet
    obtain ⟨b, -, rfl⟩ := Option.map_eq_some_iff.mp hGet
    refine h.hold rfl ?_
    funext c
    by_cases hc : c = b
    · rw [hc, Function.update_self]
      simp [Storage.lockState, Storage.recycle, Storage.setBuffer, Storage.setCall]
    · rw [Function.update_of_ne hc]
      simp [Storage.lockState, Storage.recycle, Storage.setBuffer, Storage.setCall, hc]

/-- `buffer_release` moves the buffer to the front. -/
theorem Ordered.release (h : Ordered s uses) (hBusy : (s.storage.buffer b).busy = true) :
    Ordered (s.bufferRelease p b) (b :: uses) := by
  -- the lock is the only reference, so the count comes to zero and the buffer is moved
  have hOne : (s.storage.buffer b).refcount = 1 := by rw [h.refcount b, if_pos hBusy]
  have hCount : (s.storage.buffer b).refcount - 1 = 0 := by
    rw [hOne]
    rfl
  have hOrder : (s.storage.bufferRelease b).order = b :: s.storage.order.erase b := by
    simp [Storage.bufferRelease, Storage.wakeup, Storage.setBuffer, hOne]
  have hPerm := (List.perm_cons_erase (h.listed b)).symm
  constructor
  · show (if (s.storage.buffer b).refcount - 1 = 0 then (s.links.unlink b).insertFront b
      else s.links).Ring (s.storage.bufferRelease b).order
    rw [if_pos hCount, hOrder]
    exact h.ring.moveFront h.nodup (h.listed b)
  · show (s.storage.bufferRelease b).order.Nodup
    rw [hOrder]
    exact hPerm.nodup_iff.mpr h.nodup
  · intro c
    show c ∈ (s.storage.bufferRelease b).order
    rw [hOrder]
    exact hPerm.mem_iff.mpr (h.listed c)
  · intro c
    show ((s.storage.bufferRelease b).buffer c).refcount =
      if ((s.storage.bufferRelease b).buffer c).busy then 1 else 0
    rw [Storage.bufferRelease_eq]
    by_cases hc : c = b
    · simp [hc, hOne]
    · simp [hc, h.refcount c]
  · show ByRecency (b :: uses) (s.storage.bufferRelease b).order
    rw [hOrder]
    exact h.recency.use h.nodup b

/-- **Step lemma**: every move keeps the list in the order of the releases. -/
theorem Ordered.moves {m : Option (Operation P)} (h : Ordered s uses) (hMoves : Moves s m t) :
    Ordered t (collect uses m) := by
  cases hMoves with
  | other hKept => exact h.congr hKept
  | @call o _ hCall =>
    cases o with
    | get p drive block => exact h.get hCall
    | release p b =>
      obtain ⟨hBusy, hSome⟩ := Option.ite_none_right_eq_some.mp hCall
      obtain rfl := Option.some.inj hSome
      exact h.release hBusy

omit [DecidableEq P] in
theorem boot_ordered (image : Nat → Byte) (frames : BufferId → Nat → Byte) (pin : Bool)
    (links : Links BufferId) : Ordered (boot image frames pin links : LinkedCache P) [] where
  ring := bufferInit_ring links
  nodup := List.nodup_reverse.mpr (List.nodup_finRange 16)
  listed b := List.mem_reverse.mpr (List.mem_finRange b)
  refcount _ := rfl
  recency := byRecency_nil _

/-! ## §4 Replacement -/

/-- The buffer has been released longest ago, among those that are not locked; a buffer that has
    never been released comes before those that have. -/
def OldestFree (s : LinkedCache P) (uses : List BufferId) (b : BufferId) : Prop :=
  (s.storage.buffer b).busy = false ∧
    ∀ c, (s.storage.buffer c).busy = false → c ≠ b →
      lastUse uses b < lastUse uses c ∨ lastUse uses b = 0

omit [DecidableEq P] in
theorem Ordered.unused_iff (h : Ordered s uses) :
    s.storage.unused b = true ↔ (s.storage.buffer b).busy = false := by
  have hCount := h.refcount b
  unfold Storage.unused
  cases hBusy : (s.storage.buffer b).busy <;> simp [hCount, hBusy]

omit [DecidableEq P] in
/-- The search along `prev` finds the buffer released longest ago. -/
theorem Ordered.victim (h : Ordered s uses) (hVictim : s.storage.victim = some b) :
    OldestFree s uses b := by
  have hUnused : s.storage.unused b = true := List.find?_some hVictim
  refine ⟨h.unused_iff.mp hUnused, ?_⟩
  intro c hFree hne
  have hLe := h.recency.oldest hVictim (h.listed c) (h.unused_iff.mpr hFree)
  rcases Nat.lt_or_eq_of_le hLe with hLt | hEq
  · exact .inl hLt
  · refine .inr (Classical.byContradiction fun hUsed => ?_)
    exact hne (lastUse_inj hEq hUsed).symm

/-- **Main theorem**: after any calls of `buffer_get` and `buffer_release` from `buffer_init` on, a
    miss recycles the buffer that has been released longest ago, and `buffer_get` fails only if all
    buffers are locked. -/
theorem recycles_oldest {image : Nat → Byte} {frames : BufferId → Nat → Byte} {pin : Bool}
    {links : Links BufferId} {ms : List (Option (Operation P))}
    (hRun : Run Moves (boot image frames pin links) ms s) (p : P) (drive : Byte) (block : Word) :
    ((∀ b, s.storage.isFor drive block b = false) → ∀ t, s.bufferGet p drive block = some t →
      ∃ b, OldestFree s (released ms) b ∧ t = s.hold p b (s.storage.recycle p drive block b)) ∧
    (s.bufferGet p drive block = none → ∀ b, (s.storage.buffer b).busy = true) := by
  -- the list is in the order of the last releases after every sequence of calls
  have h : Ordered s (released ms) := by
    refine @Run.invariant _ _ _ _ _ _ (fun x : LinkedCache P × List BufferId => Ordered x.1 x.2)
      ?_ (hRun.with_history collect []) (boot_ordered image frames pin links)
    rintro ⟨s, uses⟩ m ⟨t, uses'⟩ hBefore ⟨hMoves, rfl⟩
    exact hBefore.moves hMoves
  rw [bufferGet_eq h.ring h.nodup]
  constructor
  · intro hMiss t hGet
    have hNone : s.storage.lookup drive block = none :=
      List.find?_eq_none.mpr fun b _ => by simp [hMiss b]
    rw [hNone] at hGet
    -- the victim is the last unused buffer of the list, that is the one released longest ago
    obtain ⟨b, hVictim, rfl⟩ := Option.map_eq_some_iff.mp hGet
    exact ⟨b, h.victim hVictim, rfl⟩
  · intro hGet b
    cases hFound : s.storage.lookup drive block with
    | some c =>
      rw [hFound] at hGet
      dsimp only at hGet
      split at hGet <;> cases hGet
    | none =>
      rw [hFound] at hGet
      -- no victim is found only when no buffer is unused, and unused is free
      have hNone := List.find?_eq_none.mp (Option.map_eq_none_iff.mp hGet) b
        (List.mem_reverse.mpr (h.listed b))
      cases hBusy : (s.storage.buffer b).busy with
      | true => rfl
      | false => exact absurd (h.unused_iff.mpr hBusy) hNone

/-- Calls that do not panic are moves. -/
theorem moves_of_operate {os : List (Operation P)} (h : performAll operate s os = some t) :
    Run Moves s (os.map some) t := by
  induction os generalizing s with
  | nil =>
    obtain rfl := Option.some.inj h
    exact .nil s
  | cons o os ih =>
    obtain ⟨u, hFirst, hRest⟩ := Option.bind_eq_some_iff.mp h
    exact .cons (.call hFirst) (ih hRest)

/-- Sixteen readers get a block each, and three of them release theirs. -/
def threeReleases : List (Operation (Fin 16)) :=
  (List.finRange 16).map (fun i => .get i 0 (BitVec.ofNat 16 i)) ++
    [.release 5 5, .release 2 2, .release 9 9]

/-- All buffers have been recycled, and then buffers 5, 2 and 9 are released. The next miss recycles
    buffer 5, which has been released first. -/
theorem next_reader_recycles :
    ∃ s t : LinkedCache (Fin 16),
      Run Moves (boot (fun _ => 0) (fun _ _ => 0) false ⟨id, id⟩) (threeReleases.map some) s ∧
      s.bufferGet 0 0 16 = some t ∧ t.storage.call 0 = .got 16 5 ∧
      ∃ b, OldestFree s [9, 2, 5] b ∧ t = s.hold 0 b (s.storage.recycle 0 0 16 b) := by
  have hRuns : (performAll operate
      (boot (fun _ => 0) (fun _ _ => 0) false ⟨id, id⟩ : LinkedCache (Fin 16)) threeReleases).any
        (fun s => decide (∀ b, s.storage.isFor 0 16 b = false) &&
          (s.bufferGet 0 0 16).any fun u => u.storage.call 0 == .got 16 5) = true := by
    decide +kernel
  obtain ⟨s, hCalls, hRuns⟩ := (Option.any_eq_true _ _).mp hRuns
  obtain ⟨hMiss, hRuns⟩ := Bool.and_eq_true_iff.mp hRuns
  obtain ⟨t, hGet, hGot⟩ := (Option.any_eq_true _ _).mp hRuns
  have hRun := moves_of_operate hCalls
  have hReleased : released (threeReleases.map some) = [9, 2, 5] := by decide
  have hOldest := (recycles_oldest hRun 0 0 16).1 (of_decide_eq_true hMiss) t hGet
  rw [hReleased] at hOldest
  exact ⟨s, t, hRun, hGet, by simpa using hGot, hOldest⟩

/-! ## §5 The events of the kernel -/

/-- The buffers released with an event, newest first. -/
def collectEvent (uses : List BufferId) : Event P → List BufferId
  | .release _ b => b :: uses
  | _ => uses

omit [DecidableEq P] in
theorem transfer_locks (s : Storage P) :
    s.transfer.order = s.order ∧ s.transfer.lockState = s.lockState := by
  unfold Storage.transfer
  split <;> exact ⟨rfl, rfl⟩

/-- What the kernel does with the cache are calls of the two operations, kills included. -/
theorem perform_moves {e : Event P} (hPerform : s.perform e = some t) :
    ∃ m, Moves s m t ∧ ∀ uses, collect uses m = collectEvent uses e := by
  -- an event that leaves order, locks and counts alone is no call of the two operations
  have hOther : ∀ {storage : Storage P}, storage.order = s.storage.order →
      storage.lockState = s.storage.lockState →
      ∃ m, Moves s m { s with storage := storage } ∧ ∀ uses, collect uses m = uses :=
    fun hOrder hLocks => ⟨none, .other ⟨rfl, hOrder, hLocks⟩, fun _ => rfl⟩
  cases e with
  | read p drive block =>
    obtain ⟨-, hGet⟩ := Option.ite_none_right_eq_some.mp hPerform
    exact ⟨some (.get p drive block), .call hGet, fun _ => rfl⟩
  | retry p =>
    simp only [perform] at hPerform
    split at hPerform
    · next drive block _ _ => exact ⟨some (.get p drive block), .call hPerform, fun _ => rfl⟩
    · cases hPerform
  | release p b =>
    obtain ⟨⟨-, hBusy⟩, hSome⟩ := Option.ite_none_right_eq_some.mp hPerform
    exact ⟨some (.release p b), .call ((if_pos hBusy).trans hSome), fun _ => rfl⟩
  | modify p b frame =>
    obtain ⟨-, hSome⟩ := Option.ite_none_right_eq_some.mp hPerform
    obtain rfl := Option.some.inj hSome
    have hSet := Storage.setBuffer_lockState (s := s.storage) b
      (f := fun e => { e with frame := frame }) fun _ => ⟨rfl, rfl⟩
    exact hOther rfl hSet
  | write p b block frame =>
    obtain ⟨-, hSome⟩ := Option.ite_none_right_eq_some.mp hPerform
    obtain rfl := Option.some.inj hSome
    have hSet := Storage.setBuffer_lockState (s := s.storage) b
      (f := fun e => { e with dirty := true }) fun _ => ⟨rfl, rfl⟩
    exact hOther (Storage.submit_order _ b) ((Storage.submit_lockState b).trans hSet)
  | readFrame p submitted =>
    obtain ⟨storage, hStorage, rfl⟩ := Option.map_eq_some_iff.mp hPerform
    simp only [Storage.perform] at hStorage
    split at hStorage
    · next block b _ =>
      obtain rfl := Option.some.inj hStorage
      unfold Storage.readFrame
      split
      · exact hOther rfl rfl
      · have hSet := Storage.setBuffer_lockState (s := s.storage) b
          (f := fun e => { e with dirty := false }) fun _ => ⟨rfl, rfl⟩
        exact hOther (Storage.submit_order _ b) ((Storage.submit_lockState b).trans hSet)
    · cases hStorage
  | readDone p =>
    obtain ⟨storage, hStorage, rfl⟩ := Option.map_eq_some_iff.mp hPerform
    simp only [Storage.perform] at hStorage
    split at hStorage
    · next b _ =>
      obtain rfl := Option.some.inj hStorage
      have hSet := Storage.setBuffer_lockState (s := s.storage) b
        (f := fun e => { e with valid := true }) fun _ => ⟨rfl, rfl⟩
      exact hOther rfl hSet
    · cases hStorage
  | writeDone p =>
    obtain ⟨storage, hStorage, rfl⟩ := Option.map_eq_some_iff.mp hPerform
    simp only [Storage.perform] at hStorage
    split at hStorage
    · obtain rfl := Option.some.inj hStorage
      exact hOther rfl rfl
    · cases hStorage
  | transfer =>
    obtain ⟨storage, hStorage, rfl⟩ := Option.map_eq_some_iff.mp hPerform
    obtain ⟨-, hSome⟩ := Option.ite_none_right_eq_some.mp hStorage
    obtain rfl := Option.some.inj hSome
    obtain ⟨hOrder, hLocks⟩ := transfer_locks s.storage
    exact hOther hOrder hLocks
  | interrupt served =>
    obtain ⟨storage, hStorage, rfl⟩ := Option.map_eq_some_iff.mp hPerform
    obtain ⟨-, hSome⟩ := Option.ite_none_right_eq_some.mp hStorage
    obtain rfl := Option.some.inj hSome
    exact hOther (Storage.interrupt_goes s.storage).order Storage.interrupt_lockState
  | kill p =>
    obtain rfl := Option.some.inj hPerform
    exact hOther rfl rfl

/-- Every run of the kernel is a run of calls of the two operations. -/
theorem run_moves {es : List (Event P)} (hRun : Run (fun s e t => s.perform e = some t) s es t)
    (uses : List BufferId) : ∃ ms : List (Option (Operation P)),
      Run Moves s ms t ∧ ms.foldl collect uses = es.foldl collectEvent uses := by
  induction hRun generalizing uses with
  | nil s => exact ⟨[], .nil s, rfl⟩
  | @cons _ _ _ e es hHead _ ih =>
    obtain ⟨m, hMoves, hCollect⟩ := perform_moves hHead
    obtain ⟨ms, hTail, hRest⟩ := ih (collectEvent uses e)
    refine ⟨m :: ms, .cons hMoves hTail, ?_⟩
    rw [List.foldl_cons, List.foldl_cons, hCollect, hRest]

end LinkedCache

end Xv6502.Block
