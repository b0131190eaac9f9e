import Xv6502.Block.CacheLinks
import Xv6502.Block.Owners
import Xv6502.Block.Requests
import Xv6502.Lib.Amortised
import Mathlib.Algebra.BigOperators.Fin
import Mathlib.Algebra.Order.BigOperators.Group.Finset

/-!
# The Block Layer Does Not Get Stuck

Nobody waits forever for a block. Processes sleep until a lock is given back or until the disk is
done, the disk works as long as there are requests, and a process that asks for a buffer holds no
other one, as all the callers in the kernel do it: so there is always somebody who can go on. And
nobody goes on forever: every request is paid for, with a price that depends on the number of
processes only, although a process that is woken up for a lock may find it taken again.
-/

namespace Xv6502.Block.Storage

open Xv6502.Emulator
open Xv6502.Lib
open Xv6502.Block

variable {P : Type} {s t : Storage P} {Q Q' R : List BufferId} {p q : P} {b c : BufferId}

/-! ## §1 The disk -/

/-- The driver is at one of the sectors of the first request. -/
def InBlock (s : Storage P) (Q : List BufferId) : Prop :=
  Q ≠ [] → s.sectorOffset < sectorsPerBlock

/-- A request joins the queue; the disk is started if it is the only one. -/
structure Enqueues (s t : Storage P) (Q : List BufferId) : Prop where
  busy : t.device.busy = true ∨ Q ≠ [] ∧ t.device.busy = s.device.busy
  pin : t.pin = s.pin
  offset : t.sectorOffset = if Q = [] then 0 else s.sectorOffset

/-- What `disk_interrupt` does, with the queue before and behind it. -/
inductive Interrupted (s t : Storage P) (Q : List BufferId) : List BufferId → Prop
  /-- There is nothing finished for anybody. -/
  | spurious (device : t.device = s.device) (offset : t.sectorOffset = s.sectorOffset)
      (call : t.call = s.call) : Interrupted s t Q Q
  /-- A sector is done that is not the last one. -/
  | sector (ready : s.device.busy = false) (queue : Q ≠ [])
      (more : s.sectorOffset + 1 < sectorsPerBlock) (offset : t.sectorOffset = s.sectorOffset + 1)
      (call : t.call = s.call) : Interrupted s t Q Q
  /-- A block is done, and the next request is begun. -/
  | block (b : BufferId) (R : List BufferId) (queue : Q = b :: R)
      (next : R ≠ [] → t.sectorOffset = 0) (done : R = [] → t.device.busy = false)
      (call : t.call = fun p => (s.call p).wake b) : Interrupted s t Q R

theorem Enqueues.inBlock (h : Enqueues s t Q) (hBlock : InBlock s Q) : InBlock t (Q ++ [b]) := by
  intro _
  rw [h.offset]
  split
  · decide
  · next hQ => exact hBlock hQ

theorem Interrupted.inBlock (h : Interrupted s t Q Q') (hBlock : InBlock s Q) : InBlock t Q' := by
  cases h with
  | spurious device offset call =>
    unfold InBlock
    rwa [offset]
  | sector ready queue more offset call =>
    intro _
    rw [offset]
    exact more
  | block b R queue next done call =>
    intro hR
    rw [next hR]
    decide

/-- `disk_submit` of a buffer that is not in the queue. -/
theorem Control.enqueues (h : Control s Q) (hb : b ∉ Q) : Enqueues s (s.submit b) Q := by
  refine ⟨?_, submit_proj Storage.pin (fun _ _ _ _ _ _ => rfl) s b, h.submit_sectorOffset hb⟩
  rcases List.eq_nil_or_concat' Q with rfl | ⟨L, last, rfl⟩
  · rw [h.submit_empty]
    exact .inl (startOperation_busy rfl)
  · rw [h.submit_behind hb]
    exact .inr ⟨by simp, rfl⟩

theorem interrupt_pin (s : Storage P) : s.interrupt.pin = false := by
  unfold Storage.interrupt
  dsimp only
  split
  · rfl
  · split
    · rfl
    · next b _ =>
      -- the handler lowers the pin first, and a start of the disk does not raise it
      by_cases hMore : s.sectorOffset + 1 < sectorsPerBlock
      · rw [finishSector_eq_advanced (s := { s with pin := false }) hMore, startOperation_eq]
        rfl
      · rw [finishSector_eq_popped (s := { s with pin := false }) (Nat.le_of_not_lt hMore)]
        split
        · rfl
        · rw [startOperation_eq]
          rfl

theorem Control.interrupted (h : Control s Q) {served : Option (BufferId × Nat)} :
    Interrupted s s.interrupt Q (s.nextQueue Q (.interrupt served)) := by
  unfold nextQueue
  -- the disk is still busy: the interrupt is a stale one
  by_cases hBusy : s.device.busy = true
  · rw [if_neg (by simp [hBusy]), Storage.interrupt, if_pos hBusy]
    exact .spurious rfl rfl rfl
  · have hReady : s.device.busy = false := by simpa using hBusy
    cases Q with
    | nil =>
      have hHead : s.head = none := h.chain
      rw [interrupt_of_none hHead, List.tail_nil, ite_self]
      exact .spurious rfl rfl rfl
    | cons b R =>
      have hHead : s.head = some b := h.chain.1
      have hRest : (s.buffer b).queue = R.head? := h.chain.2.head_eq
      rw [interrupt_of_head hReady hHead]
      by_cases hMore : s.sectorOffset + 1 < sectorsPerBlock
      · rw [if_neg (by omega), finishSector_eq_advanced (s := { s with pin := false }) hMore,
          startOperation_eq]
        exact .sector hReady (by simp) hMore rfl rfl
      -- the last sector: the request leaves the queue and the next one starts
      · rw [if_pos ⟨hReady, by omega⟩, List.tail_cons,
          finishSector_eq_popped (s := { s with pin := false }) (Nat.le_of_not_lt hMore)]
        cases R with
        | nil =>
          have hNone : (s.buffer b).queue = none := hRest
          rw [if_pos hNone]
          exact .block b [] rfl (absurd rfl) (fun _ => hReady) rfl
        | cons d L =>
          have hNext : (s.buffer b).queue = some d := hRest
          rw [if_neg (by simp [hNext]), startOperation_eq]
          exact .block b (d :: L) rfl (fun _ => rfl) (by simp) rfl

/-! ## §2 Prices -/

/-- The event begins something. The others go on with what has been begun: the processes come back
    from their calls and give their buffers back, and the disk works. -/
def Event.begins : Event P → Bool
  | .read _ _ _ => true
  | .modify _ _ _ => true
  | .write _ _ _ _ => true
  | .kill _ => true
  | _ => false

/-- What a request costs among `n` processes. -/
def price (n : Nat) : Nat := 2 * n + 30

/-- What an event that begins something pays for. -/
def Event.credit (n : Nat) (e : Event P) : Nat := if e.begins then price n else 0

/-- What a process still has to do. Someone who looks for a buffer pays for one more look whenever
    he goes to sleep, and the one who wakes him up gives it back to him. -/
def callCost (n : Nat) : Call → Nat
  | .none => 0
  | .locking _ _ _ asleep => 2 * n + 29 + (!asleep).toNat
  | .got _ _ => 2 * n + 29
  | .reading _ _ _ => n + 2
  | .writing _ _ => 1

/-- The holder of a buffer can wake up everybody. -/
def useCost (n : Nat) : Use P → Nat
  | .held _ _ => n + 1
  | _ => 0

/-- The disk has three events for each sector, and can wake up everybody behind each block. -/
def diskCost (n : Nat) (s : Storage P) (Q : List BufferId) : Nat :=
  3 * (sectorsPerBlock * Q.length - s.sectorOffset) + n * Q.length + 2 * s.device.busy.toNat +
    s.pin.toNat

section Costs

variable (n : Nat)

@[simp] theorem callCost_none : callCost n .none = 0 := rfl

@[simp] theorem callCost_locking (drive : Byte) (block : Word) (b : BufferId) (asleep : Bool) :
    callCost n (.locking drive block b asleep) = 2 * n + 29 + (!asleep).toNat := rfl

@[simp] theorem callCost_got (block : Word) (b : BufferId) :
    callCost n (.got block b) = 2 * n + 29 := rfl

@[simp] theorem callCost_reading (block : Word) (b : BufferId) (asleep : Bool) :
    callCost n (.reading block b asleep) = n + 2 := rfl

@[simp] theorem callCost_writing (b : BufferId) (asleep : Bool) :
    callCost n (.writing b asleep) = 1 := rfl

@[simp] theorem useCost_free : useCost n (.free : Use P) = 0 := rfl

@[simp] theorem useCost_fetching (p : P) : useCost n (.fetching p) = 0 := rfl

@[simp] theorem useCost_held (p : P) (changed : Bool) : useCost n (.held p changed) = n + 1 := rfl

end Costs

theorem callCost_wake (n : Nat) (call : Call) (b : BufferId) :
    callCost n (call.wake b) ≤ callCost n call + 1 := by
  cases call with
  | locking drive block c asleep =>
    have hOne := Bool.toNat_le (!(asleep && c != b))
    simp only [Call.wake, callCost]
    omega
  | _ => exact Nat.le_succ _

theorem callCost_awake_le (n : Nat) (call : Call) :
    callCost n (Call.awake call) ≤ callCost n call + 1 := by
  cases call with
  | locking drive block c asleep =>
    simp only [Call.awake, callCost_locking, Bool.not_false, Bool.toNat_true]
    omega
  | _ => exact Nat.le_succ _

theorem Enqueues.cost {n : Nat} (h : Enqueues s t Q) (hBlock : InBlock s Q) :
    t.diskCost n (Q ++ [b]) ≤ s.diskCost n Q + (n + 26) := by
  have hBusy := Bool.toNat_le t.device.busy
  have hLength : n * (Q.length + 1) = n * Q.length + n := Nat.mul_succ _ _
  unfold diskCost
  rw [List.length_append, List.length_singleton, hLength, h.offset, h.pin]
  -- the disk was idle and starts at once, or the request pays for its turn in the queue
  split
  · next hQ =>
    rw [hQ, List.length_nil]
    unfold sectorsPerBlock
    omega
  · next hQ =>
    have hLt := hBlock hQ
    have hPos := List.length_pos_iff.mpr hQ
    unfold sectorsPerBlock at *
    omega

/-- What `disk_interrupt` does is paid for, and if it wakes somebody up, for everybody. -/
theorem Interrupted.pays {n : Nat} (h : Interrupted s t Q Q') (hBlock : InBlock s Q)
    (hBefore : s.pin = true) (hAfter : t.pin = false) :
    t.call = s.call ∧ t.diskCost n Q' + 1 ≤ s.diskCost n Q ∨
      (∃ b, t.call = fun p => (s.call p).wake b) ∧
        t.diskCost n Q' + (n + 1) ≤ s.diskCost n Q := by
  have hBusy := Bool.toNat_le t.device.busy
  unfold diskCost
  rw [hBefore, hAfter]
  cases h with
  -- the pin goes down and costs nothing more
  | spurious device offset call =>
    left
    rw [device, offset]
    exact ⟨call, Nat.le_refl _⟩
  -- one sector less to come
  | sector ready queue more offset call =>
    left
    have hPos := List.length_pos_iff.mpr queue
    rw [offset, ready]
    refine ⟨call, ?_⟩
    unfold sectorsPerBlock at *
    simp only [Bool.toNat_true, Bool.toNat_false]
    omega
  -- the sectors of the next request have been paid for when it was submitted
  | block b R queue next done call =>
    right
    have hLength : n * (Q'.length + 1) = n * Q'.length + n := Nat.mul_succ _ _
    have hLt := hBlock (by simp [queue])
    refine ⟨⟨b, call⟩, ?_⟩
    rw [queue, List.length_cons, hLength]
    unfold sectorsPerBlock at *
    simp only [Bool.toNat_true, Bool.toNat_false]
    by_cases hR : Q' = []
    · rw [done hR, hR]
      simp
      omega
    · have hPos := List.length_pos_iff.mpr hR
      rw [next hR]
      omega

section Steps

variable [DecidableEq P] [Fintype P]

/-- What the processes still have to do. -/
def work (s : Storage P) : Nat :=
  ∑ p, callCost (Fintype.card P) (s.call p) + ∑ b, useCost (Fintype.card P) (s.use b)

/-- One value of a sum is replaced. -/
theorem sum_update {α β : Type} [Fintype α] [DecidableEq α] (f : β → Nat) (g : α → β) (a : α)
    (v : β) : ∑ x, f (Function.update g a v x) + f (g a) = ∑ x, f (g x) + f v := by
  have hNew : ∑ x, f (Function.update g a v x) = f v + ∑ x ∈ Finset.univ.erase a, f (g x) := by
    rw [← Finset.add_sum_erase _ _ (Finset.mem_univ a), Function.update_self]
    congr 1
    apply Finset.sum_congr rfl
    intro x hx
    rw [Function.update_of_ne (Finset.ne_of_mem_erase hx)]
  have hOld := Finset.add_sum_erase Finset.univ (fun x => f (g x)) (Finset.mem_univ a)
  omega

/-- A process goes on with a buffer. -/
theorem work_update {call : Call} {use : Use P} (hCall : t.call = Function.update s.call p call)
    (hUse : t.use = Function.update s.use b use) :
    t.work + callCost (Fintype.card P) (s.call p) + useCost (Fintype.card P) (s.use b) =
      s.work + callCost (Fintype.card P) call + useCost (Fintype.card P) use := by
  have hCalls := sum_update (callCost (Fintype.card P)) s.call p call
  have hUses := sum_update (useCost (Fintype.card P)) s.use b use
  unfold work
  rw [hCall, hUse]
  omega

/-- A process goes on without changing the use of a buffer. -/
theorem work_call {call : Call} (hCall : t.call = Function.update s.call p call)
    (hUse : t.use = s.use) :
    t.work + callCost (Fintype.card P) (s.call p) = s.work + callCost (Fintype.card P) call := by
  have hCalls := sum_update (callCost (Fintype.card P)) s.call p call
  unfold work
  rw [hCall, hUse]
  omega

omit [DecidableEq P] in
/-- Waking up costs at most one look for each process. -/
theorem sum_wake (s : Storage P) (b : BufferId) :
    ∑ p, callCost (Fintype.card P) ((s.call p).wake b) ≤
      ∑ p, callCost (Fintype.card P) (s.call p) + Fintype.card P := by
  calc ∑ p, callCost (Fintype.card P) ((s.call p).wake b)
      ≤ ∑ p, (callCost (Fintype.card P) (s.call p) + 1) :=
        Finset.sum_le_sum fun p _ => callCost_wake _ _ b
    _ = ∑ p, callCost (Fintype.card P) (s.call p) + Fintype.card P := by
        rw [Finset.sum_add_distrib, Finset.sum_const, Finset.card_univ, smul_eq_mul, Nat.mul_one]

omit [DecidableEq P] in
theorem release_work (s : Storage P) (b : BufferId) :
    (s.bufferRelease b).work + useCost (Fintype.card P) (s.use b) ≤ s.work + Fintype.card P := by
  have hWake := sum_wake s b
  have hUses := sum_update (useCost (Fintype.card P)) s.use b .free
  rw [useCost_free] at hUses
  rw [bufferRelease_eq]
  unfold work
  dsimp only
  omega

end Steps

/-! ## §3 One buffer for each process -/

/-- The process is in `buffer_get`. -/
def Call.looks : Call → Prop
  | .locking _ _ _ _ => True
  | _ => False

/-- A process has at most one buffer, and none while it looks for one. -/
structure Frugal (s : Storage P) : Prop where
  waiting : ∀ p b, (s.use b).owner = some p → ¬ Call.looks (s.call p)
  single : ∀ p b c, (s.use b).owner = some p → (s.use c).owner = some p → b = c

theorem looks_awake {call : Call} : Call.looks (Call.awake call) ↔ Call.looks call := by
  cases call <;> exact Iff.rfl

/-- A step that gives nobody a buffer and lets nobody look for one. -/
theorem Frugal.mono (h : Frugal s) (hOwner : ∀ b p, (t.use b).owner = some p →
      (s.use b).owner = some p) (hLooks : ∀ p, Call.looks (t.call p) → Call.looks (s.call p)) :
    Frugal t where
  waiting p b hOwn hLook := h.waiting p b (hOwner b p hOwn) (hLooks p hLook)
  single p b c hb hc := h.single p b c (hOwner b p hb) (hOwner c p hc)

section Invariant

variable [DecidableEq P] {drive : Byte} {block : Word}

/-- A process asks for a buffer only if it has none, and nobody asleep in `disk_submit` is woken
    up by a kill. -/
def Thrifty (s : Storage P) (e : Event P) : Prop :=
  s.SparesRequests e ∧
    match e with
    | .read p _ _ => ∀ b, (s.use b).owner ≠ some p
    | _ => True

/-- `buffer_get` of a process without a buffer. -/
theorem Frugal.bufferGet (h : Frugal s) (hControl : Control s Q)
    (hNone : ∀ b, (s.use b).owner ≠ some p) (hGet : s.bufferGet p drive block = some t) :
    Frugal t := by
  rcases hControl.bufferGet_cases hGet with ⟨b, rfl⟩ | ⟨b, -, hCall, hUse, -, -⟩
  · refine ⟨fun q c hOwner => ?_, h.single⟩
    have hq : q ≠ p := by
      rintro rfl
      exact hNone c hOwner
    simp only [setCall, Function.update_of_ne hq]
    exact h.waiting q c hOwner
  · -- the process has the new buffer only, and the others have what they had
    have hOld : ∀ q c, (t.use c).owner = some q → (q = p ∧ c = b) ∨
        (q ≠ p ∧ (s.use c).owner = some q) := by
      intro q c hOwner
      rw [hUse] at hOwner
      by_cases hc : c = b
      · rw [hc, Function.update_self] at hOwner
        exact .inl ⟨(Option.some.inj hOwner).symm, hc⟩
      · rw [Function.update_of_ne hc] at hOwner
        refine .inr ⟨?_, hOwner⟩
        rintro rfl
        exact hNone c hOwner
    constructor
    · intro q c hOwner
      rw [hCall]
      rcases hOld q c hOwner with ⟨rfl, -⟩ | ⟨hq, hOwn⟩
      · rw [Function.update_self]
        exact id
      · rw [Function.update_of_ne hq]
        exact h.waiting q c hOwn
    · intro q c d hc hd
      rcases hOld q c hc with ⟨rfl, rfl⟩ | ⟨hq, hOwn⟩
      · rcases hOld q d hd with ⟨-, rfl⟩ | ⟨hq, -⟩
        · rfl
        · exact absurd rfl hq
      · rcases hOld q d hd with ⟨rfl, -⟩ | ⟨-, hOwn'⟩
        · exact absurd rfl hq
        · exact h.single q c d hOwn hOwn'

/-- **Step lemma**: the processes stay with one buffer. -/
theorem Frugal.step {e : Event P} (h : Frugal s) (hControl : Control s Q) (hStep : s.Step e t)
    (hThrifty : s.Thrifty e) : Frugal t := by
  -- only an event that looks for a buffer can give a process a new one
  by_cases hSeeks : s.seeks e = none
  · apply h.mono
    · intro c q hOwner
      by_cases hActor : e.actor = some q
      · rcases hControl.owned hStep hActor hOwner with ⟨hOld, -⟩ | hNew
        · exact hOld
        · rw [hSeeks] at hNew
          cases hNew
      · exact (hControl.spared hStep hActor).owner c hOwner
    · intro q hLooks
      by_cases hActor : e.actor = some q
      · cases hCall : t.call q with
        | locking d n b asleep =>
          rcases hControl.locking_of_step hStep hActor hCall with hNew | ⟨asleep', hOld⟩
          · rw [hSeeks] at hNew
            cases hNew
          · rw [hOld]
            trivial
        | _ =>
          rw [hCall] at hLooks
          exact absurd hLooks id
      · rwa [← looks_awake, ← (hControl.spared hStep hActor).call, looks_awake]
  · obtain ⟨-, hPerform⟩ := hStep
    cases e with
    | read p drive block =>
      exact h.bufferGet hControl hThrifty.2 (Option.ite_none_right_eq_some.mp hPerform).2
    | retry p =>
      simp only [perform] at hPerform
      split at hPerform
      · next hCall =>
        refine h.bufferGet hControl (fun b hOwner => h.waiting p b hOwner ?_) hPerform
        rw [hCall]
        trivial
      · cases hPerform
    | _ => exact absurd rfl hSeeks

/-- Nobody sleeps behind a kill. -/
theorem Attended.kill (h : Attended s) (p : P) :
    Attended { s with call := Function.update s.call p (Call.awake (s.call p)) } := by
  constructor
  · intro b q hFetching
    have hUses := h.fetching b q hFetching
    -- the victim is awake and still in its call; the others are as before
    by_cases hq : q = p
    · subst hq
      simp only [Function.update_self]
      cases hCall : s.call q with
      | _ =>
        rw [hCall] at hUses
        exact hUses
    · simpa only [Function.update_of_ne hq] using hUses
  · intro q b hSleeps
    by_cases hq : q = p
    · subst hq
      simp only [Function.update_self] at hSleeps
      cases hCall : s.call q with
      | _ =>
        rw [hCall] at hSleeps
        simp [Call.awake, Call.sleepsOn] at hSleeps
    · simp only [Function.update_of_ne hq] at hSleeps
      exact h.sleepers q b hSleeps

/-- The invariant. -/
structure Live (s : Storage P) (Q : List BufferId) : Prop where
  control : Control s Q
  attended : Attended s
  driven : Driven s Q
  inBlock : InBlock s Q
  frugal : Frugal s

/-! ## §4 Every step is paid for -/

omit [DecidableEq P] in
theorem diskCost_congr (n : Nat) (hDevice : t.device = s.device) (hPin : t.pin = s.pin)
    (hOffset : t.sectorOffset = s.sectorOffset) : t.diskCost n Q = s.diskCost n Q := by
  unfold diskCost
  rw [hDevice, hPin, hOffset]

omit [DecidableEq P] in
theorem InBlock.congr (h : InBlock s Q) (hOffset : t.sectorOffset = s.sectorOffset) :
    InBlock t Q := by
  unfold InBlock
  rwa [hOffset]

theorem bufferGet_offset (hGet : s.bufferGet p drive block = some t) :
    t.sectorOffset = s.sectorOffset := by
  unfold Storage.bufferGet at hGet
  split at hGet
  · split at hGet
    · obtain rfl := Option.some.inj hGet
      rfl
    · obtain rfl := Option.some.inj hGet
      rfl
  · obtain ⟨b, -, rfl⟩ := Option.map_eq_some_iff.mp hGet
    rfl

/-- `disk_submit` of a buffer by its owner, with the bit that tells the direction. -/
theorem Control.enqueues_marked (h : Control s Q) (hOwner : (s.use b).owner = some p) (hb : b ∉ Q)
    (dirty : Bool) (call : Call) :
    Enqueues s (((s.setBuffer b fun e => { e with dirty := dirty }).submit b).setCall p call) Q := by
  have hMarked : Control (s.setBuffer b fun e => { e with dirty := dirty }) Q :=
    h.rebuffer (h.busy_of_owner hOwner) { s.buffer b with dirty := dirty } ⟨rfl, rfl, rfl, rfl, rfl⟩
  have hDisk := hMarked.enqueues hb
  exact ⟨hDisk.busy, hDisk.pin, hDisk.offset⟩

variable [Fintype P]

/-- What is left to do, with the queue at hand. -/
def due (s : Storage P) (Q : List BufferId) : Nat := s.work + s.diskCost (Fintype.card P) Q

/-- A look for a buffer, whether it finds one or not. -/
theorem Control.bufferGet_work (h : Control s Q) (hGet : s.bufferGet p drive block = some t) :
    t.work + callCost (Fintype.card P) (s.call p) = s.work + (2 * Fintype.card P + 29) := by
  rcases h.bufferGet_cases hGet with ⟨b, rfl⟩ | ⟨b, hFree, hCall, hUse, -, -⟩
  · have hWork := work_call (s := s) (t := s.setCall p (.locking drive block b true)) rfl rfl
    simpa using hWork
  · have hWork := work_update hCall hUse
    simpa [hFree] using hWork

omit [DecidableEq P] in
/-- A step that leaves the disk alone. -/
theorem paid_still {d : Nat} (hDevice : t.device = s.device) (hPin : t.pin = s.pin)
    (hOffset : t.sectorOffset = s.sectorOffset) (hBlock : InBlock s Q)
    (hWork : t.work + 1 ≤ s.work + d) : InBlock t Q ∧ t.due Q + 1 ≤ s.due Q + d := by
  refine ⟨hBlock.congr hOffset, ?_⟩
  unfold due
  rw [diskCost_congr _ hDevice hPin hOffset]
  omega

omit [DecidableEq P] in
/-- A step that submits a buffer. -/
theorem paid_submit {d : Nat} (hDisk : Enqueues s t Q) (hBlock : InBlock s Q)
    (hWork : t.work + (Fintype.card P + 27) ≤ s.work + d) :
    InBlock t (Q ++ [b]) ∧ t.due (Q ++ [b]) + 1 ≤ s.due Q + d := by
  refine ⟨hDisk.inBlock hBlock, ?_⟩
  have hCost := hDisk.cost (b := b) (n := Fintype.card P) hBlock
  unfold due
  omega

/-- The step is paid for by its own credit. -/
def Paid (s : Storage P) (Q : List BufferId) (e : Event P) (t : Storage P) : Prop :=
  InBlock t (s.nextQueue Q e) ∧
    t.due (s.nextQueue Q e) + 1 ≤ s.due Q + e.credit (Fintype.card P)

/-- `buffer_read` looks for a buffer. -/
theorem Live.read_paid (h : Live s Q) (hPerform : s.perform (.read p drive block) = some t) :
    Paid s Q (.read p drive block) t := by
  obtain ⟨-, hGet⟩ := Option.ite_none_right_eq_some.mp hPerform
  obtain ⟨hDevice, hPin⟩ := bufferGet_device hGet
  have hWork := h.control.bufferGet_work hGet
  refine paid_still hDevice hPin (bufferGet_offset hGet) h.inBlock ?_
  show t.work + 1 ≤ s.work + (2 * Fintype.card P + 30)
  omega

/-- A process that has slept on a buffer looks again. -/
theorem Live.retry_paid (h : Live s Q) (hPerform : s.perform (.retry p) = some t) :
    Paid s Q (.retry p) t := by
  simp only [perform] at hPerform
  split at hPerform
  · next d n b hCall =>
    obtain ⟨hDevice, hPin⟩ := bufferGet_device hPerform
    have hWork := h.control.bufferGet_work hPerform
    rw [hCall, callCost_locking, Bool.not_false, Bool.toNat_true] at hWork
    refine paid_still hDevice hPin (bufferGet_offset hPerform) h.inBlock ?_
    show t.work + 1 ≤ s.work + 0
    omega
  · cases hPerform

/-- `buffer_read` has its buffer, and submits it if it is not valid. -/
theorem Live.readFrame_paid (h : Live s Q) {submitted : Option BufferId}
    (hLabels : submitted = s.toSubmit p)
    (hPerform : s.perform (.readFrame p submitted) = some t) :
    Paid s Q (.readFrame p submitted) t := by
  simp only [perform] at hPerform
  split at hPerform
  · next block b hCall =>
    obtain rfl := Option.some.inj hPerform
    have hOwn := h.control.calls p
    rw [hCall] at hOwn
    obtain ⟨hUse, hb, -⟩ := hOwn
    have hSubmitted : submitted = if (s.buffer b).valid then none else some b := by
      rw [hLabels, toSubmit, hCall]
    rw [Paid, nextQueue, hSubmitted]
    unfold Storage.readFrame
    -- a valid buffer is returned at once, another one waits for the disk
    by_cases hValid : (s.buffer b).valid = true
    · rw [if_pos hValid, if_pos hValid, Option.toList_none, List.append_nil]
      have hWork := work_update (s := s) (t := s.returnBuffer p b) rfl rfl
      rw [hUse, hCall, callCost_got, callCost_none, useCost_fetching, useCost_held] at hWork
      refine paid_still rfl rfl rfl h.inBlock ?_
      show (s.returnBuffer p b).work + 1 ≤ s.work + 0
      omega
    · rw [if_neg hValid, if_neg hValid, Option.toList_some]
      have hDisk := h.control.enqueues_marked (p := p) (by rw [hUse]; rfl) hb false
        (.reading block b true)
      refine paid_submit hDisk h.inBlock ?_
      have hWork := work_call (s := s) (t := ((s.setBuffer b fun e =>
        { e with dirty := false }).submit b).setCall p (.reading block b true))
        (by simp only [setCall, submit_call]; rfl) (submit_use _ b)
      rw [hCall, callCost_got, callCost_reading] at hWork
      show _ ≤ s.work + 0
      omega
  · cases hPerform

/-- `disk_submit` of `buffer_read` returns. -/
theorem Live.readDone_paid (h : Live s Q) (hPerform : s.perform (.readDone p) = some t) :
    Paid s Q (.readDone p) t := by
  simp only [perform] at hPerform
  split at hPerform
  · next block b hCall =>
    obtain rfl := Option.some.inj hPerform
    have hOwn := h.control.calls p
    rw [hCall] at hOwn
    have hWork := work_update (s := s) (t := s.readDone p b) rfl rfl
    rw [hOwn.1, hCall, callCost_reading, callCost_none, useCost_fetching, useCost_held] at hWork
    refine paid_still rfl rfl rfl h.inBlock ?_
    show (s.readDone p b).work + 1 ≤ s.work + 0
    omega
  · cases hPerform

/-- The holder of a buffer changes its data. -/
theorem Live.modify_paid (h : Live s Q) {frame : Nat → Byte}
    (hPerform : s.perform (.modify p b frame) = some t) :
    Paid s Q (.modify p b frame) t := by
  obtain ⟨hHand, hSome⟩ := Option.ite_none_right_eq_some.mp hPerform
  obtain rfl := Option.some.inj hSome
  obtain ⟨hCall, changed, hUse⟩ := atHand_iff.mp hHand
  refine paid_still rfl rfl rfl h.inBlock ?_
  have hWork := work_update (s := s) (t := { s.setBuffer b fun e => { e with frame := frame } with
    use := Function.update s.use b (.held p true) }) (Function.update_eq_self p s.call).symm rfl
  rw [hUse, useCost_held, useCost_held] at hWork
  show _ ≤ s.work + (2 * Fintype.card P + 30)
  omega

/-- `buffer_write` submits the buffer. -/
theorem Live.write_paid (h : Live s Q) {frame : Nat → Byte}
    (hPerform : s.perform (.write p b block frame) = some t) :
    Paid s Q (.write p b block frame) t := by
  obtain ⟨⟨hHand, -⟩, hSome⟩ := Option.ite_none_right_eq_some.mp hPerform
  obtain rfl := Option.some.inj hSome
  obtain ⟨hCall, changed, hUse⟩ := atHand_iff.mp hHand
  have hOwner : (s.use b).owner = some p := by rw [hUse]; rfl
  have hb : b ∉ Q := h.control.not_queued_of_owner hOwner (by rw [hCall]; exact id)
  have hDisk := h.control.enqueues_marked hOwner hb true (.writing b true)
  refine paid_submit (s := s) (t := s.bufferWrite p b) ⟨hDisk.busy, hDisk.pin, hDisk.offset⟩
    h.inBlock ?_
  have hNewCall : (s.bufferWrite p b).call = Function.update s.call p (.writing b true) := by
    simp only [Storage.bufferWrite, setCall, submit_call]
    rfl
  have hNewUse : (s.bufferWrite p b).use = Function.update s.use b (.held p false) := by
    simp only [Storage.bufferWrite, setCall, submit_use]
    rfl
  -- the request is paid for by the call that makes it
  have hWork := work_update hNewCall hNewUse
  rw [hCall, hUse, callCost_none, callCost_writing, useCost_held, useCost_held] at hWork
  show _ ≤ s.work + (2 * Fintype.card P + 30)
  omega

/-- `disk_submit` of `buffer_write` returns. -/
theorem Live.writeDone_paid (h : Live s Q) (hPerform : s.perform (.writeDone p) = some t) :
    Paid s Q (.writeDone p) t := by
  simp only [perform] at hPerform
  split at hPerform
  · next b hCall =>
    obtain rfl := Option.some.inj hPerform
    have hWork := work_call (s := s) (t := s.setCall p .none) rfl rfl
    rw [hCall, callCost_writing, callCost_none] at hWork
    refine paid_still rfl rfl rfl h.inBlock ?_
    show (s.setCall p .none).work + 1 ≤ s.work + 0
    omega
  · cases hPerform

/-- `buffer_release`. -/
theorem Live.release_paid (h : Live s Q) (hPerform : s.perform (.release p b) = some t) :
    Paid s Q (.release p b) t := by
  obtain ⟨⟨hHand, -⟩, hSome⟩ := Option.ite_none_right_eq_some.mp hPerform
  obtain rfl := Option.some.inj hSome
  obtain ⟨-, changed, hUse⟩ := atHand_iff.mp hHand
  have hWork := release_work s b
  rw [hUse, useCost_held] at hWork
  rw [bufferRelease_eq] at hWork ⊢
  refine paid_still rfl rfl rfl h.inBlock ?_
  show _ ≤ s.work + 0
  omega

/-- The disk transfers a sector. -/
theorem Live.transfer_paid (h : Live s Q) (hPerform : s.perform .transfer = some t) :
    Paid s Q .transfer t := by
  obtain ⟨hBusy, hSome⟩ := Option.ite_none_right_eq_some.mp hPerform
  obtain rfl := Option.some.inj hSome
  have hSame : s.transfer.sectorOffset = s.sectorOffset ∧ s.transfer.device.busy = false ∧
      s.transfer.pin = true := by
    unfold Storage.transfer
    split <;> exact ⟨rfl, rfl, rfl⟩
  obtain ⟨hOffset, hReady, hPin⟩ := hSame
  obtain ⟨hUse, hCall, -⟩ := transfer_use s
  refine ⟨h.inBlock.congr hOffset, ?_⟩
  have hOne := Bool.toNat_le s.pin
  simp only [nextQueue, due, work, diskCost, hUse, hCall, hOffset, hReady, hPin, hBusy,
    Bool.toNat_true, Bool.toNat_false]
  omega

/-- `disk_interrupt`: the next sector, or the next request and a wakeup. -/
theorem Live.interrupt_paid (h : Live s Q) {served : Option (BufferId × Nat)}
    (hPerform : s.perform (.interrupt served) = some t) :
    Paid s Q (.interrupt served) t := by
  obtain ⟨hPin, hSome⟩ := Option.ite_none_right_eq_some.mp hPerform
  obtain rfl := Option.some.inj hSome
  -- a stale interrupt, one sector more, or a block done with a wakeup of its sleepers
  have hDisk : Interrupted s s.interrupt Q (s.nextQueue Q (.interrupt served)) :=
    h.control.interrupted
  refine ⟨hDisk.inBlock h.inBlock, ?_⟩
  have hUse := (interrupt_use s).1
  unfold due work
  rw [hUse]
  rcases hDisk.pays (n := Fintype.card P) h.inBlock hPin (interrupt_pin s) with
    ⟨hCall, hCost⟩ | ⟨⟨b, hCall⟩, hCost⟩
  · rw [hCall]
    omega
  · have hWake := sum_wake s b
    simp only [hCall]
    omega

/-- `sys_kill` wakes a process up, which is paid for by its kill. -/
theorem Live.kill_paid (h : Live s Q) (hPerform : s.perform (.kill p) = some t) :
    Paid s Q (.kill p) t := by
  obtain rfl := Option.some.inj hPerform
  have hWork := work_call (s := s)
    (t := { s with call := Function.update s.call p (Call.awake (s.call p)) }) rfl rfl
  have hOne := callCost_awake_le (Fintype.card P) (s.call p)
  refine paid_still rfl rfl rfl h.inBlock ?_
  show _ ≤ s.work + (2 * Fintype.card P + 30)
  omega

/-- **Step lemma**: every step is paid for. -/
theorem Live.paid {e : Event P} (h : Live s Q) (hStep : s.Step e t) : Paid s Q e t := by
  obtain ⟨hLabels, hPerform⟩ := hStep
  cases e with
  | read p drive block => exact h.read_paid hPerform
  | retry p => exact h.retry_paid hPerform
  | readFrame p submitted => exact h.readFrame_paid hLabels hPerform
  | readDone p => exact h.readDone_paid hPerform
  | modify p b frame => exact h.modify_paid hPerform
  | write p b block frame => exact h.write_paid hPerform
  | writeDone p => exact h.writeDone_paid hPerform
  | release p b => exact h.release_paid hPerform
  | transfer => exact h.transfer_paid hPerform
  | interrupt served => exact h.interrupt_paid hPerform
  | kill p => exact h.kill_paid hPerform

/-- **Step lemma**: the invariant is kept. -/
theorem Live.step {e : Event P} (h : Live s Q) (hStep : s.Step e t) (hThrifty : s.Thrifty e) :
    Live t (s.nextQueue Q e) where
  control := h.control.step hStep hThrifty.1
  attended := by
    by_cases hKill : ∃ p, e = .kill p
    · obtain ⟨p, rfl⟩ := hKill
      obtain rfl := Option.some.inj hStep.2
      exact h.attended.kill p
    · exact h.attended.move (h.control.move hStep.2 fun p hEq => hKill ⟨p, hEq⟩)
  driven := h.driven.step h.control hStep
  inBlock := (h.paid hStep).1
  frugal := h.frugal.step h.control hStep hThrifty

/-- Something that has been begun can go on. -/
def GoesOn (s : Storage P) : Prop := ∃ e t, e.begins = false ∧ s.Step e t

/-- All the calls have returned, all the buffers have been given back, and the disk is idle. -/
structure AtRest (s : Storage P) : Prop where
  call : ∀ p, s.call p = .none
  use : ∀ b, s.use b = .free
  requests : s.requests = []
  ready : s.device.busy = false
  pin : s.pin = false

omit [Fintype P]

/-- The disk goes on. -/
theorem goesOn_of_disk (h : s.device.busy = true ∨ s.pin = true) : s.GoesOn := by
  rcases h with hBusy | hPin
  · exact ⟨.transfer, s.transfer, rfl, trivial, if_pos hBusy⟩
  · exact ⟨.interrupt s.served, s.interrupt, rfl, rfl, if_pos hPin⟩

/-- A process that has begun to read or write goes on, or the disk does so for it. -/
theorem Live.goesOn_of_call (h : Live s Q) (hCall : s.call p ≠ .none)
    (hLooks : ¬ Call.looks (s.call p)) : s.GoesOn := by
  have hOk := h.control.calls p
  have hQueued : ∀ {b}, b ∈ Q → s.GoesOn := fun hb =>
    goesOn_of_disk (h.driven (List.ne_nil_of_mem hb))
  -- an awake process goes on by itself; a sleeping one has its buffer in the queue
  cases hAt : s.call p with
  | none => exact absurd hAt hCall
  | locking drive block b asleep =>
    rw [hAt] at hLooks
    exact absurd trivial hLooks
  | got block b =>
    exact ⟨.readFrame p (s.toSubmit p), s.readFrame p block b, rfl, rfl, by simp [perform, hAt]⟩
  | reading block b asleep =>
    cases asleep with
    | true =>
      rw [hAt] at hOk
      exact hQueued (hOk.2.1.mp rfl)
    | false => exact ⟨.readDone p, s.readDone p b, rfl, trivial, by simp [perform, hAt]⟩
  | writing b asleep =>
    cases asleep with
    | true =>
      rw [hAt] at hOk
      exact hQueued (hOk.2.mp rfl)
    | false => exact ⟨.writeDone p, s.setCall p .none, rfl, trivial, by simp [perform, hAt]⟩

/-- The owner of a buffer goes on: he does not look for another one. -/
theorem Live.goesOn_of_owner (h : Live s Q) (hOwner : (s.use b).owner = some p) : s.GoesOn := by
  -- between calls the owner has the buffer at hand; inside one it waits for no other buffer
  by_cases hCall : s.call p = .none
  · cases hUse : s.use b with
    | free =>
      rw [hUse] at hOwner
      cases hOwner
    | fetching q =>
      have hUses := h.attended.fetching b q hUse
      rw [hUse] at hOwner
      obtain rfl := Option.some.inj hOwner
      rw [hCall] at hUses
      exact absurd hUses id
    | held q changed =>
      rw [hUse] at hOwner
      obtain rfl := Option.some.inj hOwner
      have hHand : s.atHand q b = true := atHand_iff.mpr ⟨hCall, changed, hUse⟩
      have hBusy := h.control.busy_of_owner (b := b) (p := q) (by rw [hUse]; rfl)
      exact ⟨.release q b, s.bufferRelease b, rfl, trivial, if_pos ⟨hHand, hBusy⟩⟩
  · exact h.goesOn_of_call hCall (h.frugal.waiting p b hOwner)

/-- A buffer that is locked has an owner. -/
theorem Live.goesOn_of_locked (h : Live s Q) (hUse : s.use b ≠ .free) : s.GoesOn := by
  cases hEq : s.use b with
  | free => exact absurd hEq hUse
  | fetching p => exact h.goesOn_of_owner (p := p) (b := b) (by rw [hEq]; rfl)
  | held p changed => exact h.goesOn_of_owner (p := p) (b := b) (by rw [hEq]; rfl)

/-- `buffer_get` finds the cache full only if all the buffers are locked. -/
theorem Control.locked_of_full (h : Control s Q) (hFull : s.bufferGet p drive block = none)
    (b : BufferId) : s.use b ≠ .free := by
  have hVictim : s.victim = none := by
    unfold Storage.bufferGet at hFull
    split at hFull
    · split at hFull <;> cases hFull
    · exact Option.map_eq_none_iff.mp hFull
  have hUsed := List.find?_eq_none.mp hVictim b (List.mem_reverse.mpr (h.listed b))
  rw [← h.busy]
  by_contra hBusy
  have hCount := h.refcount b
  rw [if_neg hBusy] at hCount
  simp [unused, hCount, hBusy] at hUsed

/-- **Deadlock freedom**: unless all is at rest, something can go on. -/
theorem Live.goesOn (h : Live s Q) : s.AtRest ∨ s.GoesOn := by
  -- a locked buffer has an owner, who can release it or whose request is queued
  by_cases hLocked : ∃ b, s.use b ≠ .free
  · obtain ⟨b, hUse⟩ := hLocked
    exact .inr (h.goesOn_of_locked hUse)
  · have hFree : ∀ b, s.use b = .free := by simpa using hLocked
    by_cases hCalls : ∃ p, s.call p ≠ .none
    · obtain ⟨p, hCall⟩ := hCalls
      right
      cases hAt : s.call p with
      | locking drive block b asleep =>
        cases asleep with
        | true => exact absurd (hFree b) (h.attended.sleepers p b (by rw [hAt]; exact ⟨rfl, rfl⟩))
        | false =>
          cases hGet : s.bufferGet p drive block with
          | none => exact absurd (hFree 0) (h.control.locked_of_full hGet 0)
          | some t => exact ⟨.retry p, t, rfl, trivial, by simp [perform, hAt, hGet]⟩
      | _ => exact h.goesOn_of_call hCall (by rw [hAt]; exact id)
    -- no process does anything, so that only the disk is left
    · by_cases hDisk : s.device.busy = true ∨ s.pin = true
      · exact .inr (goesOn_of_disk hDisk)
      · left
        have hEmpty : Q = [] := by
          by_contra hQ
          exact hDisk (h.driven hQ)
        exact ⟨by simpa using hCalls, hFree, h.control.requests_eq.trans hEmpty,
          by simpa using fun hBusy => hDisk (.inl hBusy), by simpa using fun hPin => hDisk (.inr hPin)⟩

variable [Fintype P]

end Invariant

end Xv6502.Block.Storage
