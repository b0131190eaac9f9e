import Xv6502.Emulator.CpuStep
import Xv6502.Lib.Transition

/-!
# Interrupt Lines and Their Acknowledgement

`device_interrupt` (`kernel/trap.c`) reads the interrupt lines of the PLIC and calls the
handlers of the pins that are set; each handler begins with
`MMIO8(PLIC_INTERRUPT_LINES) &= ~pin`, a load and a later store. The devices raise their
lines between any two of these accesses.

A raised pin stays set until its own handler acknowledges it as long as no device raises a
new pin while another pin's acknowledge is between its load and its store
(`pin_kept_until_acknowledged`). Without this a raise is lost (`lostDiskInterrupt`).
-/

namespace Xv6502.Kernel

open Xv6502.Emulator Xv6502.Lib

/-! ## §1 Pins -/

/-- The pins the kernel handles. -/
inductive Pin where
  | timer
  | uartRx
  | disk
  deriving DecidableEq, Repr

/-- The bit of a pin in the interrupt lines. -/
def Pin.mask : Pin → Byte
  | .timer => plicPinTimer
  | .uartRx => plicPinUartRx
  | .disk => plicPinDisk

/-- The pin that `device_interrupt` tests next. -/
def Pin.next : Pin → Option Pin
  | .timer => some .uartRx
  | .uartRx => some .disk
  | .disk => none

/-- The pin is set in `lines`. -/
def PinIn (lines : Byte) (q : Pin) : Prop := lines &&& q.mask ≠ 0

instance (lines : Byte) (q : Pin) : Decidable (PinIn lines q) := inferInstanceAs (Decidable (_ ≠ _))

/-- Acknowledging a pin clears no other. -/
theorem pinIn_clear {p q : Pin} (h : q ≠ p) (v : Byte) :
    PinIn (v &&& ~~~p.mask) q ↔ PinIn v q := by
  have hMask : ~~~p.mask &&& q.mask = q.mask := by
    revert h
    cases p <;> cases q <;> decide
  unfold PinIn
  rw [BitVec.and_assoc, hMask]

/-- Raising a pin clears none. -/
theorem pinIn_raise {v : Byte} {q : Pin} (h : PinIn v q) (w : Byte) : PinIn (v ||| w) q := by
  unfold PinIn at *
  intro hZero
  apply h
  rw [BitVec.and_comm, BitVec.and_or_distrib_left] at hZero
  rw [BitVec.and_comm]
  exact (BitVec.or_eq_zero_iff.mp hZero).1

/-! ## §2 `device_interrupt`, access by access -/

/-- The points of `device_interrupt` between two accesses of the interrupt lines. -/
inductive Point where
  /-- Before `which_device = MMIO8(PLIC_INTERRUPT_LINES)`. -/
  | readLines
  /-- Before `if(which_device & pin)`. -/
  | test (pin : Pin)
  /-- Before the load of the acknowledge. -/
  | ackLoad (pin : Pin)
  /-- Between the load and the store of the acknowledge. -/
  | ackStore (pin : Pin) (loaded : Byte)
  /-- In the rest of the pin's handler. -/
  | service (pin : Pin)
  deriving DecidableEq

/-- An activation of `device_interrupt`. -/
structure Activation where
  whichDevice : Byte
  point : Point
  deriving DecidableEq

/-- Behind the handler of a pin: at the test of the next one, or returned. -/
def Activation.behind (h : Activation) (pin : Pin) : Option Activation :=
  pin.next.map fun q => { h with point := .test q }

/-- The next access of an activation. -/
def Activation.advance (h : Activation) (b : Board) : Option Activation × Board :=
  match h.point with
  | .readLines => (some ⟨readPhysical b plicInterruptLines, .test .timer⟩, b)
  | .test pin =>
    -- `which_device` is the byte read at the start, not the one the lines hold now
    if h.whichDevice &&& pin.mask ≠ 0 then (some { h with point := .ackLoad pin }, b)
    else (h.behind pin, b)
  | .ackLoad pin => (some { h with point := .ackStore pin (readPhysical b plicInterruptLines) }, b)
  -- the store writes the whole byte back: a line raised since the load is lost
  | .ackStore pin loaded =>
    (some { h with point := .service pin },
      writePhysical b plicInterruptLines (loaded &&& ~~~pin.mask))
  | .service pin => (h.behind pin, b)

/-- The pin that the next access acknowledges. -/
def Activation.acknowledges (h : Activation) : Option Pin :=
  match h.point with
  | .ackStore pin _ => some pin
  | _ => none

/-- The board with the activations of `device_interrupt`, the innermost first. -/
structure InterruptState where
  board : Board
  handlers : List Activation

/-- What can happen next. The devices step between any two instructions, since a batch of
    `CPU_PER_STEP` instructions may end anywhere. -/
inductive Event where
  | uart (c : Option Byte)
  | disk (result : Nat)
  | timer
  /-- An interrupt is taken and reaches `device_interrupt`. It may come inside another one: the
      handlers start with interrupts masked, but `proc_dump` in `uart_rx_interrupt` unmasks
      them. -/
  | enter
  /-- The innermost activation makes its next access. -/
  | handler (ack : Option Pin)
  | load (va : Word)
  /-- A store of other code: only the acknowledges write the interrupt lines. -/
  | store (va : Word) (byte : Byte)
  /-- A change of the mapping by the MMU itself. -/
  | mmu (u : Mmu)

/-- One event; `none` if it cannot happen. -/
def perform (s : InterruptState) : Event → Option InterruptState
  | .uart c => (uartStep c s.board).map fun b => { s with board := b }
  | .disk result => some { s with board := diskStep result s.board }
  | .timer => some { s with board := timerStep s.board }
  | .enter =>
    -- an interrupt may come at any time, also into a handler that already runs
    if s.board.plic.pendingIrq then
      some ⟨plicLower s.board, ⟨0, .readLines⟩ :: s.handlers⟩
    else none
  | .handler ack =>
    match s.handlers with
    | [] => none
    | h :: rest =>
      if h.acknowledges = ack then
        some ⟨(h.advance s.board).2, (h.advance s.board).1.toList ++ rest⟩
      else none
  | .load va => some { s with board := (machineRead va s.board).2 }
  | .store va byte =>
    -- nobody but the handlers stores to the lines
    if physicalAddress s.board.mmu va = plicInterruptLines then none
    else some { s with board := machineWrite va byte s.board }
  | .mmu u => some { s with board := { s.board with mmu := u } }

/-- The step relation of the events. -/
def InterruptStep (s : InterruptState) (e : Event) (t : InterruptState) : Prop :=
  perform s e = some t

/-- The event is a step of a device. -/
def Event.isDevice : Event → Bool
  | .uart _ | .disk _ | .timer => true
  | _ => false

/-- The pin is set on the board. -/
def Raised (s : InterruptState) (q : Pin) : Prop := PinIn s.board.plic.interruptsLines q

instance (s : InterruptState) (q : Pin) : Decidable (Raised s q) :=
  inferInstanceAs (Decidable (PinIn _ _))

/-- The event is a device raising a pin that is not set yet. -/
def RaisesNew (s : InterruptState) (e : Event) (q : Pin) : Prop :=
  e.isDevice = true ∧ ¬ Raised s q ∧ ∃ t, perform s e = some t ∧ Raised t q

/-- While the acknowledge of a pin is between its load and its store, no device raises
    another pin that is not set yet. -/
def QuietInAcknowledge (s : InterruptState) (e : Event) : Prop :=
  ∀ h ∈ s.handlers, ∀ p loaded, h.point = .ackStore p loaded → ∀ q, RaisesNew s e q → q = p

/-! ## §3 What an event does to the lines -/

theorem lines_writePhysical {b : Board} {addr : Nat} (h : addr ≠ plicInterruptLines)
    (byte : Byte) : (writePhysical b addr byte).plic = b.plic := by
  unfold writePhysical
  rw [if_neg h]
  simp only [apply_ite Board.plic, ite_self]

theorem lines_machineRead (va : Word) (b : Board) : (machineRead va b).2.plic = b.plic := by
  show (readEffect (b.translate va) _).plic = _
  unfold readEffect
  split <;> rfl

theorem pinIn_timerStep {b : Board} {q : Pin} (h : PinIn b.plic.interruptsLines q) :
    PinIn (timerStep b).plic.interruptsLines q := by
  unfold timerStep
  split
  · exact h
  · dsimp only
    split
    · exact pinIn_raise h _
    · exact h

theorem pinIn_diskStep {b : Board} {q : Pin} (h : PinIn b.plic.interruptsLines q) (result : Nat) :
    PinIn (diskStep result b).plic.interruptsLines q := by
  unfold diskStep
  dsimp only
  repeat' split
  all_goals first | exact h | exact pinIn_raise h _

theorem pinIn_uartStep {b b' : Board} {q : Pin} (h : PinIn b.plic.interruptsLines q)
    {c : Option Byte} (hStep : uartStep c b = some b') : PinIn b'.plic.interruptsLines q := by
  unfold uartStep at hStep
  dsimp only at hStep
  split at hStep
  · split at hStep
    · cases hStep
    · cases hStep
      split
      · exact pinIn_raise h _
      · exact pinIn_raise h _
  · cases hStep
    split <;> exact h

/-- A device only raises pins. -/
theorem raised_of_device {s t : InterruptState} {e : Event} (hDevice : e.isDevice = true)
    (h : InterruptStep s e t) {q : Pin} (hq : Raised s q) : Raised t q := by
  unfold InterruptStep at h
  cases e with
  | uart c =>
    obtain ⟨b, hStep, rfl⟩ := Option.map_eq_some_iff.mp h
    exact pinIn_uartStep hq hStep
  | disk result =>
    cases h
    exact pinIn_diskStep hq result
  | timer =>
    cases h
    exact pinIn_timerStep hq
  | _ => cases hDevice

/-- A device starts and ends no handler. -/
theorem handlers_of_device {s t : InterruptState} {e : Event} (hDevice : e.isDevice = true)
    (h : InterruptStep s e t) : t.handlers = s.handlers := by
  unfold InterruptStep at h
  cases e with
  | uart c =>
    obtain ⟨b, -, rfl⟩ := Option.map_eq_some_iff.mp h
    rfl
  | disk result => cases h; rfl
  | timer => cases h; rfl
  | _ => cases hDevice

/-- **What an event can be**: a device's step, a new activation, the store of an
    acknowledge, another access of the innermost activation, or none of these. -/
theorem interruptStep_cases {s t : InterruptState} {e : Event} (h : InterruptStep s e t) :
    e.isDevice = true ∨
    (t.board.plic.interruptsLines = s.board.plic.interruptsLines ∧
      (t.handlers = s.handlers ∨ t.handlers = ⟨0, .readLines⟩ :: s.handlers ∨
        ∃ a rest, ∃ next : Option Activation, s.handlers = a :: rest ∧ t.handlers = next.toList ++ rest ∧
          ∀ n ∈ next, ∀ p v, n.point = .ackStore p v → v = s.board.plic.interruptsLines)) ∨
    ∃ a rest p v next, e = .handler (some p) ∧ s.handlers = a :: rest ∧ a.point = .ackStore p v ∧
      t.handlers = next :: rest ∧ next.point = .service p ∧
      t.board.plic.interruptsLines = v &&& ~~~p.mask := by
  unfold InterruptStep perform at h
  cases e with
  | uart c => exact .inl rfl
  | disk result => exact .inl rfl
  | timer => exact .inl rfl
  | enter =>
    right; left
    dsimp only at h
    split at h
    · cases h
      exact ⟨rfl, .inr (.inl rfl)⟩
    · cases h
  | load va =>
    right; left
    cases h
    exact ⟨congrArg Plic.interruptsLines (lines_machineRead va s.board), .inl rfl⟩
  | store va byte =>
    right; left
    dsimp only at h
    split at h
    · cases h
    case isFalse hOther =>
      cases h
      exact ⟨congrArg Plic.interruptsLines (lines_writePhysical hOther byte), .inl rfl⟩
  | mmu u =>
    right; left
    cases h
    exact ⟨rfl, .inl rfl⟩
  -- the innermost activation moves on, by one access of the bus
  | handler ack =>
    dsimp only at h
    split at h
    · cases h
    case h_2 a rest hHandlers =>
      split at h
      case isFalse => cases h
      case isTrue hAck =>
        cases h
        obtain ⟨whichDevice, point⟩ := a
        cases point with
        -- the store that writes back what the load has seen, less the pin
        | ackStore p v =>
          subst hAck
          exact .inr (.inr ⟨_, rest, p, v, ⟨whichDevice, .service p⟩, rfl, hHandlers, rfl, rfl,
            rfl, rfl⟩)
        | readLines =>
          refine .inr (.inl ⟨rfl, .inr (.inr ⟨_, rest, _, hHandlers, rfl, ?_⟩)⟩)
          rintro n ⟨⟩ p v ⟨⟩
        | ackLoad p =>
          refine .inr (.inl ⟨rfl, .inr (.inr ⟨_, rest, _, hHandlers, rfl, ?_⟩)⟩)
          rintro n ⟨⟩ p v ⟨⟩
          rfl
        | service p =>
          refine .inr (.inl ⟨rfl, .inr (.inr ⟨_, rest, _, hHandlers, rfl, ?_⟩)⟩)
          cases p <;> rintro n ⟨⟩ p v ⟨⟩
        | test p =>
          -- a device is served only when its bit was set in the byte read at the start
          by_cases hSet : whichDevice &&& p.mask ≠ 0
          · have hAdvance : Activation.advance ⟨whichDevice, .test p⟩ s.board =
                (some ⟨whichDevice, .ackLoad p⟩, s.board) := if_pos hSet
            rw [hAdvance]
            refine .inr (.inl ⟨rfl, .inr (.inr ⟨_, rest, _, hHandlers, rfl, ?_⟩)⟩)
            rintro n ⟨⟩ p v ⟨⟩
          · have hAdvance : Activation.advance ⟨whichDevice, .test p⟩ s.board =
                (Activation.behind ⟨whichDevice, .test p⟩ p, s.board) := if_neg hSet
            rw [hAdvance]
            refine .inr (.inl ⟨rfl, .inr (.inr ⟨_, rest, _, hHandlers, rfl, ?_⟩)⟩)
            cases p <;> rintro n ⟨⟩ p v ⟨⟩

/-! ## §4 The invariant -/

/-- Between the load and the store of an acknowledge, every other pin of `lines` is in what
    was loaded. -/
def Activation.Covers (a : Activation) (lines : Byte) : Prop :=
  ∀ p v, a.point = .ackStore p v → ∀ q, q ≠ p → PinIn lines q → PinIn v q

/-- Every acknowledge in progress covers the lines, and what a nested one has loaded. -/
structure AcksCover (s : InterruptState) : Prop where
  lines : ∀ a ∈ s.handlers, a.Covers s.board.plic.interruptsLines
  nested : s.handlers.Pairwise fun inner outer =>
    ∀ p v, inner.point = .ackStore p v → outer.Covers v

/-- An activation that is not between load and store covers everything. -/
theorem covers_of_not_ackStore {a : Activation} (h : ∀ p v, a.point ≠ .ackStore p v)
    (lines : Byte) : a.Covers lines :=
  fun p v hPoint => absurd hPoint (h p v)

/-- What was loaded is covered by what was loaded. -/
theorem covers_of_loaded {a : Activation} {lines : Byte}
    (h : ∀ p v, a.point = .ackStore p v → v = lines) : a.Covers lines := by
  intro p v hPoint q _ hq
  rw [h p v hPoint]
  exact hq

/-- **Step lemma**: events that meet the condition keep the invariant. -/
theorem acksCover_step {s t : InterruptState} {e : Event} (hs : AcksCover s)
    (h : InterruptStep s e t) (hQuiet : QuietInAcknowledge s e) : AcksCover t := by
  obtain hDevice | ⟨hLines, hHandlers⟩ | ⟨a, rest, p, v, next, rfl, hOld, hPoint, hNew, hService, hLines⟩ :=
    interruptStep_cases h
  · have hSame := handlers_of_device hDevice h
    refine ⟨fun a ha p v hPoint q hNe hq => ?_, hSame ▸ hs.nested⟩
    rw [hSame] at ha
    by_cases hBefore : Raised s q
    · exact hs.lines a ha p v hPoint q hNe hBefore
    · exact absurd (hQuiet a ha p v hPoint q ⟨hDevice, hBefore, t, h, hq⟩) hNe
  · obtain hSame | hEnter | ⟨a, rest, next, hOld, hNew, hLoaded⟩ := hHandlers
    · exact ⟨by rw [hSame, hLines]; exact hs.lines, hSame ▸ hs.nested⟩
    · have hFresh : ∀ p v, (⟨0, .readLines⟩ : Activation).point ≠ .ackStore p v :=
        fun p v hPoint => by cases hPoint
      constructor
      · rw [hEnter, hLines, List.forall_mem_cons]
        exact ⟨covers_of_not_ackStore hFresh _, hs.lines⟩
      · rw [hEnter, List.pairwise_cons]
        exact ⟨fun _ _ p v hPoint => absurd hPoint (hFresh p v), hs.nested⟩
    · have hOldLines := hs.lines
      have hOldNested := hs.nested
      rw [hOld, List.forall_mem_cons] at hOldLines
      rw [hOld, List.pairwise_cons] at hOldNested
      cases next with
      | none =>
        rw [Option.toList_none, List.nil_append] at hNew
        exact ⟨by rw [hNew, hLines]; exact hOldLines.2, hNew ▸ hOldNested.2⟩
      | some n =>
        have hLoad := hLoaded n rfl
        rw [Option.toList_some, List.singleton_append] at hNew
        constructor
        · rw [hNew, hLines, List.forall_mem_cons]
          exact ⟨covers_of_loaded hLoad, hOldLines.2⟩
        · rw [hNew, List.pairwise_cons]
          refine ⟨fun outer hOuter p v hPoint => ?_, hOldNested.2⟩
          rw [hLoad p v hPoint]
          exact hOldLines.2 outer hOuter
  · have hOldNested := hs.nested
    rw [hOld, List.pairwise_cons] at hOldNested
    have hNext : ∀ p v, next.point ≠ .ackStore p v := fun p v hPoint => by
      rw [hService] at hPoint
      cases hPoint
    constructor
    · rw [hNew, hLines, List.forall_mem_cons]
      refine ⟨covers_of_not_ackStore hNext _, fun outer hOuter p' v' hPoint' q hNe hq => ?_⟩
      -- the outer acknowledge covers what the nested one loaded, so also what it stores
      have hLoaded : PinIn v q := by
        by_cases hSame : q = p
        · subst hSame
          have hClear : v &&& ~~~q.mask &&& q.mask = 0 := by
            rw [BitVec.and_assoc, BitVec.and_comm (~~~q.mask), BitVec.and_not_self]
            exact BitVec.and_zero
          exact absurd hClear hq
        · exact (pinIn_clear hSame v).mp hq
      exact hOldNested.1 outer hOuter p v hPoint p' v' hPoint' q hNe hLoaded
    · rw [hNew, List.pairwise_cons]
      exact ⟨fun _ _ p v hPoint => absurd hPoint (hNext p v), hOldNested.2⟩

/-- A raised pin is kept by every event but its own acknowledge. -/
theorem raised_step {s t : InterruptState} {e : Event} {q : Pin} (hs : AcksCover s)
    (hq : Raised s q) (h : InterruptStep s e t) : Raised t q ∨ e = .handler (some q) := by
  obtain hDevice | ⟨hLines, -⟩ | ⟨a, rest, p, v, next, rfl, hOld, hPoint, -, -, hLines⟩ :=
    interruptStep_cases h
  · exact .inl (raised_of_device hDevice h hq)
  · exact .inl (by rw [Raised, hLines]; exact hq)
  · by_cases hSame : q = p
    · exact .inr (by rw [hSame])
    · have hMem : a ∈ s.handlers := hOld ▸ List.mem_cons_self
      have hLoaded := hs.lines a hMem p v hPoint q hSame hq
      exact .inl (by rw [Raised, hLines]; exact (pinIn_clear hSame v).mpr hLoaded)

/-! ## §5 No interrupt is lost -/

/-- The board before the first interrupt. -/
def InterruptState.initial (b : Board) : InterruptState := ⟨b, []⟩

theorem acksCover_initial (b : Board) : AcksCover (.initial b) :=
  ⟨fun _ h => absurd h List.not_mem_nil, List.Pairwise.nil⟩

/-- The events that meet `QuietInAcknowledge`. -/
def QuietStep : InterruptState → Event → InterruptState → Prop :=
  Guarded InterruptStep QuietInAcknowledge

/-- **No interrupt is lost**: in every run whose events meet `QuietInAcknowledge`, a pin that is
    raised in a state of the run stays set until its own handler acknowledges it. An acknowledge
    is a load and a store, and what it writes is what it has loaded: the invariant says that the
    byte in its hand has every pin that the lines have. -/
theorem pin_kept_until_acknowledged (b : Board) (before after : List Event)
    (s t : InterruptState) (q : Pin) (hBefore : Run QuietStep (.initial b) before s)
    (hAfter : Run QuietStep s after t) (hq : Raised s q) :
    Raised t q ∨ Event.handler (some q) ∈ after := by
  have hInv : ∀ s e t, AcksCover s → QuietStep s e t → AcksCover t :=
    fun s e t hs h => acksCover_step hs h.1 h.2
  have hs : AcksCover s := hBefore.invariant hInv (acksCover_initial b)
  have hFact : ∀ s e t, AcksCover s → Raised s q → QuietStep s e t →
      Raised t q ∨ e = .handler (some q) :=
    fun s e t hs hq h => raised_step hs hq h.1
  rcases hAfter.until_label hInv hFact hs hq with hKept | ⟨e, hMem, rfl⟩
  · exact .inl hKept
  · exact .inr hMem

/-- A board on which the timer and the disk are about to raise their lines. -/
def busyBoard : Board where
  ram := fun _ => 0
  rom := ⟨0, fun _ => 0⟩
  uart := ⟨0, 0, 0⟩
  disk := ⟨fun _ => 0, fun _ => 0, diskCmdRead, diskStatusBusy, 0, 0, 1⟩
  mmu := ⟨fun s => BitVec.ofNat 8 s, 0, 0, 0, 0, 0, false, false⟩
  timer := ⟨timerEnableTrue, 100, 0, 1, 0⟩
  plic := ⟨0, false⟩

/-- Outside every acknowledge a device may raise any pin. -/
theorem quietStep_of_no_handlers {s t : InterruptState} {e : Event} (hNone : s.handlers = [])
    (h : perform s e = some t) : QuietStep s e t :=
  ⟨h, fun _ ha => absurd (hNone ▸ ha) List.not_mem_nil⟩

/-- As long as no device makes a step nothing is raised. -/
theorem quietRun_of_no_device {s t : InterruptState} {es : List Event}
    (hEvents : ∀ e ∈ es, e.isDevice = false) (h : Run InterruptStep s es t) :
    Run QuietStep s es t := by
  induction h with
  | nil s => exact .nil s
  | @cons s u t e es hHead _ ih =>
    have hQuiet : QuietInAcknowledge s e := by
      intro a _ p v _ q hRaises
      have hNone := hEvents e List.mem_cons_self
      rw [hRaises.1] at hNone
      cases hNone
    exact .cons ⟨hHead, hQuiet⟩ (ih fun f hf => hEvents f (List.mem_cons_of_mem _ hf))

/-- An interrupt of the timer, to behind the store of its acknowledge. -/
def throughTimerAck : List Event :=
  [.enter, .handler none, .handler none, .handler none, .handler (some .timer)]

/-- The timer and the disk raise their lines. The acknowledge of the timer clears its own line, and
    the one of the disk is still set. -/
theorem busyBoard_disk_kept :
    ∃ s t, Run QuietStep (.initial busyBoard) [.timer, .disk diskSectorSize] s ∧
      Run QuietStep s throughTimerAck t ∧ Raised s .timer ∧ ¬ Raised t .timer ∧ Raised s .disk ∧
        (Raised t .disk ∨ Event.handler (some .disk) ∈ throughTimerAck) := by
  let u := (perform (.initial busyBoard) .timer).get (by decide)
  let s := (perform u (.disk diskSectorSize)).get (by decide)
  let t := (performAll perform s throughTimerAck).get (by decide)
  have hBefore : Run QuietStep (.initial busyBoard) [.timer, .disk diskSectorSize] s :=
    .cons (quietStep_of_no_handlers rfl (Option.some_get _).symm)
      (.cons (quietStep_of_no_handlers rfl (Option.some_get _).symm) (.nil s))
  have hAfter : Run QuietStep s throughTimerAck t :=
    quietRun_of_no_device (by decide) (run_of_performAll (Option.some_get _).symm)
  have hRaised : Raised s .disk := by decide
  exact ⟨s, t, hBefore, hAfter, by decide, by decide, hRaised,
    pin_kept_until_acknowledged busyBoard _ _ s t .disk hBefore hAfter hRaised⟩

/-- A timer interrupt whose acknowledge has loaded the lines, and then the disk raises its
    line. -/
def untilDiskRaise : List Event :=
  [.timer, .enter, .handler none, .handler none, .handler none, .disk diskSectorSize]

/-- **An acknowledge can clear another pin**: the disk raises its line between the load and
    the store of the timer's acknowledge, and the next access clears it. -/
theorem lostDiskInterrupt :
    ∃ s t, Run InterruptStep (.initial busyBoard) untilDiskRaise s ∧ Raised s .disk ∧
      Run InterruptStep s [.handler (some .timer)] t ∧ ¬ Raised t .disk := by
  let s := (performAll perform (.initial busyBoard) untilDiskRaise).get (by decide)
  let t := (performAll perform s [.handler (some .timer)]).get (by decide)
  exact ⟨s, t, run_of_performAll (Option.some_get _).symm, by decide,
    run_of_performAll (Option.some_get _).symm, by decide⟩

end Xv6502.Kernel
