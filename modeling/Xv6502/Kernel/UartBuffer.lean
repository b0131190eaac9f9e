import Xv6502.Emulator.CpuStep
import Xv6502.Lib.Ring

/-!
# The Ring Buffer of the UART Driver

`uart_rx_interrupt` and `uart_getc` (`kernel/uart.c`) share a ring of 256 characters with
two `uint8_t` indices. The driver tells a full ring by `head + 1 != tail`, where the C
promotion makes the sum one of 16 bits: at head 255 and tail 0 it is 256, the full ring is
not seen, and the byte that is written makes the head equal to the tail.

`fifo_iff` says that the ring is a first-in first-out queue over a sequence of calls exactly
if no byte arrives at that one alignment.
-/

namespace Xv6502.Kernel.UartBuffer

open Xv6502.Emulator
open Xv6502.Lib

/-! ## §1 The driver -/

/-- `Ring_Buffer`. -/
abbrev RingBuffer := Ring 8 Byte

/-- `CTRL('D')`. -/
def ctrlD : Byte := 0x44 - 0x40

/-- `uart_init`: the characters stay as they are. -/
def uartInit (ringBuffer : RingBuffer) : RingBuffer := { ringBuffer with head := 0, tail := 0 }

/-- What `uart_rx_interrupt` has done with the receive register. -/
inductive Outcome where
  /-- The register held no input. -/
  | idle
  /-- `proc_dump()`. -/
  | dump
  /-- The byte is in the ring, and `wakeup(&ring_buffer)` has been called. -/
  | accepted (data : Byte)
  /-- The ring was full. -/
  | dropped (data : Byte)
  deriving DecidableEq

/-- The byte of the receive register, if `UART_STAT` says that there is one. -/
def received (b : Board) : Option Byte :=
  if readPhysical b uartStat &&& uartStatusRxReady ≠ 0 then some (readPhysical b uartRx) else none

/-- The test `ring_buffer.head + 1 != ring_buffer.tail`, in `int`. -/
def hasRoom (ringBuffer : RingBuffer) : Bool :=
  ringBuffer.head.toNat + 1 != ringBuffer.tail.toNat

/-- `uart_rx_interrupt`. -/
def uartRxInterrupt (b : Board) (ringBuffer : RingBuffer) : Outcome × Board × RingBuffer :=
  -- interrupt acknowledge
  let b := writePhysical b plicInterruptLines
    (readPhysical b plicInterruptLines &&& ~~~plicPinUartRx)
  match received b with
  | none => (.idle, b, ringBuffer)
  | some data =>
    -- reading the register clears its flag
    let b := readEffect b uartRx
    if data = ctrlD then (.dump, b, ringBuffer)
    else if hasRoom ringBuffer then (.accepted data, b, ringBuffer.push data)
    else (.dropped data, b, ringBuffer)

/-- `uart_getc`: `char` is unsigned, so a byte is never taken for the -1. -/
def uartGetc (ringBuffer : RingBuffer) : Int × RingBuffer :=
  if ringBuffer.head = ringBuffer.tail then (-1, ringBuffer)
  else ((ringBuffer.buffer ringBuffer.tail).toNat, ringBuffer.pop)

/-! ## §2 Sequences of calls -/

/-- A call, with the board that an interrupt finds. -/
inductive Call where
  | rxInterrupt (b : Board)
  | getc

/-- The ring after some calls, with the bytes it has accepted and those `uart_getc` has
    returned. -/
structure Traffic where
  ringBuffer : RingBuffer
  accepted : List Byte
  returned : List Int

namespace Traffic

/-- Behind `uart_init`. -/
def start (ringBuffer : RingBuffer) : Traffic := ⟨uartInit ringBuffer, [], []⟩

/-- One call. -/
def call (t : Traffic) : Call → Traffic
  | .rxInterrupt b =>
    let (outcome, _, ringBuffer) := uartRxInterrupt b t.ringBuffer
    match outcome with
    | .accepted data => { t with ringBuffer := ringBuffer, accepted := t.accepted ++ [data] }
    | _ => { t with ringBuffer := ringBuffer }
  | .getc =>
    let (c, ringBuffer) := uartGetc t.ringBuffer
    -- -1 is no byte: the ring was empty
    if c = -1 then { t with ringBuffer := ringBuffer }
    else { t with ringBuffer := ringBuffer, returned := t.returned ++ [c] }

/-- The calls one after the other. -/
def calls (t : Traffic) (cs : List Call) : Traffic := cs.foldl call t

/-- The accepted bytes as `uart_getc` returns them. -/
def values (t : Traffic) : List Int := t.accepted.map fun data => (data.toNat : Int)

/-- The accepted bytes that have not been returned. -/
def unread (t : Traffic) : List Byte := t.accepted.drop t.returned.length

/-- What a first-in first-out queue promises about a state: the bytes returned are the first
    ones accepted, the next call of `uart_getc` finds nothing only if there is nothing, and a
    byte is dropped only if 255 others are unread. -/
structure Fifo (t : Traffic) : Prop where
  returned : t.returned <+: t.values
  getc : (uartGetc t.ringBuffer).1 = -1 ↔ t.unread = []
  dropped : ∀ b data, (uartRxInterrupt b t.ringBuffer).1 = .dropped data → t.unread.length = 255

/-- The call is no arrival of a byte, other than Ctrl-D, at head 255 and tail 0. -/
def Aligned (t : Traffic) : Call → Prop
  | .rxInterrupt b => ∀ data ∈ received b, data ≠ ctrlD →
      ¬ (t.ringBuffer.head = 255 ∧ t.ringBuffer.tail = 0)
  | .getc => True

/-! ## §3 The calls on the queue -/

/-- The ring stands for the bytes that are accepted and not returned. -/
def Queued (t : Traffic) : Prop :=
  t.values = t.returned ++ t.ringBuffer.contents.map fun data => (data.toNat : Int)

section Calls

variable {t : Traffic}

/-- The acknowledge leaves the UART alone. -/
theorem received_acknowledge (b : Board) (lines : Byte) :
    received (writePhysical b plicInterruptLines lines) = received b := by
  rfl

/-- **Interrupt**: the four ways through `uart_rx_interrupt`. -/
theorem rxInterrupt_cases (b : Board) (ringBuffer : RingBuffer) :
    (uartRxInterrupt b ringBuffer).1 = .idle ∧ received b = none ∧
        (uartRxInterrupt b ringBuffer).2.2 = ringBuffer ∨
      (uartRxInterrupt b ringBuffer).1 = .dump ∧ received b = some ctrlD ∧
        (uartRxInterrupt b ringBuffer).2.2 = ringBuffer ∨
      ∃ data, received b = some data ∧ data ≠ ctrlD ∧
        (hasRoom ringBuffer = true ∧ (uartRxInterrupt b ringBuffer).1 = .accepted data ∧
            (uartRxInterrupt b ringBuffer).2.2 = ringBuffer.push data ∨
          hasRoom ringBuffer = false ∧ (uartRxInterrupt b ringBuffer).1 = .dropped data ∧
            (uartRxInterrupt b ringBuffer).2.2 = ringBuffer) := by
  unfold uartRxInterrupt
  simp only [received_acknowledge]
  cases hReceived : received b with
  | none => exact .inl ⟨rfl, rfl, rfl⟩
  | some data =>
    right
    by_cases hDump : data = ctrlD
    · left
      simp [hDump]
    · refine .inr ⟨data, rfl, hDump, ?_⟩
      cases hRoom : hasRoom ringBuffer with
      | true => exact .inl ⟨rfl, by simp [hDump], by simp [hDump]⟩
      | false => exact .inr ⟨rfl, by simp [hDump], by simp [hDump]⟩

theorem call_accepted {b : Board} {data : Byte} (hReceived : received b = some data)
    (hData : data ≠ ctrlD) (hRoom : hasRoom t.ringBuffer = true) :
    t.call (.rxInterrupt b) =
      { t with ringBuffer := t.ringBuffer.push data, accepted := t.accepted ++ [data] } := by
  simp [call, uartRxInterrupt, received_acknowledge, hReceived, hData, hRoom]

/-- The test of the driver sees the full ring at every alignment but one. -/
theorem hasRoom_iff (ringBuffer : RingBuffer) :
    hasRoom ringBuffer = true ↔
      ringBuffer.head + 1 ≠ ringBuffer.tail ∨ ringBuffer.head = 255 ∧ ringBuffer.tail = 0 := by
  unfold hasRoom
  have hHead := ringBuffer.head.isLt
  have hTail := ringBuffer.tail.isLt
  rw [bne_iff_ne, Ne, Ne, ← BitVec.toNat_inj, ← BitVec.toNat_inj, ← BitVec.toNat_inj,
    BitVec.toNat_add, show (1 : Byte).toNat = 1 from rfl, show (255 : Byte).toNat = 255 from rfl,
    show (0 : Byte).toNat = 0 from rfl]
  omega

/-- The indices of a full ring are one apart. -/
theorem count_full_iff (ringBuffer : RingBuffer) :
    ringBuffer.count = 255 ↔ ringBuffer.head + 1 = ringBuffer.tail := by
  unfold Ring.count
  have hHead := ringBuffer.head.isLt
  have hTail := ringBuffer.tail.isLt
  rw [← BitVec.toNat_inj, BitVec.toNat_add, BitVec.toNat_sub, show (1 : Byte).toNat = 1 from rfl]
  omega

theorem Queued.unread (h : Queued t) : t.unread = t.ringBuffer.contents := by
  have hMap : t.unread.map (fun data => (data.toNat : Int)) =
      t.ringBuffer.contents.map fun data => (data.toNat : Int) := by
    unfold Traffic.unread
    rw [List.map_drop]
    show t.values.drop _ = _
    rw [h, List.drop_left]
  apply List.map_injective_iff.mpr _ hMap
  intro x y hxy
  apply BitVec.eq_of_toNat_eq
  exact Int.ofNat_inj.mp hxy

/-- A state whose ring stands for the unread bytes keeps the promises of a queue. -/
theorem Queued.fifo (h : Queued t) : Fifo t where
  returned := by
    rw [h]
    exact List.prefix_append _ _
  getc := by
    rw [h.unread, Ring.contents_eq_nil_iff]
    unfold uartGetc
    split
    · next hEmpty => simp [hEmpty]
    · next hNe =>
      refine iff_of_false ?_ hNe
      show ((t.ringBuffer.buffer t.ringBuffer.tail).toNat : Int) ≠ -1
      omega
  dropped b data hDropped := by
    rw [h.unread, Ring.length_contents, count_full_iff]
    -- a byte is dropped for a full ring alone, which holds all its 255 bytes
    rcases rxInterrupt_cases b t.ringBuffer with ⟨hIdle, -⟩ | ⟨hDump, -⟩ | ⟨other, -, -, hSome⟩
    · rw [hIdle] at hDropped
      cases hDropped
    · rw [hDump] at hDropped
      cases hDropped
    · rcases hSome with ⟨-, hAccepted, -⟩ | ⟨hFull, -, -⟩
      · rw [hAccepted] at hDropped
        cases hDropped
      · by_contra hNe
        rw [(hasRoom_iff _).mpr (.inl hNe)] at hFull
        cases hFull

/-- **Step lemma**: a call that is not a byte at the wrong alignment keeps the queue. -/
theorem Queued.call (h : Queued t) {c : Call} (hAligned : t.Aligned c) : Queued (t.call c) := by
  cases c with
  | rxInterrupt b =>
    unfold Traffic.call
    rcases rxInterrupt_cases b t.ringBuffer with ⟨hOutcome, -, hRing⟩ | ⟨hOutcome, -, hRing⟩ |
      ⟨data, hReceived, hData, ⟨hRoom, hOutcome, hRing⟩ | ⟨-, hOutcome, hRing⟩⟩
    · simpa only [hOutcome, hRing] using h
    · simpa only [hOutcome, hRing] using h
    · -- the ring has room, and not only by the wrong count at the end of the array
      have hNotFull : t.ringBuffer.count ≠ 255 := by
        rw [Ne, count_full_iff]
        rcases (hasRoom_iff _).mp hRoom with hNe | hWrong
        · exact hNe
        · exact absurd hWrong (hAligned data hReceived hData)
      have hSize : t.ringBuffer.count < 2 ^ 8 := (t.ringBuffer.head - t.ringBuffer.tail).isLt
      simp only [hOutcome, hRing]
      -- the byte goes behind the last one of the ring, and of the queue
      unfold Queued values at h ⊢
      rw [Ring.contents_push _ _ (by omega), List.map_append, List.map_append, h,
        List.append_assoc]
    · simpa only [hOutcome, hRing] using h
  | getc =>
    unfold Traffic.call uartGetc
    by_cases hEmpty : t.ringBuffer.head = t.ringBuffer.tail
    · simpa only [hEmpty, if_true] using h
    -- the byte at the tail is the first of the queue
    · have hByte : ((t.ringBuffer.buffer t.ringBuffer.tail).toNat : Int) ≠ -1 := by omega
      simp only [hEmpty, if_false, hByte]
      unfold Queued values at h ⊢
      rw [h, Ring.contents_of_ne _ hEmpty, List.map_cons, List.append_assoc]
      rfl

/-- A byte at the wrong alignment leaves a ring that looks empty. -/
theorem Queued.overrun (h : Queued t) {c : Call} (hWrong : ¬ t.Aligned c) : ¬ Fifo (t.call c) := by
  cases c with
  | getc => exact absurd trivial hWrong
  | rxInterrupt b =>
    unfold Aligned at hWrong
    push Not at hWrong
    obtain ⟨data, hReceived, hData, hHead, hTail⟩ := hWrong
    have hRoom : hasRoom t.ringBuffer = true := (hasRoom_iff _).mpr (.inr ⟨hHead, hTail⟩)
    have hFull : t.ringBuffer.head + 1 = t.ringBuffer.tail := by
      rw [hHead, hTail]
      rfl
    -- 256 bytes are unread, but the head has come round to the tail
    intro hFifo
    have hGetc := hFifo.getc
    rw [call_accepted hReceived hData hRoom] at hGetc
    have hLooksEmpty : (uartGetc (t.ringBuffer.push data)).1 = -1 := by
      unfold uartGetc
      rw [if_pos]
      exact hFull
    have hUnread := hGetc.mp hLooksEmpty
    have hLength : t.returned.length ≤ t.accepted.length := by
      have hValues := congrArg List.length h
      simp only [values, List.length_map, List.length_append] at hValues
      omega
    unfold Traffic.unread at hUnread
    rw [List.drop_eq_nil_iff, List.length_append] at hUnread
    simp only [List.length_singleton] at hUnread
    omega

end Calls

/-! ## §4 Whole sequences -/

theorem calls_concat (t : Traffic) (cs : List Call) (c : Call) :
    t.calls (cs ++ [c]) = (t.calls cs).call c := by
  unfold calls
  rw [List.foldl_append]
  rfl

theorem start_queued (ringBuffer : RingBuffer) : Queued (start ringBuffer) := by
  have hEmpty : (uartInit ringBuffer).contents = [] := by
    rw [Ring.contents_eq_nil_iff]
    rfl
  show [] = [] ++ (uartInit ringBuffer).contents.map _
  rw [hEmpty]
  rfl

/-- **Run lemma**: calls that all keep clear of the wrong alignment keep the queue. -/
theorem Queued.calls {t : Traffic} (h : Queued t) (cs : List Call)
    (hAligned : ∀ before c, before ++ [c] <+: cs → (t.calls before).Aligned c) :
    Queued (t.calls cs) := by
  induction cs using List.reverseRecOn with
  | nil => exact h
  | append_singleton cs c ih =>
    have hBefore : Queued (t.calls cs) := by
      apply ih
      intro before d hPrefix
      exact hAligned before d (hPrefix.trans (List.prefix_append _ _))
    rw [calls_concat]
    exact hBefore.call (hAligned cs c (List.prefix_refl _))

/-- **The ring buffer is a queue over a sequence of calls from `uart_init` on, after each of them,
    exactly if none of them is a byte at head 255 and tail 0.** The sum `head + 1` is an `int`, so
    at head 255 it is compared with the tail without wrapping around. -/
theorem fifo_iff (ringBuffer : RingBuffer) (cs : List Call) :
    (∀ before, before <+: cs → Fifo ((start ringBuffer).calls before)) ↔
      ∀ before c, before ++ [c] <+: cs → ((start ringBuffer).calls before).Aligned c := by
  constructor
  · -- before the first call at the wrong alignment the ring is a queue, behind it no more
    -- strong induction: the calls before the first one that goes wrong have kept the ring a queue
    intro hFifo before
    induction hLength : before.length using Nat.strong_induction_on generalizing before with
    | _ n ih =>
      intro c hPrefix
      by_contra hWrong
      have hQueued : Queued ((start ringBuffer).calls before) := by
        apply (start_queued ringBuffer).calls
        intro earlier d hEarlier
        have hShorter := hEarlier.length_le
        rw [List.length_append, List.length_singleton] at hShorter
        exact ih earlier.length (by omega) earlier rfl d
          (hEarlier.trans ((List.prefix_append _ _).trans hPrefix))
      have hBehind := hFifo (before ++ [c]) hPrefix
      rw [calls_concat] at hBehind
      exact hQueued.overrun hWrong hBehind
  · intro hAligned before hPrefix
    apply Queued.fifo
    apply (start_queued ringBuffer).calls
    intro earlier c hEarlier
    exact hAligned earlier c (hEarlier.trans hPrefix)

/-! ## §5 The ring overrun -/

/-- A board on which a key has just been pressed. -/
def keyPressed (data : Byte) : Board where
  ram := fun _ => 0
  rom := ⟨0, fun _ => 0⟩
  uart := ⟨0, data, uartStatusRxReady⟩
  disk := ⟨fun _ => 0, fun _ => 0, 0, 0, 0, 0, 0⟩
  mmu := ⟨fun _ => 0, 0, 0, 0, 0, 0, false, false⟩
  timer := ⟨0, 0, 0, 0, 0⟩
  plic := ⟨plicPinUartRx, false⟩

/-- The first 256 bytes fill the ring from index 0 on, and none is dropped. -/
theorem keys_pressed (ringBuffer : RingBuffer) (n : Nat) (hn : n ≤ 256) :
    let t := (start ringBuffer).calls (List.replicate n (.rxInterrupt (keyPressed 0x61)))
    t.ringBuffer.head = BitVec.ofNat 8 n ∧ t.ringBuffer.tail = 0 ∧
      t.accepted = List.replicate n 0x61 ∧ t.returned = [] := by
  induction n with
  | zero => exact ⟨rfl, rfl, rfl, rfl⟩
  | succ n ih =>
    obtain ⟨hHead, hTail, hAccepted, hReturned⟩ := ih (by omega)
    rw [List.replicate_succ', calls_concat]
    generalize (start ringBuffer).calls _ = t at *
    have hRoom : hasRoom t.ringBuffer = true := by
      unfold hasRoom
      rw [bne_iff_ne, hTail]
      exact Nat.succ_ne_zero _
    rw [call_accepted rfl (by decide) hRoom]
    refine ⟨?_, hTail, ?_, hReturned⟩
    · show t.ringBuffer.head + 1 = _
      rw [hHead, BitVec.ofNat_add]
      rfl
    · show t.accepted ++ [0x61] = _
      rw [hAccepted, List.replicate_succ']

/-- After 256 keys and no read, `uart_getc` returns -1. -/
theorem ring_overrun :
    let t := (start ⟨fun _ => 0, 0, 0⟩).calls
      (List.replicate 256 (.rxInterrupt (keyPressed 0x61)))
    t.unread.length = 256 ∧ (uartGetc t.ringBuffer).1 = -1 ∧ ¬ Fifo t := by
  intro t
  obtain ⟨hHead, hTail, hAccepted, hReturned⟩ := keys_pressed ⟨fun _ => 0, 0, 0⟩ 256 le_rfl
  have hUnread : t.unread.length = 256 := by
    unfold unread
    rw [hAccepted, hReturned, List.length_nil, List.drop_zero, List.length_replicate]
  have hGetc : (uartGetc t.ringBuffer).1 = -1 := by
    unfold uartGetc
    rw [if_pos]
    rw [hHead, hTail]
    rfl
  refine ⟨hUnread, hGetc, fun hFifo => ?_⟩
  rw [hFifo.getc.mp hGetc] at hUnread
  cases hUnread

end Traffic

end Xv6502.Kernel.UartBuffer
