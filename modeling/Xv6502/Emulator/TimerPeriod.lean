import Xv6502.Emulator.BusMemory
import Xv6502.Emulator.CpuStep
import Xv6502.Emulator.VectorEntry

/-!
# The Period of the Timer

After the store of `TIMER_ENABLE_TRUE` to `TIMER_CTRL`, and as long as no timer register is stored
to, `Timer_step` raises its pin at every `period`-th call and at no other one, and the counter reads
as the number of calls left (`timer_period`). The counter of 16 bits is decremented before the
test, so that a latch of 0 stands for 65536 calls.
-/

namespace Xv6502.Emulator

/-! ## §1 Runs -/

/-- The latch registers as one number. -/
def Timer.latch (t : Timer) : Word := wordOf t.latchLow t.latchHigh

/-- The counter registers as one number. -/
def Timer.counter (t : Timer) : Word := wordOf t.counterLow t.counterHigh

/-- The calls of `Timer_step` from one raise to the next one. -/
def Timer.period (t : Timer) : Nat := if t.latch = 0 then 0x10000 else t.latch.toNat

/-- The board behind `n` calls of `Timer_step`, with anything between them that leaves the timer
    registers alone. -/
inductive TimerRun (b : Board) : Nat → Board → Prop where
  | start : TimerRun b 0 b
  | other {n : Nat} {c c' : Board} (h : TimerRun b n c) (hTimer : c'.timer = c.timer) :
      TimerRun b n c'
  | step {n : Nat} {c : Board} (h : TimerRun b n c) : TimerRun b (n + 1) (timerStep c)

/-- The physical address is one of the timer registers. -/
def InTimer (addr : Nat) : Prop := timerLatchLow ≤ addr ∧ addr ≤ timerCtrl

/-- A store beside the timer registers is one of the things between two calls. -/
theorem machineWrite_timer {b : Board} {va : Word} (byte : Byte)
    (h : ¬ InTimer (physicalAddress b.mmu va)) : (machineWrite va byte b).timer = b.timer := by
  unfold InTimer at h
  simp only [timerLatchLow, timerCtrl] at h
  generalize hAddr : physicalAddress b.mmu va = addr at h
  have hTimer : (b.translate va).timer = b.timer := rfl
  unfold machineWrite
  rw [hAddr, ← hTimer]
  generalize b.translate va = c
  unfold writePhysical timerCtrl timerLatchHigh timerLatchLow timerCounterHigh timerCounterLow
  by_cases hLines : addr = plicInterruptLines
  · rw [if_pos hLines]
  · rw [if_neg hLines]
    iterate 5 rw [if_neg (by omega)]
    -- no other test of the chain is about the timer
    simp only [apply_ite Board.timer, ite_self]

/-! ## §2 The counter -/

section Period

variable {b c : Board} {n : Nat}

theorem Timer.period_pos (t : Timer) : 0 < t.period := by
  unfold Timer.period
  split
  · decide
  · next hLatch =>
    apply Nat.pos_of_ne_zero
    intro hZero
    exact hLatch (BitVec.eq_of_toNat_eq hZero)

theorem Timer.period_le (t : Timer) : t.period ≤ 0x10000 := by
  have hLatch := t.latch.isLt
  unfold Timer.period
  split <;> omega

/-- The latch is the period, modulo 65536. -/
theorem Timer.latch_eq (t : Timer) : t.latch = BitVec.ofNat 16 t.period := by
  unfold Timer.period
  split
  · next hLatch => rw [hLatch]; rfl
  · rw [BitVec.ofNat_toNat, BitVec.setWidth_eq]

/-- What holds behind `n` calls: the timer is on, its latch is as it was, and the counter holds
    the number of calls left. -/
structure Counting (t : Timer) (n : Nat) (u : Timer) : Prop where
  ctrl : u.ctrl = timerEnableTrue
  latchLow : u.latchLow = t.latchLow
  latchHigh : u.latchHigh = t.latchHigh
  counter : u.counter = BitVec.ofNat 16 (t.period - n % t.period)

theorem Counting.latch {t u : Timer} (h : Counting t n u) : u.latch = t.latch := by
  unfold Timer.latch
  rw [h.latchLow, h.latchHigh]

/-- The remainder goes up by one, or falls to 0. -/
theorem mod_succ_cases {p : Nat} (hPos : 0 < p) (n : Nat) :
    n % p + 1 = p ∧ (n + 1) % p = 0 ∨ n % p + 1 < p ∧ (n + 1) % p = n % p + 1 := by
  have hMod := Nat.mod_lt n hPos
  rw [← Nat.mod_add_mod n p 1]
  by_cases hLast : n % p + 1 = p
  · exact .inl ⟨hLast, by rw [hLast, Nat.mod_self]⟩
  · have hLt : n % p + 1 < p := by omega
    exact .inr ⟨hLt, Nat.mod_eq_of_lt hLt⟩

/-- The counter expires at the next call if that is one of the raises. -/
theorem Counting.expires_iff {t u : Timer} (h : Counting t n u) :
    u.counter - 1 = 0 ↔ t.period ∣ n + 1 := by
  have hLe := t.period_le
  rw [h.counter, Nat.dvd_iff_mod_eq_zero]
  -- the counter is what is left of the period, and 0 is left at its multiples
  rcases mod_succ_cases t.period_pos n with ⟨hLast, hNext⟩ | ⟨hMore, hNext⟩
  · have hOne : t.period - n % t.period = 1 := by omega
    rw [hNext, hOne]
    decide
  · have hTwo : ¬ BitVec.ofNat 16 (t.period - n % t.period) - 1 = 0 := by
      intro hZero
      have hNat := congrArg BitVec.toNat hZero
      have hOne : (1 : Word).toNat = 1 := rfl
      have hNone : (0 : Word).toNat = 0 := rfl
      rw [BitVec.toNat_sub, hOne, hNone, BitVec.toNat_ofNat] at hNat
      omega
    constructor
    · intro hZero
      exact absurd hZero hTwo
    · intro hZero
      omega

/-- **Step lemma**: a call keeps the count. -/
theorem Counting.step {t : Timer} (h : Counting t n c.timer) :
    Counting t (n + 1) (timerStep c).timer := by
  have hOn : ¬ c.timer.ctrl = timerEnableFalse := by
    rw [h.ctrl]
    decide
  have hExpires := h.expires_iff
  have hLatch := h.latch
  have hCounter := h.counter
  unfold Timer.latch at hLatch
  unfold Timer.counter at hExpires hCounter
  unfold timerStep
  rw [if_neg hOn]
  dsimp only
  split
  · next hZero =>
    -- the counter is reloaded, and a whole period is left
    refine ⟨h.ctrl, h.latchLow, h.latchHigh, ?_⟩
    show wordOf c.timer.latchLow c.timer.latchHigh = _
    have hDvd := hExpires.mp hZero
    rw [hLatch, Nat.mod_eq_zero_of_dvd hDvd, Nat.sub_zero]
    exact t.latch_eq
  · next hMore =>
    refine ⟨h.ctrl, h.latchLow, h.latchHigh, ?_⟩
    show wordOf (lowByte _) (highByte _) = _
    have hNot : ¬ (n + 1) % t.period = 0 := fun hMod =>
      hMore (hExpires.mpr (Nat.dvd_of_mod_eq_zero hMod))
    rcases mod_succ_cases t.period_pos n with ⟨-, hNext⟩ | ⟨hLt, hNext⟩
    · exact absurd hNext hNot
    · rw [wordOf_low_high, hCounter, hNext]
      apply BitVec.eq_of_toNat_eq
      have hLe := t.period_le
      have hOne : (1 : Word).toNat = 1 := rfl
      rw [BitVec.toNat_sub, hOne, BitVec.toNat_ofNat, BitVec.toNat_ofNat]
      omega

/-- **Run lemma**. -/
theorem TimerRun.counting (h : TimerRun b n c) (hStart : Counting b.timer 0 b.timer) :
    Counting b.timer n c.timer := by
  induction h with
  | start => exact hStart
  | other _ hTimer ih =>
    rw [hTimer]
    exact ih
  | step _ ih => exact ih.step

/-- A call raises the pin exactly when the counter expires. -/
theorem timerStep_plic (hOn : c.timer.ctrl = timerEnableTrue) :
    (timerStep c).plic =
      if c.timer.counter - 1 = 0 then (plicRaise c plicPinTimer).plic else c.plic := by
  have hNotOff : ¬ c.timer.ctrl = timerEnableFalse := by
    rw [hOn]
    decide
  unfold timerStep
  rw [if_neg hNotOff]
  unfold Timer.counter
  dsimp only
  split <;> rfl

/-- The store that starts the timer. -/
theorem machineWrite_timerCtrl {va : Word} (h : physicalAddress b.mmu va = timerCtrl) :
    (machineWrite va timerEnableTrue b).timer =
      { b.timer with
        ctrl := timerEnableTrue
        counterHigh := b.timer.latchHigh
        counterLow := b.timer.latchLow } := by
  unfold machineWrite writePhysical
  rw [h, if_neg (by decide), if_pos rfl, if_pos rfl]
  rfl

/-- **The period of the timer**, for every latch and every run: the calls numbered `period`,
    `2 * period`, … raise the pin, and no others do. -/
theorem timer_period {va : Word} (hCtrl : physicalAddress b.mmu va = timerCtrl)
    (hRun : TimerRun (machineWrite va timerEnableTrue b) n c) :
    (timerStep c).plic =
        (if b.timer.period ∣ n + 1 then (plicRaise c plicPinTimer).plic else c.plic) ∧
      wordOf (readPhysical c timerCounterLow) (readPhysical c timerCounterHigh) =
        BitVec.ofNat 16 (b.timer.period - n % b.timer.period) := by
  have hTimer := machineWrite_timerCtrl hCtrl
  have hPeriod : (machineWrite va timerEnableTrue b).timer.period = b.timer.period := by
    rw [hTimer]
    rfl
  -- the store that enables the timer loads the counter from the latches
  have hStart : Counting (machineWrite va timerEnableTrue b).timer 0
      (machineWrite va timerEnableTrue b).timer := by
    refine ⟨by rw [hTimer], rfl, rfl, ?_⟩
    rw [Nat.zero_mod, Nat.sub_zero, ← Timer.latch_eq, hTimer]
    rfl
  have hCounting := hRun.counting hStart
  constructor
  · rw [timerStep_plic hCounting.ctrl, ← hPeriod]
    by_cases hExpires : c.timer.counter - 1 = 0
    · rw [if_pos hExpires, if_pos (hCounting.expires_iff.mp hExpires)]
    · rw [if_neg hExpires, if_neg fun hDvd => hExpires (hCounting.expires_iff.mpr hDvd)]
  · rw [← hPeriod]
    exact hCounting.counter

end Period

/-- A timer with a latch of 3. -/
def latchedBoard : Board :=
  { aliasedBoard with
    mmu := { aliasedBoard.mmu with pageTable := fun s => BitVec.ofNat 8 s.val }
    timer := ⟨0, 3, 0, 0, 0⟩ }

/-- It raises its pin at the third call. -/
theorem latchedBoard_period :
    (timerStep (timerStep (timerStep (machineWrite 0xfe56 timerEnableTrue latchedBoard)))).plic =
      ⟨plicPinTimer, true⟩ := by
  have hCtrl : physicalAddress latchedBoard.mmu 0xfe56 = timerCtrl := by decide
  have hThird := (timer_period hCtrl (.step (.step .start))).1
  rw [hThird]
  decide

end Xv6502.Emulator
