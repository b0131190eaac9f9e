import Xv6502.Boot.ReadSector

/-!
# Printing While Booting

`putchar` and `prints` of `machine/rom.s` and of `kernel/boot.s`, again the same code over different
bytes of the zero page. What they print is not of interest here: they end (`prints_ends`), and from
the boot sector on the memory is as before.
-/

namespace Xv6502.Boot

open Xv6502.Emulator

/-! ## §1 The code -/

/-- Where `pha` of `putchar` stores the character: below the return addresses of `prints` and
    `putchar`, on a stack that begins at `$01FF`. -/
def pushedCharacter : Word := 0x01fb

/-- The loop `@loop` of `putchar`; `none` if it has not ended after so many turns. -/
def waitTransmit (pace : Pace) : Nat → Nat → Board → Option Board
  | 0, _, _ => none
  | turns + 1, turn, b =>
    let b := (pace.steps turn).foldl deviceStep b
    let (status, b) := machineRead (register uartStat) b
    if status &&& uartStatusTxReady = 0 then waitTransmit pace turns (turn + 1) b else some b

/-- `putchar`; the devices move at least once in `CPU_PER_STEP` turns. -/
def putchar (pace : Pace) (c : Byte) (b : Board) : Option Board :=
  let b := machineWrite pushedCharacter c b
  (waitTransmit pace 100 0 b).map fun b =>
    let (c, b) := machineRead pushedCharacter b
    machineWrite (register uartTx) c b

/-- The loop `@loop` of `prints`, which ends with the string or when `y` wraps around. -/
def printsLoop (str : Word) (pace : Byte → Pace) : Nat → Byte → Board → Option Board
  | 0, _, b => some b
  | turns + 1, y, b =>
    let (c, b) := ldaIndirect str y b
    if c = 0 then some b
    else
      (putchar (pace y) c b).bind fun b =>
        if y + 1 = 0 then some b else printsLoop str pace turns (y + 1) b

/-- `prints`, with the pointer `str` of the zero page. -/
def prints (str : Word) (pace : Byte → Pace) (message : Word) (b : Board) : Option Board :=
  let b := machineWrite str (lowByte message) b
  let b := machineWrite (str + 1) (highByte message) b
  printsLoop str pace 256 0 b

/-! ## §2 What printing leaves alone -/

/-- Nothing is mapped, the timer is off and the disk has nothing to do. -/
structure Quiet (b : Board) : Prop where
  flat : Flat b
  timer : b.timer.ctrl = timerEnableFalse
  idle : b.disk.status ≠ diskStatusBusy

/-- The boards differ in the UART, the PLIC, the zero page and the stack page alone. -/
structure Printed (b c : Board) : Prop where
  mmu : c.mmu = b.mmu
  rom : c.rom = b.rom
  timer : c.timer = b.timer
  disk : c.disk = b.disk
  ram : ∀ a, 0x200 ≤ a → c.ram a = b.ram a

theorem Printed.refl (b : Board) : Printed b b := ⟨rfl, rfl, rfl, rfl, fun _ _ => rfl⟩

theorem Printed.trans {a b c : Board} (h : Printed a b) (h' : Printed b c) : Printed a c :=
  ⟨h'.mmu.trans h.mmu, h'.rom.trans h.rom, h'.timer.trans h.timer, h'.disk.trans h.disk,
    fun i hi => (h'.ram i hi).trans (h.ram i hi)⟩

theorem Quiet.of_printed {b c : Board} (h : Quiet b) (hPrinted : Printed b c) : Quiet c where
  flat := by
    rw [Flat, hPrinted.mmu]
    exact h.flat
  timer := by rw [hPrinted.timer, h.timer]
  idle := by
    rw [hPrinted.disk]
    exact h.idle

section Frame

variable {b : Board}

theorem Quiet.read (h : Quiet b) (va : Word) : Printed b (machineRead va b).2 := by
  unfold machineRead
  dsimp only
  rw [h.flat.translate_eq, readEffect]
  split <;> exact ⟨rfl, rfl, rfl, rfl, fun _ _ => rfl⟩

/-- A store to the zero page or to the stack page. -/
theorem Quiet.write (h : Quiet b) {va : Word} (hva : va.toNat < 0x200) (byte : Byte) :
    Printed b (machineWrite va byte b) := by
  rw [h.flat.write (by omega)]
  exact ⟨rfl, rfl, rfl, rfl, fun a ha => Function.update_of_ne (by omega) _ _⟩

theorem Quiet.write_tx (h : Quiet b) (byte : Byte) :
    Printed b (machineWrite (register uartTx) byte b) := by
  rw [machineWrite, h.flat.physicalAddress_eq, h.flat.translate_eq]
  exact ⟨rfl, rfl, rfl, rfl, fun _ _ => rfl⟩

theorem Quiet.deviceStep (h : Quiet b) (key : Option Key) : Printed b (deviceStep b key) := by
  obtain ⟨hSame, hDisk⟩ := deviceStep_idle key h.timer h.idle
  exact ⟨hSame.mmu, hSame.rom, hSame.timer, hDisk, fun a _ => congrFun hSame.ram a⟩

theorem Quiet.steps (h : Quiet b) (keys : List (Option Key)) :
    Printed b (keys.foldl Boot.deviceStep b) := by
  induction keys generalizing b with
  | nil => exact .refl b
  | cons key keys ih =>
    have hStep := h.deviceStep key
    exact hStep.trans (ih (h.of_printed hStep))

/-! ## §3 Printing ends -/

/-- The UART takes the next character. -/
def Transmits (b : Board) : Prop := b.uart.status &&& uartStatusTxReady ≠ 0

theorem or_tx_ready (status : Byte) : (status ||| uartStatusTxReady) &&& uartStatusTxReady ≠ 0 := by
  have hBit : ((status ||| uartStatusTxReady) &&& uartStatusTxReady) = uartStatusTxReady := by
    ext i hi
    rw [BitVec.getElem_and, BitVec.getElem_or]
    cases uartStatusTxReady[i] <;> simp
  rw [hBit]
  decide

theorem uartStep_transmits (key : Option Key) (b : Board) :
    Transmits ((uartStep (key.map Subtype.val) b).getD b) := by
  cases key with
  | none =>
    unfold uartStep Transmits
    dsimp only [Option.map_none, Option.getD_some]
    split
    · exact or_tx_ready _
    · next hReady => exact hReady
  | some c =>
    unfold uartStep Transmits
    dsimp only [Option.map_some]
    rw [if_neg c.2, Option.getD_some]
    split
    · exact or_tx_ready _
    · next hReady => exact hReady

theorem deviceStep_transmits (key : Option Key) (b : Board) : Transmits (deviceStep b key) := by
  have hUart := uartStep_transmits key b
  unfold deviceStep
  generalize (uartStep (key.map Subtype.val) b).getD b = c at hUart
  -- the disk and the timer leave the UART alone
  have hDisk : (diskStep diskSectorSize c).uart = c.uart := by
    unfold diskStep plicRaise
    dsimp only
    split_ifs <;> rfl
  have hTimer : (timerStep (diskStep diskSectorSize c)).uart = c.uart := by
    unfold timerStep plicRaise
    dsimp only
    split_ifs <;> exact hDisk
  rw [Transmits, hTimer]
  exact hUart

theorem steps_transmits {keys : List (Option Key)} (h : keys ≠ []) (b : Board) :
    Transmits (keys.foldl deviceStep b) := by
  induction keys generalizing b with
  | nil => exact absurd rfl h
  | cons key keys ih =>
    rcases keys with - | ⟨next, keys⟩
    · exact deviceStep_transmits key b
    · exact ih (List.cons_ne_nil _ _) _

theorem Flat.read_uart (h : Flat b) : machineRead (register uartStat) b = (b.uart.status, b) := by
  rw [machineRead, h.physicalAddress_eq, h.translate_eq]
  rfl

/-- The waiting loop ends at the latest with the first turn in which the devices move. -/
theorem waitTransmit_ends (h : Quiet b) (pace : Pace) {i turns turn : Nat} (hi : i < turns)
    (hSteps : pace.steps (turn + i) ≠ []) :
    ∃ c, waitTransmit pace turns turn b = some c ∧ Printed b c := by
  -- on the turns until the devices move
  induction i generalizing b turns turn with
  | zero =>
    obtain ⟨turns, rfl⟩ : ∃ rest, turns = rest + 1 := ⟨turns - 1, by omega⟩
    have hMoved := h.steps (pace.steps turn)
    -- one step of the UART is enough: it sends a character at each of them
    have hReady := steps_transmits hSteps b
    refine ⟨(pace.steps turn).foldl deviceStep b, ?_, hMoved⟩
    rw [waitTransmit]
    dsimp only
    rw [(h.of_printed hMoved).flat.read_uart]
    exact if_neg hReady
  | succ i ih =>
    obtain ⟨turns, rfl⟩ : ∃ rest, turns = rest + 1 := ⟨turns - 1, by omega⟩
    have hMoved := h.steps (pace.steps turn)
    rw [waitTransmit]
    dsimp only
    rw [(h.of_printed hMoved).flat.read_uart]
    dsimp only
    split
    · have hFewer : i < turns := by omega
      have hLater : pace.steps (turn + 1 + i) ≠ [] := by rwa [Nat.add_right_comm, Nat.add_assoc]
      obtain ⟨c, hWait, hc⟩ := ih (h.of_printed hMoved) hFewer hLater
      exact ⟨c, hWait, hMoved.trans hc⟩
    · exact ⟨_, rfl, hMoved⟩

theorem putchar_ends (h : Quiet b) (pace : Pace) (c : Byte) :
    ∃ d, putchar pace c b = some d ∧ Printed b d := by
  have hPush : Printed b (machineWrite pushedCharacter c b) := h.write (by decide) c
  obtain ⟨i, hi, hSteps⟩ := pace.often 0
  obtain ⟨w, hWait, hWaited⟩ := waitTransmit_ends (h.of_printed hPush) pace hi hSteps
  have hQuiet := (h.of_printed hPush).of_printed hWaited
  have hPull := hQuiet.read pushedCharacter
  refine ⟨_, by rw [putchar, hWait, Option.map_some], ?_⟩
  exact (hPush.trans hWaited).trans (hPull.trans ((hQuiet.of_printed hPull).write_tx _))

theorem Quiet.ldaIndirect (h : Quiet b) (zp : Word) (y : Byte) :
    Printed b (ldaIndirect zp y b).2 := by
  unfold Boot.ldaIndirect indirect
  have hLow := h.read zp
  have hHigh := (h.of_printed hLow).read (zp + 1)
  exact (hLow.trans hHigh).trans (((h.of_printed hLow).of_printed hHigh).read _)

theorem printsLoop_ends (h : Quiet b) (str : Word) (pace : Byte → Pace) (turns : Nat) (y : Byte) :
    ∃ c, printsLoop str pace turns y b = some c ∧ Printed b c := by
  -- on the turns: the 8-bit index bounds them
  induction turns generalizing b y with
  | zero => exact ⟨b, rfl, .refl b⟩
  | succ turns ih =>
    have hLoad := h.ldaIndirect str y
    rw [printsLoop]
    generalize Boot.ldaIndirect str y b = loaded at hLoad
    obtain ⟨c, d⟩ := loaded
    dsimp only at hLoad ⊢
    split
    · exact ⟨d, rfl, hLoad⟩
    · obtain ⟨e, hPut, hPrinted⟩ := putchar_ends (h.of_printed hLoad) (pace y) c
      rw [hPut, Option.bind_some]
      split
      · exact ⟨e, rfl, hLoad.trans hPrinted⟩
      · obtain ⟨f, hLoop, hRest⟩ := ih ((h.of_printed hLoad).of_printed hPrinted) (y + 1)
        exact ⟨f, hLoop, (hLoad.trans hPrinted).trans hRest⟩

/-- **`prints`** ends and changes nothing that the boot chain loads. -/
theorem prints_ends (h : Quiet b) {str : Word} (hStr : str.toNat + 1 < 0x100) (pace : Byte → Pace)
    (message : Word) : ∃ c, prints str pace message b = some c ∧ Printed b c := by
  have hNext : (str + 1).toNat < 0x200 := by
    rw [toNat_succ hStr]
    omega
  have hLow : Printed b (machineWrite str (lowByte message) b) := h.write (by omega) _
  have hHigh := (h.of_printed hLow).write hNext (highByte message)
  obtain ⟨c, hLoop, hPrinted⟩ :=
    printsLoop_ends ((h.of_printed hLow).of_printed hHigh) str pace 256 0
  exact ⟨c, hLoop, (hLow.trans hHigh).trans hPrinted⟩

end Frame

end Xv6502.Boot
