import Xv6502.Kernel.MemoryCopy

/-!
# `printk`

`vprintk` and `print_int` of `kernel/printk.c`. All number conversions go through one routine on a
signed `long` of 32 bits, which divides and takes remainders with their signs. The digits it finds
are right for a number that is not negative (`digitLoop_digits`); for a negative one a remainder is
negative sooner or later, and `digits` is indexed out of range (`digitLoop_negative`).

`vprintk_number_iff` says for which values a conversion prints the canonical representation: for all
values of `%d`, `%u` and `%x`, for all but the least one of `%ld`, and for those below `0x80000000`
of `%lu` and `%lx`.
-/

namespace Xv6502.Kernel.Printk

open Xv6502.Emulator

/-! ## §1 `print_int` -/

/-- A `long` of cc65. -/
abbrev Long := BitVec 32

/-- What goes wrong while printing. -/
inductive Fault where
  | digitsIndex
  | bufferIndex
  | endlessString
  deriving DecidableEq, Repr

/-- The byte of a character of the source. -/
def charByte (c : Char) : Byte := BitVec.ofNat 8 c.toNat

/-- `digits`, with the NUL that ends it. -/
def digits : List Byte := "0123456789abcdef".toList.map charByte ++ [0]

/-- `digits[index]`, with an index that has a sign. -/
def digitAt (index : Int) : Option Byte := if 0 ≤ index then digits[index.toNat]? else none

/-- The loop `do … while((number /= base) != 0)`; `room` is what is left of the 20 bytes of
    `buffer`. -/
def digitLoop (base : Long) : Nat → Long → List Byte → Except Fault (List Byte)
  | 0, _, _ => .error .bufferIndex
  | room + 1, number, buffer =>
    match digitAt (number.srem base).toInt with
    | none => .error .digitsIndex
    | some digit =>
      let buffer := buffer ++ [digit]
      let number := number.sdiv base
      if number ≠ 0 then digitLoop base room number buffer else .ok buffer

/-- `print_int`, with what it puts out. -/
def printInt (number base : Long) (sign : Bool) : Except Fault (List Byte) :=
  let negative := sign && decide (number.toInt < 0)
  let number := if negative then -number else number
  match digitLoop base 20 number [] with
  | .error fault => .error fault
  | .ok buffer =>
    if negative then
      if buffer.length < 20 then .ok (buffer ++ [charByte '-']).reverse else .error .bufferIndex
    else .ok buffer.reverse

/-! ## §2 `vprintk` -/

/-- What has been put out, and what went wrong then, if something did. -/
structure Printed where
  emitted : List Byte
  fault : Option Fault
  deriving DecidableEq, Repr

/-- Output in front of other output. -/
def Printed.emit (bytes : List Byte) (rest : Printed) : Printed :=
  { rest with emitted := bytes ++ rest.emitted }

/-- A call that may go wrong, and what is put out after it. -/
def Printed.andThen (call : Except Fault (List Byte)) (rest : Printed) : Printed :=
  match call with
  | .error fault => ⟨[], some fault⟩
  | .ok bytes => rest.emit bytes

/-- `va_arg(ap, int)` and `va_arg(ap, uint16_t)`: the arguments lie downwards from `ap`. -/
def vaArg16 (mem : Memory) (ap : Word) : Word := mem (ap - 1) ++ mem (ap - 2)

/-- `va_arg(ap, long)` and `va_arg(ap, uint32_t)`. -/
def vaArg32 (mem : Memory) (ap : Word) : Long := vaArg16 mem ap ++ vaArg16 mem (ap - 2)

/-- The loop of `print_str`; `none` if so many bytes have no NUL among them. -/
def strLoop (mem : Memory) : Nat → Word → Option (List Byte)
  | 0, _ => none
  | n + 1, str => if mem str = 0 then some [] else (strLoop mem n (str + 1)).map (mem str :: ·)

/-- `print_str`; without a NUL in the whole address space it never ends. -/
def printStr (mem : Memory) (str : Word) : Except Fault (List Byte) :=
  if str = 0 then .ok ("(null)".toList.map charByte)
  else
    match strLoop mem 0x10000 str with
    | some bytes => .ok bytes
    | none => .error .endlessString

/-- The loop of `print_ptr`. -/
def ptrLoop : Nat → Word → Except Fault (List Byte)
  | 0, _ => .ok []
  | n + 1, ptr =>
    match digitAt (ptr >>> 12).toNat, ptrLoop n (ptr <<< 4) with
    | some digit, .ok rest => .ok (digit :: rest)
    | none, _ => .error .digitsIndex
    | _, .error fault => .error fault

/-- `print_ptr`. -/
def printPtr (ptr : Word) : Except Fault (List Byte) :=
  (ptrLoop 4 ptr).map ([charByte '0', charByte 'x'] ++ ·)

/-- Where the loop of `vprintk` is: in the text (`state` 0), behind a `%`, or at a character that
    `i += 1` skips. -/
inductive State where
  | text
  | percent
  | skip
  deriving DecidableEq, Repr

/-- The branches of `vprintk` behind a `%`: what is put out, the next `ap`, and the state. -/
def directive (mem : Memory) (c0 c1 : Byte) (ap : Word) : Except Fault (List Byte) × Word × State :=
  if c0 = charByte 'd' then
    (printInt ((vaArg16 mem ap).signExtend 32) 10 true, ap - 2, .text)
  -- two characters behind the `%`: the state skips the second one
  else if c0 = charByte 'l' ∧ c1 = charByte 'd' then
    (printInt (vaArg32 mem ap) 10 true, ap - 4, .skip)
  else if c0 = charByte 'u' then
    (printInt ((vaArg16 mem ap).zeroExtend 32) 10 false, ap - 2, .text)
  else if c0 = charByte 'l' ∧ c1 = charByte 'u' then
    (printInt (vaArg32 mem ap) 10 false, ap - 4, .skip)
  else if c0 = charByte 'x' then
    (printInt ((vaArg16 mem ap).zeroExtend 32) 16 false, ap - 2, .text)
  else if c0 = charByte 'l' ∧ c1 = charByte 'x' then
    (printInt (vaArg32 mem ap) 16 false, ap - 4, .skip)
  else if c0 = charByte 'p' then (printPtr (vaArg16 mem ap), ap - 2, .text)
  else if c0 = charByte 'c' then (.ok [(vaArg16 mem ap).truncate 8], ap - 2, .text)
  else if c0 = charByte 's' then (printStr mem (vaArg16 mem ap), ap - 2, .text)
  else if c0 = charByte '%' then (.ok [charByte '%'], ap, .text)
  -- an unknown directive is put out as it stands
  else (.ok [charByte '%', c0], ap, .text)

/-- The loop of `vprintk`, over what is left of the format. -/
def vprintkLoop (mem : Memory) : State → List Byte → Word → Printed
  | _, [], _ => ⟨[], none⟩
  | .text, c0 :: fmt, ap =>
    if c0 = charByte '%' then vprintkLoop mem .percent fmt ap
    else (vprintkLoop mem .text fmt ap).emit [c0]
  | .percent, c0 :: fmt, ap =>
    -- `c1` is 0 at the end of the format; `c2` is not used
    let (call, ap, state) := directive mem c0 (fmt.headD 0) ap
    Printed.andThen call (vprintkLoop mem state fmt ap)
  | .skip, _ :: fmt, ap => vprintkLoop mem .text fmt ap

/-- `vprintk`, of a format without its NUL. -/
def vprintk (mem : Memory) (fmt : List Byte) (ap : Word) : Printed := vprintkLoop mem .text fmt ap

/-! ## §3 Representations of numbers -/

/-- The characters of a list as bytes. -/
def bytes (chars : List Char) : List Byte := chars.map charByte

/-- The canonical representation of a number: a minus sign if it is negative, and its digits. -/
def canonical (base : Nat) (value : Int) : List Byte :=
  (if value < 0 then [charByte '-'] else []) ++ bytes (Nat.toDigits base value.natAbs)

/-- The digits read back. -/
def readDigits (base : Nat) (shown : List Byte) : Nat :=
  shown.foldl (fun n c => n * base + digits.idxOf c) 0

/-- A number read back. -/
def readNumber (base : Nat) (shown : List Byte) : Int :=
  if shown.head? = some (charByte '-') then -(readDigits base shown.tail : Int)
  else readDigits base shown

theorem digitAt_of_lt : ∀ n < 16, digitAt (n : Nat) = some (charByte (Nat.digitChar n)) := by
  decide

theorem digitAt_of_negative {index : Int} (h : index < 0) : digitAt index = none := by
  rw [digitAt, if_neg (by omega)]

theorem idxOf_digitChar : ∀ n < 16, digits.idxOf (charByte (Nat.digitChar n)) = n := by decide

theorem digitChar_ne_minus : ∀ n < 16, charByte (Nat.digitChar n) ≠ charByte '-' := by decide

section Representation

variable {base n : Nat}

/-- The digits of a number read back give the number. -/
theorem readDigits_toDigits (hBase : 1 < base) (hDigits : base ≤ 16) :
    readDigits base (bytes (Nat.toDigits base n)) = n := by
  induction n using Nat.strong_induction_on with
  | _ n ih =>
    rw [Nat.toDigits_eq_if hBase]
    by_cases hLast : n < base
    · rw [if_pos hLast]
      show 0 * base + digits.idxOf (charByte (Nat.digitChar n)) = n
      rw [idxOf_digitChar n (by omega)]
      omega
    · rw [if_neg hLast]
      have hMod : n % base < base := Nat.mod_lt _ (by omega)
      have hRest := ih (n / base) (Nat.div_lt_self (by omega) hBase)
      unfold readDigits bytes at hRest ⊢
      rw [List.map_append, List.foldl_append, hRest]
      show n / base * base + digits.idxOf (charByte (Nat.digitChar (n % base))) = n
      rw [idxOf_digitChar _ (by omega), Nat.mul_comm]
      exact Nat.div_add_mod n base

theorem head_toDigits (hBase : 1 < base) (hDigits : base ≤ 16) :
    (bytes (Nat.toDigits base n)).head? ≠ some (charByte '-') := by
  induction n using Nat.strong_induction_on with
  | _ n ih =>
    rw [Nat.toDigits_eq_if hBase]
    by_cases hLast : n < base
    · rw [if_pos hLast]
      intro hHead
      exact digitChar_ne_minus n (by omega) (Option.some.inj hHead)
    · rw [if_neg hLast]
      have hRest := ih (n / base) (Nat.div_lt_self (by omega) hBase)
      unfold bytes at hRest ⊢
      rw [List.map_append, List.head?_append_of_ne_nil _ (by simp)]
      exact hRest

/-- A canonical representation read back gives the number. -/
theorem readNumber_canonical (value : Int) (hBase : 1 < base) (hDigits : base ≤ 16) :
    readNumber base (canonical base value) = value := by
  have hRead := readDigits_toDigits (n := value.natAbs) hBase hDigits
  unfold readNumber canonical
  by_cases hNegative : value < 0
  · rw [if_pos hNegative]
    show -(readDigits base (bytes (Nat.toDigits base value.natAbs)) : Int) = value
    omega
  · rw [if_neg hNegative, List.nil_append, if_neg (head_toDigits hBase hDigits)]
    omega

end Representation

/-! ## §4 The loop of `print_int` -/

section Loop

variable {base : Long} {b : Nat} {number : Long} {room : Nat} {buffer : List Byte}

/-- One turn of the loop on a number that is not negative. -/
theorem digitLoop_turn (hBase : base.toInt = b) (hLow : 1 < b) (hHigh : b ≤ 16) {n : Nat}
    (hNumber : number.toInt = n) :
    (number.sdiv base).toInt = (n / b : Nat) ∧
    digitAt (number.srem base).toInt = some (charByte (Nat.digitChar (n % b))) := by
  constructor
  · have hRange : (n / b : Nat) < 2 ^ 31 := by
      have hMax := number.toInt_lt
      have hDiv : n / b ≤ n := Nat.div_le_self n b
      omega
    rw [BitVec.toInt_sdiv, hBase, hNumber, ← Int.ofNat_tdiv]
    generalize n / b = quotient at hRange
    apply Int.bmod_eq_of_le <;> omega
  · rw [BitVec.toInt_srem, hBase, hNumber, ← Int.ofNat_tmod]
    have hMod : n % b < b := Nat.mod_lt _ (by omega)
    exact digitAt_of_lt _ (by omega)

/-- The loop finds the digits of a number that is not negative, the last one first. -/
theorem digitLoop_digits (hBase : base.toInt = b) (hLow : 1 < b) (hHigh : b ≤ 16) {n : Nat}
    (hNumber : number.toInt = n) (hRoom : (Nat.toDigits b n).length ≤ room) :
    digitLoop base room number buffer =
      .ok (buffer ++ (bytes (Nat.toDigits b n)).reverse) := by
  -- on the room in the buffer; a turn takes the last digit off
  induction room generalizing number n buffer with
  | zero =>
    have hPos : 0 < (Nat.toDigits b n).length := Nat.length_toDigits_pos
    omega
  | succ room ih =>
    obtain ⟨hDiv, hDigit⟩ := digitLoop_turn hBase hLow hHigh hNumber
    rw [digitLoop, hDigit]
    have hZero : number.sdiv base = 0 ↔ n < b := by
      rw [← BitVec.toInt_inj, hDiv]
      have hQuotient : n / b = 0 ↔ n < b := by
        rw [Nat.div_eq_zero_iff]
        omega
      show ((n / b : Nat) : Int) = 0 ↔ _
      omega
    rw [Nat.toDigits_eq_if hLow] at hRoom ⊢
    -- the quotient is 0 behind the first digit of the number
    by_cases hLast : n < b
    · rw [if_pos hLast, Nat.mod_eq_of_lt hLast]
      dsimp only
      rw [if_neg (not_not.mpr (hZero.mpr hLast))]
      rfl
    · rw [if_neg hLast] at hRoom ⊢
      dsimp only
      rw [if_pos (mt hZero.mp hLast), ih hDiv]
      · simp [bytes]
      · rw [List.length_append, List.length_singleton] at hRoom
        omega

/-- On a negative number the loop comes to a remainder that is negative. -/
theorem digitLoop_negative (hBase : base.toInt = b) (hLow : 1 < b) (hNumber : number.toInt < 0) :
    ∀ shown, digitLoop base room number buffer ≠ .ok shown := by
  induction room generalizing number buffer with
  | zero => intro shown hShown; cases hShown
  | succ room ih =>
    intro shown hShown
    rw [digitLoop] at hShown
    obtain ⟨m, hm⟩ : ∃ m : Nat, number.toInt = -(m : Int) := ⟨number.toInt.natAbs, by omega⟩
    -- C rounds towards 0, so the remainder of a negative number is not positive
    have hRem : (number.srem base).toInt = -((m % b : Nat) : Int) := by
      rw [BitVec.toInt_srem, hBase, hm, Int.neg_tmod, ← Int.ofNat_tmod]
    by_cases hDivides : m % b = 0
    · -- the digit is 0, and the quotient is negative again
      have hMin := number.le_toInt
      have hQuotient : 0 < m / b :=
        Nat.div_pos (Nat.le_of_dvd (by omega) (Nat.dvd_of_mod_eq_zero hDivides)) (by omega)
      have hRange : m / b ≤ m := Nat.div_le_self m b
      have hDiv : (number.sdiv base).toInt = -((m / b : Nat) : Int) := by
        rw [BitVec.toInt_sdiv, hBase, hm, Int.neg_tdiv, ← Int.ofNat_tdiv]
        generalize m / b = quotient at hRange hQuotient
        apply Int.bmod_eq_of_le <;> omega
      have hNonzero : number.sdiv base ≠ 0 := by
        intro hZero
        have hToInt : (number.sdiv base).toInt = 0 := by rw [hZero]; rfl
        omega
      rw [hRem, hDivides, show digitAt (-((0 : Nat) : Int)) = some (charByte '0') by rfl] at hShown
      dsimp only at hShown
      rw [if_pos hNonzero] at hShown
      exact ih (by omega) shown hShown
    -- a negative remainder reads in front of `digits`
    · rw [digitAt_of_negative (by omega)] at hShown
      cases hShown

end Loop

/-! ## §5 Conversions -/

section PrintInt

variable {base : Long} {b : Nat} {number : Long}

/-- A number without its sign, unless that overflows. -/
def magnitude (number : Long) (sign : Bool) : Long :=
  if sign && decide (number.toInt < 0) then -number else number

theorem toInt_neg_long (hNumber : number.toInt ≠ -2 ^ 31) : (-number).toInt = -number.toInt := by
  have hMin := number.le_toInt
  have hMax := number.toInt_lt
  rw [BitVec.toInt_neg]
  apply Int.bmod_eq_of_le <;> omega

/-- A magnitude is negative only for the least number, or for one printed without a sign. -/
theorem magnitude_nonneg_iff (sign : Bool) : 0 ≤ (magnitude number sign).toInt ↔
    if sign then number.toInt ≠ -2 ^ 31 else 0 ≤ number.toInt := by
  cases sign with
  | false => rfl
  | true =>
    by_cases hLeast : number.toInt = -2 ^ 31
    · obtain rfl : number = BitVec.intMin 32 := BitVec.eq_of_toInt_eq hLeast
      decide
    · have hNeg := toInt_neg_long hLeast
      unfold magnitude
      by_cases hNegative : number.toInt < 0
      · simp only [hNegative, decide_true, Bool.and_self, if_true]
        omega
      · simp only [hNegative, decide_false, Bool.and_false, if_true, Bool.false_eq_true, if_false]
        omega

/-- What `print_int` does with the digits the loop finds. -/
theorem printInt_eq (sign : Bool) : printInt number base sign =
    match digitLoop base 20 (magnitude number sign) [] with
    | .error fault => .error fault
    | .ok buffer =>
      if sign && decide (number.toInt < 0) then
        if buffer.length < 20 then .ok (buffer ++ [charByte '-']).reverse else .error .bufferIndex
      else .ok buffer.reverse := rfl

/-- `print_int` puts out the canonical representation if the magnitude is not negative. -/
theorem printInt_canonical (hBase : base.toInt = b) (hLow : 1 < b) (hHigh : b ≤ 16)
    (hRoom : 2 ^ 31 ≤ b ^ 19) {sign : Bool} (hNonneg : 0 ≤ (magnitude number sign).toInt) :
    printInt number base sign = .ok (canonical b number.toInt) := by
  obtain ⟨n, hn⟩ : ∃ n : Nat, (magnitude number sign).toInt = n :=
    ⟨(magnitude number sign).toInt.toNat, by omega⟩
  have hMax := (magnitude number sign).toInt_lt
  rw [printInt_eq]
  have hLength : (Nat.toDigits b n).length ≤ 19 :=
    (Nat.length_toDigits_le_iff hLow (by decide)).mpr (by omega)
  rw [digitLoop_digits hBase hLow hHigh hn (by omega)]
  dsimp only
  rw [List.nil_append]
  -- the loop sees the magnitude; the sign is put in front of it
  by_cases hNegative : sign = true ∧ number.toInt < 0
  · have hMinus : (sign && decide (number.toInt < 0)) = true := by simp [hNegative]
    have hAbs : number.toInt.natAbs = n := by
      have hLeast := (magnitude_nonneg_iff sign).mp hNonneg
      rw [if_pos hNegative.1] at hLeast
      rw [magnitude, if_pos hMinus, toInt_neg_long hLeast] at hn
      omega
    rw [if_pos hMinus, if_pos (by simpa [bytes] using by omega), canonical,
      if_pos hNegative.2, hAbs]
    simp
  · have hPlus : ¬(sign && decide (number.toInt < 0)) = true := by simpa using hNegative
    rw [magnitude, if_neg hPlus] at hn
    rw [if_neg hPlus, List.reverse_reverse, canonical, if_neg (by omega), hn]
    rfl

/-- `print_int` indexes `digits` out of range if the magnitude is negative. -/
theorem printInt_faults (hBase : base.toInt = b) (hLow : 1 < b) {sign : Bool}
    (hNegative : (magnitude number sign).toInt < 0) :
    ∀ shown, printInt number base sign ≠ .ok shown := by
  intro shown hShown
  rw [printInt_eq] at hShown
  cases hLoop : digitLoop base 20 (magnitude number sign) [] with
  | error fault => rw [hLoop] at hShown; cases hShown
  | ok buffer => exact digitLoop_negative hBase hLow hNegative buffer hLoop

end PrintInt

/-- The number conversions of `vprintk`. -/
inductive Conversion where
  | d
  | ld
  | u
  | lu
  | x
  | lx
  deriving DecidableEq, Repr

namespace Conversion

/-- The characters behind the `%`. -/
def characters : Conversion → List Byte
  | .d => bytes ['d']
  | .ld => bytes ['l', 'd']
  | .u => bytes ['u']
  | .lu => bytes ['l', 'u']
  | .x => bytes ['x']
  | .lx => bytes ['l', 'x']

/-- The base of the representation. -/
def base : Conversion → Nat
  | .x | .lx => 16
  | _ => 10

/-- The bytes of the argument. -/
def size : Conversion → Word
  | .ld | .lu | .lx => 4
  | _ => 2

/-- The value of the argument, by the type of the conversion. -/
def value (mem : Memory) (ap : Word) : Conversion → Int
  | .d => (vaArg16 mem ap).toInt
  | .u | .x => (vaArg16 mem ap).toNat
  | .ld => (vaArg32 mem ap).toInt
  | .lu | .lx => (vaArg32 mem ap).toNat

/-- The `long` that `print_int` gets. -/
def number (mem : Memory) (ap : Word) : Conversion → Long
  | .d => (vaArg16 mem ap).signExtend 32
  | .u | .x => (vaArg16 mem ap).zeroExtend 32
  | .ld | .lu | .lx => vaArg32 mem ap

/-- The conversion has a sign. -/
def sign : Conversion → Bool
  | .d | .ld => true
  | _ => false

/-- The values that are printed as they are. -/
def Printable (value : Int) : Conversion → Prop
  | .d | .u | .x => True
  | .ld => value ≠ -2 ^ 31
  | .lu | .lx => value < 2 ^ 31

instance (value : Int) (conv : Conversion) : Decidable (conv.Printable value) := by
  cases conv <;> unfold Conversion.Printable <;> infer_instance

variable {mem : Memory} {ap : Word} (conv : Conversion)

/-- `vprintk` comes to the call of `print_int`, and goes on behind the conversion. -/
theorem vprintkLoop_conversion (fmt : List Byte) :
    vprintkLoop mem .text (charByte '%' :: conv.characters ++ fmt) ap =
      Printed.andThen (printInt (conv.number mem ap) (BitVec.ofNat 32 conv.base) conv.sign)
        (vprintkLoop mem .text fmt (ap - conv.size)) := by
  cases conv <;> rfl

theorem base_bounds : 1 < conv.base ∧ conv.base ≤ 16 ∧ 2 ^ 31 ≤ conv.base ^ 19 ∧
    (BitVec.ofNat 32 conv.base).toInt = conv.base := by
  cases conv <;> decide

/-- An `int` and a `uint16_t` as a `long`. -/
theorem toInt_number16 (arg : Word) :
    (arg.signExtend 32).toInt = arg.toInt ∧ (arg.zeroExtend 32).toInt = arg.toNat := by
  constructor
  · exact BitVec.toInt_signExtend_of_le (by decide)
  · have hArg := arg.isLt
    rw [BitVec.toInt_eq_toNat_of_lt] <;> rw [BitVec.toNat_setWidth] <;> omega

/-- A `uint32_t` as a `long`. -/
theorem toInt_number32 (arg : Long) :
    (0 ≤ arg.toInt ↔ (arg.toNat : Int) < 2 ^ 31) ∧ (0 ≤ arg.toInt → arg.toInt = arg.toNat) := by
  have hArg := arg.isLt
  rw [BitVec.toInt_eq_toNat_cond]
  constructor
  · constructor <;> intro h <;> split at * <;> omega
  · intro h
    split at * <;> omega

/-- `print_int` loses its number exactly if the value is not printable. -/
theorem magnitude_iff : 0 ≤ (magnitude (conv.number mem ap) conv.sign).toInt ↔
    conv.Printable (conv.value mem ap) := by
  rw [magnitude_nonneg_iff]
  have h16 := toInt_number16 (vaArg16 mem ap)
  have hArg := (vaArg16 mem ap).le_toInt
  cases conv with
  | d =>
    show (BitVec.signExtend 32 _).toInt ≠ _ ↔ True
    rw [h16.1]
    exact iff_true_intro (by omega)
  | ld => exact Iff.rfl
  | u =>
    show 0 ≤ (BitVec.zeroExtend 32 _).toInt ↔ True
    rw [h16.2]
    exact iff_true_intro (by omega)
  | x =>
    show 0 ≤ (BitVec.zeroExtend 32 _).toInt ↔ True
    rw [h16.2]
    exact iff_true_intro (by omega)
  | lu => exact (toInt_number32 _).1
  | lx => exact (toInt_number32 _).1

/-- A printable value is the one `print_int` gets. -/
theorem number_toInt (h : conv.Printable (conv.value mem ap)) :
    (conv.number mem ap).toInt = conv.value mem ap := by
  have h16 := toInt_number16 (vaArg16 mem ap)
  have h32 := toInt_number32 (vaArg32 mem ap)
  cases conv with
  | d => exact h16.1
  | ld => rfl
  | u => exact h16.2
  | x => exact h16.2
  | lu => exact h32.2 (h32.1.mpr h)
  | lx => exact h32.2 (h32.1.mpr h)

end Conversion

/-- **The number conversions of `vprintk`.** At a conversion, `vprintk` puts out the canonical
    representation of its argument and goes on behind it, exactly if the value is printable; and
    that representation reads back as the value. `print_int` divides a signed number for all of
    the conversions, so what counts is that the magnitude fits into 31 bits. -/
theorem vprintk_number_iff (mem : Memory) (conv : Conversion) (fmt : List Byte) (ap : Word) :
    (vprintkLoop mem .text (charByte '%' :: conv.characters ++ fmt) ap =
        (vprintkLoop mem .text fmt (ap - conv.size)).emit
          (canonical conv.base (conv.value mem ap)) ↔
      conv.Printable (conv.value mem ap)) ∧
    readNumber conv.base (canonical conv.base (conv.value mem ap)) = conv.value mem ap := by
  obtain ⟨hLow, hHigh, hRoom, hBase⟩ := conv.base_bounds
  refine ⟨?_, readNumber_canonical _ hLow hHigh⟩
  rw [conv.vprintkLoop_conversion, ← conv.magnitude_iff]
  constructor
  · intro hShown
    by_contra hNegative
    cases hCall : printInt (conv.number mem ap) (BitVec.ofNat 32 conv.base) conv.sign with
    | ok shown => exact printInt_faults hBase hLow (by omega) shown hCall
    | error fault =>
      -- nothing has been put out, and a canonical representation is not empty
      rw [hCall] at hShown
      have hEmitted := congrArg (List.length ∘ Printed.emitted) hShown
      have hDigits : 0 < (Nat.toDigits conv.base (conv.value mem ap).natAbs).length :=
        Nat.length_toDigits_pos
      simp [Printed.andThen, Printed.emit, canonical, bytes] at hEmitted
      omega
  · intro hNonneg
    rw [printInt_canonical hBase hLow hHigh hRoom hNonneg,
      conv.number_toInt (conv.magnitude_iff.mp hNonneg)]
    rfl

/-- The argument `0x80000000`, below `ap` = 4. -/
def halfRange : Memory := fun addr => if addr = 3 then 0x80 else 0

/-- `%lu` and `%lx` of `0x80000000` and `%ld` of the least `long` index `digits` out of range. -/
theorem half_range_faults :
    Conversion.lu.value halfRange 4 = 0x80000000 ∧ Conversion.ld.value halfRange 4 = -0x80000000 ∧
    vprintk halfRange (bytes ['%', 'l', 'u']) 4 = ⟨[], some .digitsIndex⟩ ∧
    vprintk halfRange (bytes ['%', 'l', 'x']) 4 = ⟨[], some .digitsIndex⟩ ∧
    vprintk halfRange (bytes ['%', 'l', 'd']) 4 = ⟨[], some .digitsIndex⟩ ∧
    vprintk halfRange (bytes ['%', 'l', 'u']) 4 ≠
      ⟨canonical 10 (Conversion.lu.value halfRange 4), none⟩ := by
  refine ⟨by decide, by decide, by decide, by decide, by decide, ?_⟩
  intro hShown
  exact absurd (congrArg Printed.fault hShown) (by decide)

end Xv6502.Kernel.Printk
