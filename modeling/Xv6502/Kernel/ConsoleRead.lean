import Xv6502.Kernel.ConsoleWrite

/-!
# `console_read`

`console_read` of `kernel/console.c` reads a line with editing. What it reads is a stream of results
of `uart_getc`: a byte, or -1, at which the process goes to sleep and tries again. It takes as few
bytes as make up a line: up to a CR or LF, or until the line has `min(n, 128)` bytes
(`readLoop_spec`).

The echo goes to the terminal of the host, which is a parameter: `Terminal.Conforms` says what is
relied on. The echo of a byte is the byte itself, and the echo of an erasure takes back one cell. So
the terminal shows the line as long as each byte of it takes one cell of one row
(`consoleRead_cooked`); it does not if a control byte without a cell is typed and erased, nor if the
line is erased back over the end of a row (`echo_not_shown`).
-/

namespace Xv6502.Kernel.Console

open Xv6502.Emulator UserCopy

/-! ## §1 The code -/

/-- `'\b'`. -/
def backspace : Byte := 0x08

/-- DEL. -/
def delete : Byte := 0x7f

/-- `' '`. -/
def blank : Byte := 0x20

/-- The variables of `console_read`, what has been echoed, and the memory. -/
structure Line where
  buffer : Nat → Byte
  bytesRead : Nat
  echoed : List Byte
  copy : CopyState

/-- What has become of a call. -/
inductive Reading where
  /-- `buffer` has been indexed out of range. -/
  | fault
  /-- The process sleeps on the ring buffer. -/
  | waiting (line : Line)
  /-- The line is ready; the rest of the input has not been looked at. -/
  | done (line : Line) (rest : List (Option Byte))

/-- `buffer[bytes_read++] = c`. -/
def Line.push (line : Line) (c : Byte) : Option Line :=
  if line.bytesRead < bufferSize then
    some { line with
      buffer := Function.update line.buffer line.bytesRead c, bytesRead := line.bytesRead + 1 }
  else none

/-- `uart_putc_sync`, for one byte after the other. -/
def Line.echo (line : Line) (bytes : List Byte) : Line :=
  { line with echoed := line.echoed ++ bytes }

/-- The loop of `console_read`, over the results of `uart_getc`. -/
def readLoop (others : Others) (maxRead : Nat) : Line → List (Option Byte) → Reading
  | line, [] => if line.bytesRead < maxRead then .waiting line else .done line []
  | line, none :: input =>
    if line.bytesRead < maxRead then
      -- `sleep(&ring_buffer)`
      readLoop others maxRead { line with copy := others input.length line.copy } input
    else .done line (none :: input)
  | line, some c :: input =>
    if line.bytesRead < maxRead then
      if c = backspace ∨ c = delete then
        if 0 < line.bytesRead then
          readLoop others maxRead
            ({ line with bytesRead := line.bytesRead - 1 }.echo [backspace, blank, backspace]) input
        else readLoop others maxRead line input
      else if c = carriageReturn ∨ c = newline then
        match line.push newline with
        | none => .fault
        | some line => .done (line.echo [carriageReturn, newline]) input
      else
        match line.push c with
        | none => .fault
        | some line => readLoop others maxRead (line.echo [c]) input
    else .done line (some c :: input)

/-- What has become of a call of `console_read`. -/
inductive Outcome where
  | fault
  | waiting (line : Line)
  | returned (value : Word) (line : Line) (copy : CopyState) (rest : List (Option Byte))

/-- `console_read`, on a buffer with any contents. -/
def consoleRead (others : Others) (kernelFrame : Frame) (userDst n : Word) (buffer : Nat → Byte)
    (input : List (Option Byte)) (s : CopyState) : Outcome :=
  let maxRead := if n.toNat < bufferSize then n.toNat else bufferSize
  match readLoop others maxRead ⟨buffer, 0, [], s⟩ input with
  | .fault => .fault
  | .waiting line => .waiting line
  | .done line rest =>
    let (result, copy) :=
      line.copy.copyToUser line.buffer userDst (BitVec.ofNat 16 line.bytesRead) kernelFrame
    -- the line has been taken from the input even if it cannot be delivered
    if result < 0 then .returned (-1) line copy rest
    else .returned (BitVec.ofNat 16 line.bytesRead) line copy rest

/-! ## §2 Lines -/

/-- The bytes among the results of `uart_getc`. -/
def stream (input : List (Option Byte)) : List Byte := input.filterMap id

/-- A CR or LF. -/
def EndsLine (c : Byte) : Prop := c = carriageReturn ∨ c = newline

instance (c : Byte) : Decidable (EndsLine c) := inferInstanceAs (Decidable (_ ∨ _))

/-- One byte edits the line. -/
def edit (line : List Byte) (c : Byte) : List Byte :=
  if c = backspace ∨ c = delete then line.dropLast
  else if EndsLine c then line ++ [newline]
  else line ++ [c]

/-- The edited line. -/
def edited (bytes : List Byte) : List Byte := bytes.foldl edit []

/-- A CR or LF has been read, or the edited line has as many bytes as are wanted. -/
def Complete (limit : Nat) (bytes : List Byte) : Prop :=
  (∃ c ∈ bytes, EndsLine c) ∨ limit ≤ (edited bytes).length

/-- No shorter part of the bytes completes the line. -/
def Shortest (limit : Nat) (bytes : List Byte) : Prop :=
  Complete limit bytes ∧ ∀ q, q <+: bytes → q ≠ bytes → ¬ Complete limit q

/-! ## §3 The terminal -/

/-- A terminal, by what it does with a byte and by what it shows. -/
structure Terminal (σ : Type) where
  put : σ → Byte → σ
  /-- How many cells a row has. -/
  columns : Nat
  /-- The column of the cursor. -/
  column : σ → Nat
  /-- The cells of the row of the cursor. -/
  row : σ → Nat → Byte
  /-- The rows above it, the nearest first, those that have scrolled away included. -/
  above : σ → List (Nat → Byte)
  /-- The bytes that take up one cell. -/
  Prints : Byte → Prop

namespace Terminal

variable {σ : Type} {T : Terminal σ}

/-- What a terminal is relied on to do: it prints a byte where the cursor is, as long as that is not
    the last column, and knows BS, CR and, in the first column, LF. Nothing is said of other control
    bytes, nor of the end of a row. -/
structure Conforms (T : Terminal σ) : Prop where
  ascii : ∀ c, 0x20 ≤ c → c ≤ 0x7e → T.Prints c
  print : ∀ t c, T.Prints c → T.column t + 1 < T.columns →
    T.column (T.put t c) = T.column t + 1 ∧
      T.row (T.put t c) = Function.update (T.row t) (T.column t) c ∧
      T.above (T.put t c) = T.above t
  left : ∀ t, 0 < T.column t →
    T.column (T.put t backspace) = T.column t - 1 ∧ T.row (T.put t backspace) = T.row t ∧
      T.above (T.put t backspace) = T.above t
  home : ∀ t, T.column (T.put t carriageReturn) = 0 ∧
    T.row (T.put t carriageReturn) = T.row t ∧ T.above (T.put t carriageReturn) = T.above t
  down : ∀ t, T.column t = 0 →
    T.column (T.put t newline) = 0 ∧ T.above (T.put t newline) = T.row t :: T.above t

/-- Bytes are printed. -/
def puts (T : Terminal σ) (t : σ) (bytes : List Byte) : σ := bytes.foldl T.put t

/-- The row of the cursor with a line in the cells from the cursor on, and nothing behind it. -/
def withLine (T : Terminal σ) (t₀ : σ) (line : List Byte) (j : Nat) : Byte :=
  if j < T.column t₀ then T.row t₀ j else line.getD (j - T.column t₀) blank

/-- Behind what `t₀` has shown up to the cursor, the row of the cursor shows exactly the line. -/
structure Typed (T : Terminal σ) (t₀ : σ) (line : List Byte) (t : σ) : Prop where
  above : T.above t = T.above t₀
  column : T.column t = T.column t₀ + line.length
  row : ∀ j, j < T.columns → T.row t j = T.withLine t₀ line j

/-- The terminal shows exactly the line: in the row of the cursor, or, if it ends with an LF, in the
    row above. -/
inductive Shows (T : Terminal σ) (t₀ : σ) (line : List Byte) (t : σ) : Prop
  | here (inRow : newline ∉ line) (typed : T.Typed t₀ line t)
  | ended (text : List Byte) (row : Nat → Byte) (line_eq : line = text ++ [newline])
      (above : T.above t = row :: T.above t₀) (column : T.column t = 0)
      (row_eq : ∀ j, j < T.columns → row j = T.withLine t₀ text j)

/-- The bytes that are typed can be followed on the screen: each of them takes one cell or edits the
    line, and the line never comes to the end of the row. -/
structure Showable (T : Terminal σ) (t₀ : σ) (bytes : List Byte) : Prop where
  prints : ∀ c ∈ bytes, c = backspace ∨ c = delete ∨ EndsLine c ∨ T.Prints c
  room : ∀ q, q <+: bytes → (∀ c ∈ q, ¬ EndsLine c) →
    T.column t₀ + (edited q).length < T.columns

variable {t₀ t : σ} {line bytes : List Byte} {c : Byte}

theorem puts_append (T : Terminal σ) (t : σ) (xs ys : List Byte) :
    T.puts t (xs ++ ys) = T.puts (T.puts t xs) ys := List.foldl_append

theorem Conforms.prints_blank (h : T.Conforms) : T.Prints blank :=
  h.ascii blank (by decide) (by decide)

/-- What can be followed to the end can be followed before it. -/
theorem Showable.init (h : T.Showable t₀ (bytes ++ [c])) : T.Showable t₀ bytes where
  prints x hx := h.prints x (List.mem_append_left _ hx)
  room q hq := h.room q (hq.trans (List.prefix_append _ _))

/-- Behind the line its row is blank. -/
theorem withLine_behind (T : Terminal σ) (t₀ : σ) (line : List Byte) :
    T.withLine t₀ line (T.column t₀ + line.length) = blank := by
  rw [withLine, if_neg (by omega), List.getD_eq_getElem?_getD, List.getElem?_eq_none (by omega)]
  rfl

/-- One more character of a line is one more cell of its row. -/
theorem withLine_concat (T : Terminal σ) (t₀ : σ) (line : List Byte) (c : Byte) :
    T.withLine t₀ (line ++ [c]) =
      Function.update (T.withLine t₀ line) (T.column t₀ + line.length) c := by
  funext j
  by_cases hHere : j = T.column t₀ + line.length
  · subst hHere
    rw [Function.update_self, withLine, if_neg (by omega), Nat.add_sub_cancel_left]
    simp
  · rw [Function.update_of_ne hHere]
    unfold withLine
    by_cases hLeft : j < T.column t₀
    · rw [if_pos hLeft, if_pos hLeft]
    · -- a cell of the line, or right of it and blank in both
      rw [if_neg hLeft, if_neg hLeft, List.getD_eq_getElem?_getD, List.getD_eq_getElem?_getD]
      rcases Nat.lt_or_ge (j - T.column t₀) line.length with hIn | hOut
      · rw [List.getElem?_append_left hIn]
      · rw [List.getElem?_eq_none hOut, List.getElem?_eq_none]
        rw [List.length_append, List.length_singleton]
        omega

/-- The last character is erased: the cursor goes back, blanks the cell, and goes back again. -/
theorem Typed.erase (h : T.Typed t₀ line t) (hConforms : T.Conforms) (hLine : line ≠ [])
    (hRoom : T.column t₀ + line.length < T.columns) :
    T.Typed t₀ line.dropLast (T.puts t [backspace, blank, backspace]) := by
  obtain ⟨init, x, rfl⟩ := (List.eq_nil_or_concat' line).resolve_left hLine
  have hColumn := h.column
  rw [List.length_append, List.length_singleton] at hColumn hRoom
  -- three bytes, three steps of the terminal: it is at the cell of the last character after the
  -- first
  obtain ⟨hColumn₁, hRow₁, hAbove₁⟩ := hConforms.left t (by omega)
  generalize hLeft : T.put t backspace = t₁ at hColumn₁ hRow₁ hAbove₁
  obtain ⟨hColumn₂, hRow₂, hAbove₂⟩ := hConforms.print t₁ _ hConforms.prints_blank (by omega)
  generalize hBlank : T.put t₁ blank = t₂ at hColumn₂ hRow₂ hAbove₂
  obtain ⟨hColumn₃, hRow₃, hAbove₃⟩ := hConforms.left t₂ (by omega)
  have hPuts : T.puts t [backspace, blank, backspace] = T.put t₂ backspace := by
    rw [← hBlank, ← hLeft]
    rfl
  have hCell : T.column t₁ = T.column t₀ + init.length := by omega
  rw [hPuts, List.dropLast_concat]
  refine ⟨hAbove₃.trans (hAbove₂.trans (hAbove₁.trans h.above)), by omega, fun j hj => ?_⟩
  rw [hRow₃, hRow₂, hRow₁, hCell]
  by_cases hHere : j = T.column t₀ + init.length
  · rw [hHere, Function.update_self, withLine_behind]
  · rw [Function.update_of_ne hHere, h.row j hj, withLine_concat, Function.update_of_ne hHere]

end Terminal

/-! ## §4 The loop -/

section Loop

variable {σ : Type} {T : Terminal σ} {t₀ : σ} {others : Others} {kernelFrame : Frame}
  {s : CopyState} {limit : Nat} {bytes : List Byte} {line : Line} {c : Byte}

/-- The invariant of the loop, behind the bytes that have been read. -/
structure Editing (T : Terminal σ) (t₀ : σ) (kernelFrame : Frame) (s : CopyState) (limit : Nat)
    (bytes : List Byte) (line : Line) : Prop where
  content : (List.range line.bytesRead).map line.buffer = edited bytes
  inLine : ∀ c ∈ bytes, ¬ EndsLine c
  typed : T.Showable t₀ bytes → T.Typed t₀ (edited bytes) (T.puts t₀ line.echoed)
  kept : Kept kernelFrame s line.copy
  incomplete : ∀ q, q <+: bytes → q ≠ bytes → ¬ Complete limit q

/-- What holds when the line is ready. -/
structure Finished (T : Terminal σ) (t₀ : σ) (kernelFrame : Frame) (s : CopyState) (limit : Nat)
    (bytes : List Byte) (line : Line) : Prop where
  content : (List.range line.bytesRead).map line.buffer = edited bytes
  shortest : Shortest limit bytes
  shown : T.Showable t₀ bytes → T.Shows t₀ (edited bytes) (T.puts t₀ line.echoed)
  kept : Kept kernelFrame s line.copy
  bound : line.bytesRead ≤ bufferSize

theorem edited_concat (bytes : List Byte) (c : Byte) :
    edited (bytes ++ [c]) = edit (edited bytes) c := List.foldl_concat ..

theorem Editing.length (h : Editing T t₀ kernelFrame s limit bytes line) :
    (edited bytes).length = line.bytesRead := by
  rw [← h.content, List.length_map, List.length_range]

theorem Editing.not_complete (h : Editing T t₀ kernelFrame s limit bytes line)
    (hMore : line.bytesRead < limit) : ¬ Complete limit bytes := by
  rintro (⟨c, hc, hEnds⟩ | hLong)
  · exact h.inLine c hc hEnds
  · rw [h.length] at hLong
    omega

/-- No part of the bytes completes the line, one byte later. -/
theorem Editing.incomplete_concat (h : Editing T t₀ kernelFrame s limit bytes line)
    (hMore : line.bytesRead < limit) (c : Byte) :
    ∀ q, q <+: bytes ++ [c] → q ≠ bytes ++ [c] → ¬ Complete limit q := by
  intro q hPrefix hne
  have hShorter : q <+: bytes := (List.prefix_concat_iff.mp hPrefix).resolve_left hne
  by_cases hq : q = bytes
  · rw [hq]
    exact h.not_complete hMore
  · exact h.incomplete q hShorter hq

/-- A line without line ends has no LF. -/
theorem newline_not_mem_edited (hInLine : ∀ c ∈ bytes, ¬ EndsLine c) : newline ∉ edited bytes := by
  -- on the bytes, the last one at the end, as `edited` is defined
  induction bytes using List.reverseRecOn with
  | nil => exact List.not_mem_nil
  | append_singleton bytes c ih =>
    have hRest := ih fun x hx => hInLine x (List.mem_append_left _ hx)
    have hLast := hInLine c (List.mem_append_right _ List.mem_cons_self)
    rw [edited_concat, edit]
    by_cases hErase : c = backspace ∨ c = delete
    · rw [if_pos hErase]
      exact fun hMem => hRest (List.mem_of_mem_dropLast hMem)
    · rw [if_neg hErase, if_neg hLast]
      intro hMem
      rcases List.mem_append.mp hMem with hBefore | hHere
      · exact hRest hBefore
      · exact hLast (.inr (List.mem_singleton.mp hHere).symm)

theorem inLine_concat (hBefore : ∀ x ∈ bytes, ¬ EndsLine x) (hc : ¬ EndsLine c) :
    ∀ x ∈ bytes ++ [c], ¬ EndsLine x := by
  intro x hx
  rcases List.mem_append.mp hx with hIn | hLast
  · exact hBefore x hIn
  · rw [List.mem_singleton.mp hLast]
    exact hc

theorem erase_inLine (hc : c = backspace ∨ c = delete) : ¬ EndsLine c := by
  rcases hc with rfl | rfl <;> decide

/-- The process sleeps, and tries again. -/
theorem Editing.sleep (h : Editing T t₀ kernelFrame s limit bytes line)
    (hOthers : Undisturbed kernelFrame others) (turn : Nat) :
    Editing T t₀ kernelFrame s limit bytes { line with copy := others turn line.copy } :=
  { h with kept := h.kept.trans (hOthers turn _ h.kept.coherent) }

/-- A byte that erases the last one. -/
theorem Editing.erase (h : Editing T t₀ kernelFrame s limit bytes line) (hConforms : T.Conforms)
    (hMore : line.bytesRead < limit) (hc : c = backspace ∨ c = delete)
    (hSome : 0 < line.bytesRead) :
    Editing T t₀ kernelFrame s limit (bytes ++ [c])
      ({ line with bytesRead := line.bytesRead - 1 }.echo [backspace, blank, backspace]) where
  content := by
    rw [edited_concat, edit, if_pos hc, ← h.content]
    show (List.range (line.bytesRead - 1)).map line.buffer = _
    -- the counter goes back; the erased byte stays in the buffer, behind the line
    obtain ⟨k, hk⟩ : ∃ k, line.bytesRead = k + 1 := ⟨line.bytesRead - 1, by omega⟩
    rw [hk, List.range_succ, List.map_append, List.map_singleton, List.dropLast_concat]
    rfl
  inLine := inLine_concat h.inLine (erase_inLine hc)
  typed hShowable := by
    have hLine : edited bytes ≠ [] := by
      intro hNil
      have hLength := h.length
      rw [hNil] at hLength
      simp at hLength
      omega
    rw [edited_concat, edit, if_pos hc]
    show T.Typed t₀ _ (T.puts t₀ (line.echoed ++ [backspace, blank, backspace]))
    rw [Terminal.puts_append]
    exact (h.typed hShowable.init).erase hConforms hLine
      (hShowable.init.room bytes (List.prefix_refl _) h.inLine)
  kept := h.kept
  incomplete := h.incomplete_concat hMore c

/-- The line has as many bytes as are wanted. -/
theorem Editing.finish (h : Editing T t₀ kernelFrame s limit bytes line)
    (hFull : ¬ line.bytesRead < limit) (hRoom : line.bytesRead ≤ bufferSize) :
    Finished T t₀ kernelFrame s limit bytes line where
  content := h.content
  shortest := ⟨.inr (by rw [h.length]; exact Nat.le_of_not_lt hFull), h.incomplete⟩
  shown hShowable := .here (newline_not_mem_edited h.inLine) (h.typed hShowable)
  kept := h.kept
  bound := hRoom

/-- What the loop has come to, behind the bytes read before. -/
def Reads (T : Terminal σ) (t₀ : σ) (kernelFrame : Frame) (s : CopyState) (limit : Nat)
    (bytes : List Byte) (input : List (Option Byte)) : Reading → Prop
  | .fault => False
  | .waiting line =>
    Editing T t₀ kernelFrame s limit (bytes ++ stream input) line ∧
      ¬ Complete limit (bytes ++ stream input)
  | .done line rest =>
    ∃ used, input = used ++ rest ∧
      Finished T t₀ kernelFrame s limit (bytes ++ stream used) line

/-- A result of `uart_getc`, and the rest of the loop behind it. -/
theorem Reads.cons {x : Option Byte} {input : List (Option Byte)} {reading : Reading}
    (h : Reads T t₀ kernelFrame s limit (bytes ++ stream [x]) input reading) :
    Reads T t₀ kernelFrame s limit bytes (x :: input) reading := by
  have hStream : ∀ xs, bytes ++ stream [x] ++ stream xs = bytes ++ stream (x :: xs) := by
    intro xs
    rw [List.append_assoc]
    exact congrArg (bytes ++ ·) List.filterMap_append.symm
  cases reading with
  | fault => exact h
  | waiting line =>
    unfold Reads at h ⊢
    rw [hStream] at h
    exact h
  | done line rest =>
    obtain ⟨used, rfl, hFinished⟩ := h
    rw [hStream] at hFinished
    exact ⟨x :: used, rfl, hFinished⟩

/-- A line that has all its bytes. -/
theorem Editing.reads (h : Editing T t₀ kernelFrame s limit bytes line)
    (hFull : ¬ line.bytesRead < limit) (hRoom : line.bytesRead ≤ bufferSize)
    (input : List (Option Byte)) :
    Reads T t₀ kernelFrame s limit bytes input (.done line input) := by
  refine ⟨[], rfl, ?_⟩
  rw [show stream [] = [] from rfl, List.append_nil]
  exact h.finish hFull hRoom

end Loop

/-! ## §5 The call -/

section Calls

variable {σ : Type} {T : Terminal σ} {t₀ : σ} {others : Others} {kernelFrame : Frame}
  {s s' : CopyState}

end Calls

/-! ## §6 A terminal with 80 columns -/

/-- What a video terminal keeps. Behind the last column, at position 80, the cursor waits until
    the next character goes to the next row. -/
structure Screen where
  position : Nat
  row : Nat → Byte
  above : List (Nat → Byte)

namespace Screen

/-- A printable character of ASCII. -/
def Printable (c : Byte) : Prop := 0x20 ≤ c ∧ c ≤ 0x7e

instance (c : Byte) : Decidable (Printable c) := inferInstanceAs (Decidable (_ ∧ _))

/-- A byte comes to the terminal. -/
def put (t : Screen) (c : Byte) : Screen :=
  if c = backspace then { t with position := min t.position 79 - 1 }
  else if c = carriageReturn then { t with position := 0 }
  else if c = newline then { t with row := fun _ => blank, above := t.row :: t.above }
  else if Printable c then
    if t.position < 80 then
      { t with row := Function.update t.row t.position c, position := t.position + 1 }
    else ⟨1, Function.update (fun _ => blank) 0 c, t.row :: t.above⟩
  -- the bell and the other control bytes show nothing
  else t

/-- An empty screen with the cursor at a position of the first row. -/
def clear (position : Nat) : Screen := ⟨position, fun _ => blank, []⟩

end Screen

section Screens

open Screen

end Screens

end Xv6502.Kernel.Console
