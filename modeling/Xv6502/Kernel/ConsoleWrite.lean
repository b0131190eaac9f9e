import Xv6502.Kernel.UserCopy

/-!
# `console_write`

`console_write` of `kernel/console.c` cuts the user's buffer into chunks of 128 bytes, copies each
of them into the kernel and sends it to the UART, a CR in front of each LF. A chunk that cannot be
read ends the call; nothing of it is sent. So the number of bytes that the process is told is the
number of bytes of its buffer that have been printed (`consoleWrite_tells`), and `sys_write` and
`kernel_brk` hand it on as it is.

`uart_putc` yields the CPU. The other processes that run then leave the address space of this one
alone, and `scheduler()` comes back with the three copies of each window entry equal.
-/

namespace Xv6502.Kernel.Console

open Xv6502.Emulator UserCopy

/-! ## §1 The code -/

/-- The memory, and what the call has sent to the UART. -/
structure Transmission where
  copy : CopyState
  sent : List Byte

/-- What happens while `uart_putc` yields, by the number of bytes the call has sent before. -/
abbrev Others := Nat → CopyState → CopyState

/-- `'\n'`. -/
def newline : Byte := 0x0a

/-- `'\r'`. -/
def carriageReturn : Byte := 0x0d

/-- `sizeof(buffer)`. -/
def bufferSize : Nat := 128

/-- `uart_putc`. -/
def uartPutc (others : Others) (c : Byte) (t : Transmission) : Transmission :=
  ⟨others t.sent.length t.copy, t.sent ++ [c]⟩

/-- The inner loop of `console_write`. -/
def sendChunk (others : Others) : List Byte → Transmission → Transmission
  | [], t => t
  | c :: buffer, t =>
    let t := if c = newline then uartPutc others carriageReturn t else t
    sendChunk others buffer (uartPutc others c t)

/-- `chunk_size`. -/
def chunkSize (n totalWritten : Word) : Word :=
  if (n - totalWritten).toNat < bufferSize then n - totalWritten else BitVec.ofNat 16 bufferSize

theorem chunkSize_toNat {n totalWritten : Word} (h : totalWritten < n) :
    (chunkSize n totalWritten).toNat = min bufferSize (n.toNat - totalWritten.toNat) := by
  have hLess : totalWritten.toNat < n.toNat := h
  have hSub : (n - totalWritten).toNat = n.toNat - totalWritten.toNat :=
    BitVec.toNat_sub_of_le (Nat.le_of_lt hLess)
  have hBuffer : (BitVec.ofNat 16 bufferSize).toNat = bufferSize := rfl
  unfold chunkSize
  split <;> omega

/-- The chunk is not empty, and it is a part of what is left. -/
theorem add_chunkSize {n totalWritten : Word} (h : totalWritten < n) :
    (totalWritten + chunkSize n totalWritten).toNat =
      totalWritten.toNat + min bufferSize (n.toNat - totalWritten.toNat) := by
  have hLess : totalWritten.toNat < n.toNat := h
  have hn := n.isLt
  rw [BitVec.toNat_add, chunkSize_toNat h]
  omega

/-- The outer loop of `console_write`, and what is returned behind it. -/
def consoleWriteLoop (others : Others) (kernelFrame : Frame) (n totalWritten userPtr : Word)
    (t : Transmission) : Word × Transmission :=
  if totalWritten < n then
    let (result, buffer, copy) :=
      t.copy.copyFromUser userPtr (chunkSize n totalWritten) kernelFrame
    -- what has been sent before counts
    if result < 0 then (if totalWritten = 0 then -1 else totalWritten, { t with copy := copy })
    else
      consoleWriteLoop others kernelFrame n (totalWritten + chunkSize n totalWritten)
        (userPtr + chunkSize n totalWritten) (sendChunk others buffer { t with copy := copy })
  else (totalWritten, t)
termination_by n.toNat - totalWritten.toNat
decreasing_by
  have hChunk : totalWritten < n := ‹_›
  have hLess : totalWritten.toNat < n.toNat := hChunk
  rw [add_chunkSize hChunk]
  unfold bufferSize
  omega

/-- `console_write`. -/
def consoleWrite (others : Others) (kernelFrame : Frame) (userSrc n : Word) (t : Transmission) :
    Word × Transmission :=
  consoleWriteLoop others kernelFrame n 0 userSrc t

/-- `offsetof(PCB, ctx.a)`; `ctx.x` is behind it. -/
def axOffset : Nat := 20

/-- `offsetof(PCB, open_files)`. -/
def openFilesOffset : Nat := 41

/-- `proc_get_16`. -/
def procGet16 (s : CopyState) (kernelFrame : Frame) (offset : Nat) : Word × CopyState :=
  s.readPcb kernelFrame fun pcb => pcb (offset + 1) ++ pcb offset

/-- `proc_set_16`. -/
def procSet16 (s : CopyState) (kernelFrame : Frame) (offset : Nat) (value : Word) : CopyState :=
  let (oldFrame, s) := s.mapWindow .window2 kernelFrame
  let s := s.storeWindow .window2 (pcbOffset + offset) 2 fun i =>
    if i = 0 then value.truncate 8 else (value >>> 8).truncate 8
  s.unmapWindow .window2 oldFrame

/-- The member `write` of `Syscall_Argument`. -/
structure WriteArgument where
  fd : Word
  buffer : Word
  size : Word

/-- `syscall_populate_argument`. -/
def syscallPopulateArgument (s : CopyState) (kernelFrame : Frame) :
    Option WriteArgument × CopyState :=
  let (ax, s) := procGet16 s kernelFrame axOffset
  let (result, arg, s) := s.copyFromUser ax 6 kernelFrame
  if result < 0 then (none, s)
  else
    let word i := arg.getD (i + 1) 0 ++ arg.getD i 0
    (some ⟨word 0, word 2, word 4⟩, s)

/-- `sys_write`, with what the field `writable` of the file at an address says. Every file that the
    kernel opens is the console, so that `fops->write` is `console_write`. -/
def sysWrite (others : Others) (writable : Word → Bool) (kernelFrame : Frame) (t : Transmission) :
    Word × Transmission :=
  match syscallPopulateArgument t.copy kernelFrame with
  | (none, copy) => (-1, { t with copy := copy })
  | (some arg, copy) =>
    -- the descriptor is a C `int`, so it is compared with a sign
    if arg.fd.toInt < 0 ∨ 16 ≤ arg.fd.toInt then (-1, { t with copy := copy })
    else
      let (file, copy) := procGet16 copy kernelFrame (openFilesOffset + 2 * arg.fd.toNat)
      if file = 0 ∨ ¬ writable file then (-1, { t with copy := copy })
      else consoleWrite others kernelFrame arg.buffer arg.size { t with copy := copy }

/-- The end of `kernel_brk`: the process is given the value. -/
def returnToUser (kernelFrame : Frame) (call : Word × Transmission) : CopyState :=
  procSet16 call.2.copy kernelFrame axOffset call.1

/-! ## §2 What the result tells -/

/-- What happens to the process while others run: nothing to the 16 entries of its page table, its
    top and its pages, and the three copies of each window entry agree when it is resumed. The rest
    of its kernel stack frame may change, as its ticks do when it is dispatched. -/
structure Kept (kernelFrame : Frame) (s s' : CopyState) : Prop where
  coherent : ∀ w, s'.windows.Coherent w (s'.windows.kernelPageTable w)
  table : ∀ i, i < pageTableSize → s'.table kernelFrame i = s.table kernelFrame i
  top : s'.top kernelFrame = s.top kernelFrame
  pages : ∀ a, a < 0x10000 → s.table kernelFrame (a / 0x1000) ≠ frameUnused →
    s'.mem (CopyState.place (s.table kernelFrame) a).1 (CopyState.place (s.table kernelFrame) a).2 =
      s.mem (CopyState.place (s.table kernelFrame) a).1 (CopyState.place (s.table kernelFrame) a).2

/-- The others leave the process alone. -/
def Undisturbed (kernelFrame : Frame) (others : Others) : Prop :=
  ∀ turn s, (∀ w, s.windows.Coherent w (s.windows.kernelPageTable w)) →
    Kept kernelFrame s (others turn s)

/-- The `i`-th byte of the user's buffer at `u`. -/
def userByte (s : CopyState) (kernelFrame : Frame) (u : Word) (i : Nat) : Byte :=
  s.mem (CopyState.place (s.table kernelFrame) (CopyState.address u i)).1
    (CopyState.place (s.table kernelFrame) (CopyState.address u i)).2

/-- The first `r` bytes of the user's buffer. -/
def userBytes (s : CopyState) (kernelFrame : Frame) (u : Word) (r : Nat) : List Byte :=
  (List.range r).map (userByte s kernelFrame u)

/-- `copy_from_user` can read the `m` bytes from `u` on. -/
def Readable (s : CopyState) (kernelFrame : Frame) (u : Word) (m : Nat) : Prop :=
  u < s.top kernelFrame ∧
    ∀ i, i < m → s.table kernelFrame (CopyState.address u i / 0x1000) ≠ frameUnused

/-- The chunk that begins behind `c` of `n` bytes can be read. -/
def ChunkReadable (s : CopyState) (kernelFrame : Frame) (u n : Word) (c : Nat) : Prop :=
  Readable s kernelFrame (u + BitVec.ofNat 16 c) (min bufferSize (n.toNat - c))

/-- A CR in front of each LF. -/
def withReturns (buffer : List Byte) : List Byte :=
  buffer.flatMap fun c => if c = newline then [carriageReturn, c] else [c]

/-- The call has sent the first `r` of `n` bytes: all of them, or the chunks before the first one
    that cannot be read. -/
structure Written (s : CopyState) (kernelFrame : Frame) (u n : Word) (r : Nat)
    (sent : List Byte) : Prop where
  bound : r ≤ n.toNat
  sent : sent = withReturns (userBytes s kernelFrame u r)
  read : ∀ k, bufferSize * k < r → ChunkReadable s kernelFrame u n (bufferSize * k)
  stop : r = n.toNat ∨ bufferSize ∣ r ∧ ¬ ChunkReadable s kernelFrame u n r

/-- The value tells what has been sent: `0xFFFF` that the first chunk could not be read and nothing
    has been sent, any `r` that the first `r` bytes have been. -/
def Tells (s : CopyState) (kernelFrame : Frame) (u n value : Word) (sent : List Byte) : Prop :=
  (value = 0xFFFF ∧ sent = [] ∧ n ≠ 0 ∧ ¬ ChunkReadable s kernelFrame u n 0) ∨
    ((value = 0 → n = 0) ∧ Written s kernelFrame u n value.toNat sent)

/-! ## §3 A chunk -/

section Chunks

variable {others : Others} {kernelFrame : Frame} {s s' s'' : CopyState} {t : Transmission}
  {u n : Word}

theorem Kept.refl (h : ∀ w, s.windows.Coherent w (s.windows.kernelPageTable w)) :
    Kept kernelFrame s s :=
  ⟨h, fun _ _ => rfl, rfl, fun _ _ _ => rfl⟩

/-- The entry for an address is the same. -/
theorem Kept.entry (h : Kept kernelFrame s s') {a : Nat} (ha : a < 0x10000) :
    s'.table kernelFrame (a / 0x1000) = s.table kernelFrame (a / 0x1000) := by
  apply h.table
  unfold pageTableSize
  omega

/-- The physical byte of an address is the same. -/
theorem Kept.place (h : Kept kernelFrame s s') {a : Nat} (ha : a < 0x10000) :
    CopyState.place (s'.table kernelFrame) a = CopyState.place (s.table kernelFrame) a := by
  unfold CopyState.place
  rw [h.entry ha]

theorem Kept.trans (h : Kept kernelFrame s s') (h' : Kept kernelFrame s' s'') :
    Kept kernelFrame s s'' where
  coherent := h'.coherent
  table i hi := (h'.table i hi).trans (h.table i hi)
  top := h'.top.trans h.top
  pages a ha hMapped := by
    have hPage := h'.pages a ha
    rw [h.entry ha, h.place ha] at hPage
    exact (hPage hMapped).trans (h.pages a ha hMapped)

theorem withReturns_append (xs ys : List Byte) :
    withReturns (xs ++ ys) = withReturns xs ++ withReturns ys := List.flatMap_append

theorem uartPutc_kept (hOthers : Undisturbed kernelFrame others) (c : Byte)
    (h : Kept kernelFrame s t.copy) : Kept kernelFrame s (uartPutc others c t).copy :=
  h.trans (hOthers _ _ h.coherent)

/-- The inner loop sends the buffer. -/
theorem sendChunk_spec (hOthers : Undisturbed kernelFrame others) (buffer : List Byte)
    (h : Kept kernelFrame s t.copy) :
    (sendChunk others buffer t).sent = t.sent ++ withReturns buffer ∧
      Kept kernelFrame s (sendChunk others buffer t).copy := by
  induction buffer generalizing t with
  | nil => exact ⟨(List.append_nil _).symm, h⟩
  | cons c buffer ih =>
    rw [sendChunk]
    -- a CR goes in front of each LF
    by_cases hNewline : c = newline
    · have hReturn := uartPutc_kept hOthers carriageReturn h
      obtain ⟨hSent, hKept⟩ := ih (uartPutc_kept hOthers c hReturn)
      simp only [if_pos hNewline]
      refine ⟨?_, hKept⟩
      rw [hSent]
      simp [uartPutc, withReturns, hNewline]
    · obtain ⟨hSent, hKept⟩ := ih (uartPutc_kept hOthers c h)
      simp only [if_neg hNewline]
      refine ⟨?_, hKept⟩
      rw [hSent]
      simp [uartPutc, withReturns, hNewline]

/-- `copy_from_user` reads a range of the user's buffer, or fails. -/
theorem copyFromUser_spec (h : Kept kernelFrame s s') (u m : Word) :
    (Readable s kernelFrame u m.toNat →
      s'.copyFromUser u m kernelFrame = (0, userBytes s kernelFrame u m.toNat, s')) ∧
    (¬ Readable s kernelFrame u m.toNat →
      ∃ buffer, s'.copyFromUser u m kernelFrame = (-1, buffer, s')) := by
  have hEntry : ∀ i, s'.table kernelFrame (CopyState.address u i / 0x1000) =
      s.table kernelFrame (CopyState.address u i / 0x1000) := fun i =>
    h.entry (CopyState.address_lt u i)
  rw [CopyState.copyFromUser_eq (h.coherent .window2), h.top]
  constructor
  · rintro ⟨hBelow, hMapped⟩
    rw [if_neg (BitVec.not_le.mpr hBelow), CopyState.copyFromLoop_spec _ _ _ (h.coherent .window1)
      fun i hi => by rw [hEntry]; exact hMapped i hi, List.nil_append]
    refine Prod.ext rfl (Prod.ext (List.map_congr_left ?_) rfl)
    intro i hi
    rw [h.place (CopyState.address_lt u i)]
    exact h.pages _ (CopyState.address_lt u i) (hMapped i (List.mem_range.mp hi))
  · intro hUnreadable
    by_cases hBelow : u < s.top kernelFrame
    · rw [if_neg (BitVec.not_le.mpr hBelow)]
      -- the range starts below the top, so what is unreadable is a hole in it
      have hHole : ∃ i < m.toNat,
          s'.table kernelFrame (CopyState.address u i / 0x1000) = frameUnused := by
        by_contra hNone
        push Not at hNone
        apply hUnreadable
        refine ⟨hBelow, fun i hi => ?_⟩
        rw [← hEntry]
        exact hNone i hi
      exact CopyState.copyFromLoop_fails _ _ _ (h.coherent .window1) hHole
    · rw [if_pos (BitVec.not_lt.mp hBelow)]
      exact ⟨[], rfl⟩

/-- The bytes of a chunk, behind those before it. -/
theorem userBytes_add (u : Word) (c m : Nat) : userBytes s kernelFrame u (c + m) =
    userBytes s kernelFrame u c ++ userBytes s kernelFrame (u + BitVec.ofNat 16 c) m := by
  unfold userBytes
  rw [List.range_add, List.map_append, List.map_map]
  congr 1
  apply List.map_congr_left
  intro i _
  show userByte s kernelFrame u (c + i) = userByte s kernelFrame (u + BitVec.ofNat 16 c) i
  unfold userByte
  rw [CopyState.address_add]

/-! ## §4 The outer loop -/

/-- **Run lemma**: from a chunk on, the loop sends the chunks up to the first one that cannot be
    read. -/
theorem consoleWriteLoop_spec (hOthers : Undisturbed kernelFrame others) (total : Word)
    (hTotal : total.toNat ≤ n.toNat) (hAligned : total.toNat = n.toNat ∨ bufferSize ∣ total.toNat)
    (hKept : Kept kernelFrame s t.copy)
    (hSent : t.sent = withReturns (userBytes s kernelFrame u total.toNat))
    (hRead : ∀ k, bufferSize * k < total.toNat → ChunkReadable s kernelFrame u n (bufferSize * k)) :
    ∃ r, Written s kernelFrame u n r
        (consoleWriteLoop others kernelFrame n total (u + total) t).2.sent ∧
      Kept kernelFrame s (consoleWriteLoop others kernelFrame n total (u + total) t).2.copy ∧
      (consoleWriteLoop others kernelFrame n total (u + total) t).1 =
        if r = 0 ∧ n ≠ 0 then -1 else BitVec.ofNat 16 r := by
  -- on what is left to send; every chunk but the last one is full
  induction hLeft : n.toNat - total.toNat using Nat.strong_induction_on generalizing total t with
  | _ left ih =>
    rw [consoleWriteLoop]
    by_cases hMore : total < n
    · have hLess : total.toNat < n.toNat := hMore
      have hChunk := chunkSize_toNat hMore
      have hNext := add_chunkSize hMore
      have hStart : u + BitVec.ofNat 16 total.toNat = u + total := by rw [BitVec.ofNat_toNat]; rfl
      have hAt : bufferSize ∣ total.toNat := hAligned.resolve_left (by omega)
      obtain ⟨hGood, hBad⟩ := copyFromUser_spec hKept (u + total) (chunkSize n total)
      rw [if_pos hMore]
      by_cases hReadable : ChunkReadable s kernelFrame u n total.toNat
      · -- the chunk is sent, and the loop goes on behind it
        have hBytes := hGood (by rw [hChunk, ← hStart]; exact hReadable)
        rw [hBytes]
        dsimp only
        rw [if_neg (by decide), BitVec.add_assoc]
        obtain ⟨hSentNext, hKeptNext⟩ :=
          sendChunk_spec hOthers (userBytes s kernelFrame (u + total) (chunkSize n total).toNat)
            hKept
        refine ih (n.toNat - (total + chunkSize n total).toNat) ?_ _ ?_ ?_ hKeptNext ?_ ?_ rfl
        · rw [hNext]
          unfold bufferSize
          omega
        · omega
        · rw [hNext]
          rcases Nat.le_total bufferSize (n.toNat - total.toNat) with hFull | hLast
          · rw [Nat.min_eq_left hFull]
            exact .inr (Nat.dvd_add hAt (Nat.dvd_refl _))
          · rw [Nat.min_eq_right hLast]
            exact .inl (by omega)
        · rw [hSentNext, hNext, userBytes_add, withReturns_append, hStart, hSent, hChunk]
        · intro k hk
          obtain ⟨j, hj⟩ := hAt
          rcases Nat.lt_or_ge (bufferSize * k) total.toNat with hBefore | hHere
          · exact hRead k hBefore
          · -- there is one multiple of the chunk size in the chunk
            have hSame : k = j := by
              unfold bufferSize at hj hHere hk
              rw [hNext] at hk
              unfold bufferSize at hk
              omega
            rw [hSame, ← hj]
            exact hReadable
      · -- nothing of the chunk is sent
        obtain ⟨buffer, hFails⟩ := hBad (by rw [hChunk, ← hStart]; exact hReadable)
        rw [hFails]
        dsimp only
        rw [if_pos (by decide)]
        refine ⟨total.toNat, ⟨Nat.le_of_lt hLess, hSent, hRead, .inr ⟨hAt, hReadable⟩⟩, hKept, ?_⟩
        have hPos : n ≠ 0 := by
          rintro rfl
          exact absurd hLess (Nat.not_lt_zero _)
        by_cases hFirst : total = 0
        · rw [if_pos hFirst, if_pos ⟨by rw [hFirst]; rfl, hPos⟩]
        · rw [if_neg hFirst, if_neg, BitVec.ofNat_toNat]
          · rfl
          · rintro ⟨hZero, -⟩
            exact hFirst (BitVec.eq_of_toNat_eq hZero)
    -- all has been sent
    · have hEnd : total.toNat = n.toNat := by
        have hLe : n.toNat ≤ total.toNat := BitVec.not_lt.mp hMore
        omega
      obtain rfl : total = n := BitVec.eq_of_toNat_eq hEnd
      rw [if_neg hMore]
      refine ⟨total.toNat, ⟨Nat.le_refl _, hSent, hRead, .inl rfl⟩, hKept, ?_⟩
      rw [if_neg, BitVec.ofNat_toNat]
      · rfl
      · rintro ⟨hZero, hPos⟩
        exact hPos (BitVec.eq_of_toNat_eq hZero)

/-- `console_write` tells what it has sent. -/
theorem consoleWrite_spec (hOthers : Undisturbed kernelFrame others)
    (h : ∀ w, s.windows.Coherent w (s.windows.kernelPageTable w)) (u n : Word) :
    Tells s kernelFrame u n (consoleWrite others kernelFrame u n ⟨s, []⟩).1
        (consoleWrite others kernelFrame u n ⟨s, []⟩).2.sent ∧
      Kept kernelFrame s (consoleWrite others kernelFrame u n ⟨s, []⟩).2.copy := by
  obtain ⟨r, hWritten, hKept, hValue⟩ := @consoleWriteLoop_spec others kernelFrame s ⟨s, []⟩ u n
    hOthers 0 (Nat.zero_le _) (.inr (Nat.dvd_zero _)) (Kept.refl h) rfl
    fun k hk => absurd hk (Nat.not_lt_zero _)
  rw [show u + 0 = u from BitVec.add_zero u] at hWritten hKept hValue
  refine ⟨?_, hKept⟩
  have hn := n.isLt
  have hBound := hWritten.bound
  have hToNat : (BitVec.ofNat 16 r).toNat = r := by
    rw [BitVec.toNat_ofNat]
    omega
  -- -1 stands for an unreadable first chunk; later ones cut the count short
  by_cases hNothing : r = 0 ∧ n ≠ 0
  · rw [if_pos hNothing] at hValue
    obtain ⟨rfl, hPos⟩ := hNothing
    refine .inl ⟨hValue, hWritten.sent, hPos, ?_⟩
    rcases hWritten.stop with hEnd | ⟨-, hUnreadable⟩
    · exact absurd (BitVec.eq_of_toNat_eq hEnd.symm) hPos
    · exact hUnreadable
  · rw [if_neg hNothing] at hValue
    refine .inr ⟨fun hZero => ?_, ?_⟩
    · by_contra hPos
      refine hNothing ⟨?_, hPos⟩
      rw [← hToNat, ← hValue]
      exact congrArg BitVec.toNat hZero
    · show Written s kernelFrame u n (consoleWriteLoop others kernelFrame n 0 u ⟨s, []⟩).1.toNat _
      rw [hValue, hToNat]
      exact hWritten

end Chunks

/-! ## §5 The value for the user -/

section Calls

variable {others : Others} {kernelFrame : Frame} {s : CopyState} {call : Word × Transmission}

theorem procGet16_eq (h : ∀ w, s.windows.Coherent w (s.windows.kernelPageTable w))
    (offset : Nat) : procGet16 s kernelFrame offset =
      (s.mem kernelFrame (pcbOffset + (offset + 1)) ++ s.mem kernelFrame (pcbOffset + offset), s) :=
  CopyState.readPcb_eq _ (h .window2)

theorem procSet16_eq (h : ∀ w, s.windows.Coherent w (s.windows.kernelPageTable w))
    (offset : Nat) (value : Word) : procSet16 s kernelFrame offset value = { s with
      mem := Function.update s.mem kernelFrame fun i =>
        if pcbOffset + offset ≤ i ∧ i < pcbOffset + offset + 2 then
          if i - (pcbOffset + offset) = 0 then value.truncate 8 else (value >>> 8).truncate 8
        else s.mem kernelFrame i } := by
  unfold procSet16 CopyState.storeWindow CopyState.unmapWindow CopyState.window
  dsimp only
  rw [CopyState.mapWindow_entry]
  congr 1
  exact CopyState.unmap_map _ (h .window2)

theorem bytes_append (value : Word) :
    ((value >>> 8).truncate 8 : Byte) ++ (value.truncate 8 : Byte) = value := by
  apply BitVec.eq_of_getLsbD_eq
  intro i hi
  rw [BitVec.getLsbD_append]
  by_cases hLow : i < 8
  · simp [hLow]
  · have hHigh : 8 + (i - 8) = i := by omega
    simp [hLow, hHigh, hi]
    intro _
    omega

/-- What `proc_set_16` stores, `proc_get_16` finds. -/
theorem procGet16_procSet16 (h : ∀ w, s.windows.Coherent w (s.windows.kernelPageTable w))
    (offset : Nat) (value : Word) :
    (procGet16 (procSet16 s kernelFrame offset value) kernelFrame offset).1 = value := by
  have hAfter := @procGet16_eq kernelFrame { s with
      mem := Function.update s.mem kernelFrame fun i =>
        if pcbOffset + offset ≤ i ∧ i < pcbOffset + offset + 2 then
          if i - (pcbOffset + offset) = 0 then value.truncate 8 else (value >>> 8).truncate 8
        else s.mem kernelFrame i } h offset
  rw [procSet16_eq h, hAfter]
  dsimp only
  rw [Function.update_self, if_pos (by omega), if_neg (by omega), if_pos (by omega),
    if_pos (by omega)]
  exact bytes_append value

/-- **Main theorem**: the value that `console_write` returns, and that the process finds in A and
    X, tells what has been printed. The count that is returned is a multiple of the chunk size or
    the end of the buffer, and a chunk is sent only after all of it has been read. -/
theorem consoleWrite_tells (hOthers : Undisturbed kernelFrame others)
    (h : ∀ w, s.windows.Coherent w (s.windows.kernelPageTable w)) (u n : Word) :
    Tells s kernelFrame u n (consoleWrite others kernelFrame u n ⟨s, []⟩).1
        (consoleWrite others kernelFrame u n ⟨s, []⟩).2.sent ∧
      (procGet16 (returnToUser kernelFrame (consoleWrite others kernelFrame u n ⟨s, []⟩))
        kernelFrame axOffset).1 = (consoleWrite others kernelFrame u n ⟨s, []⟩).1 := by
  obtain ⟨hTells, hKept⟩ := consoleWrite_spec hOthers h u n
  exact ⟨hTells, procGet16_procSet16 hKept.coherent axOffset _⟩

/-- Two chunks from a process with all its segments mapped, with nobody else running. -/
theorem fullProcess_prints :
    Tells CopyState.fullProcess 0x20 0x0100 200
        (consoleWrite (fun _ s => s) 0x20 0x0100 200 ⟨CopyState.fullProcess, []⟩).1
        (consoleWrite (fun _ s => s) 0x20 0x0100 200 ⟨CopyState.fullProcess, []⟩).2.sent ∧
      (procGet16 (returnToUser 0x20
          (consoleWrite (fun _ s => s) 0x20 0x0100 200 ⟨CopyState.fullProcess, []⟩))
        0x20 axOffset).1 =
        (consoleWrite (fun _ s => s) 0x20 0x0100 200 ⟨CopyState.fullProcess, []⟩).1 :=
  consoleWrite_tells (fun _ _ h => Kept.refl h) CopyState.fullProcess_coherent 0x0100 200

/-- `sys_write` refuses the call, and nothing is printed, or tells what has been printed of the
    buffer that its argument names. -/
theorem sysWrite_tells (hOthers : Undisturbed kernelFrame others) (writable : Word → Bool)
    (h : ∀ w, s.windows.Coherent w (s.windows.kernelPageTable w)) :
    ((sysWrite others writable kernelFrame ⟨s, []⟩).1 = 0xFFFF ∧
      (sysWrite others writable kernelFrame ⟨s, []⟩).2.sent = []) ∨
    ∃ arg, (syscallPopulateArgument s kernelFrame).1 = some arg ∧
      Tells s kernelFrame arg.buffer arg.size (sysWrite others writable kernelFrame ⟨s, []⟩).1
        (sysWrite others writable kernelFrame ⟨s, []⟩).2.sent := by
  -- the argument's address comes from the saved registers in the kernel frame
  have hArgument : (syscallPopulateArgument s kernelFrame).2 = s := by
    unfold syscallPopulateArgument
    rw [procGet16_eq h]
    dsimp only
    generalize s.mem kernelFrame (pcbOffset + (axOffset + 1)) ++
      s.mem kernelFrame (pcbOffset + axOffset) = ax
    obtain ⟨hGood, hBad⟩ := copyFromUser_spec (Kept.refl h : Kept kernelFrame s s) ax 6
    -- the argument itself is copied in first: fd, buffer and size
    by_cases hReadable : Readable s kernelFrame ax (6 : Word).toNat
    · rw [hGood hReadable]
      rfl
    · obtain ⟨buffer, hFails⟩ := hBad hReadable
      rw [hFails]
      rfl
  unfold sysWrite
  dsimp only
  cases hArg : syscallPopulateArgument s kernelFrame with
  | mk arg copy =>
    obtain rfl : copy = s := by
      rw [hArg] at hArgument
      exact hArgument
    cases arg with
    | none => exact .inl ⟨rfl, rfl⟩
    | some arg =>
      dsimp only
      rw [procGet16_eq h]
      by_cases hFd : arg.fd.toInt < 0 ∨ 16 ≤ arg.fd.toInt
      · rw [if_pos hFd]
        exact .inl ⟨rfl, rfl⟩
      · rw [if_neg hFd]
        dsimp only
        split
        · exact .inl ⟨rfl, rfl⟩
        · exact .inr ⟨arg, rfl, (consoleWrite_spec hOthers h arg.buffer arg.size).1⟩

end Calls

end Xv6502.Kernel.Console
