import Xv6502.Kernel.FirstDispatch
import Xv6502.Kernel.Processes

/-!
# The C Stack in the Kernel Stack Frame

cc65 keeps locals and arguments on a stack of its own. Its pointer is a word of the zero page, and
so of the kernel stack frame that is mapped at segment 0. `_make_kernel_stack` of
`kernel/trampoline.s` stores `__STACK_START__` there for a new process. `sys_fork` then copies the
frame of the running process over that of the child, byte by byte and with the process at work on
it. The child finds in its frame what the copy has left there when `_first_context_switch` maps the
frame at segment 0.

- `makeKernelStack_run`: the pointer in the new frame is `__STACK_START__`.
- `copyKernelStack_cSp`: after the copy it is the pointer of the running process.
- `firstContextSwitch_cSp`: the child starts with the pointer of its frame.
-/

namespace Xv6502.Kernel.CStack

open Xv6502.Emulator Dispatch

/-! ## §1 The pointer -/

/-- `__STACK_START__` of `kernel.cfg`. -/
def stackStart : Word := 0x1000

/-- Where the linker has put `sp`, `ptr1` and `tmp1` of the compiler's runtime. -/
structure ZeroPage where
  sp : Word
  ptr1 : Word
  tmp1 : Word
  sp_lt : sp.toNat + 1 < 0x100
  ptr1_lt : ptr1.toNat + 1 < 0x100
  tmp1_lt : tmp1.toNat < 0x100
  sp_ptr1 : sp.toNat + 1 < ptr1.toNat ∨ ptr1.toNat + 1 < sp.toNat
  sp_tmp1 : sp.toNat + 1 < tmp1.toNat ∨ tmp1.toNat < sp.toNat
  ptr1_tmp1 : ptr1.toNat + 1 < tmp1.toNat ∨ tmp1.toNat < ptr1.toNat

variable (z : ZeroPage)

/-- The software stack pointer in a kernel stack frame. -/
def cSp (frame : Page) : Word := wordOf (frame z.sp.toNat) (frame (z.sp.toNat + 1))

/-- A frame with another software stack pointer. -/
def setCSp (value : Word) (frame : Page) : Page :=
  Function.update (Function.update frame z.sp.toNat (lowByte value)) (z.sp.toNat + 1)
    (highByte value)

variable {z}

@[simp] theorem cSp_setCSp (value : Word) (frame : Page) :
    cSp z (setCSp z value frame) = value := by
  unfold cSp setCSp
  rw [Function.update_self, Function.update_of_ne (Nat.ne_of_lt (Nat.lt_succ_self _)),
    Function.update_self, wordOf_low_high]

/-- The pointer is two bytes of the frame. -/
theorem cSp_congr {frame frame' : Page} (hLow : frame' z.sp.toNat = frame z.sp.toNat)
    (hHigh : frame' (z.sp.toNat + 1) = frame (z.sp.toNat + 1)) : cSp z frame' = cSp z frame := by
  unfold cSp
  rw [hLow, hHigh]

/-- A store to another byte of the frame. -/
theorem cSp_update {frame : Page} {offset : Nat} (hLow : offset ≠ z.sp.toNat)
    (hHigh : offset ≠ z.sp.toNat + 1) (byte : Byte) :
    cSp z (Function.update frame offset byte) = cSp z frame :=
  cSp_congr (Function.update_of_ne hLow.symm _ _) (Function.update_of_ne hHigh.symm _ _)

/-- The processor reads the pointer in the frame that is mapped at segment 0. -/
theorem pointer_eq_cSp (m : KernelMemory) : m.pointer z.sp = cSp z (m.frames (m.entries 0)) := by
  have hNext := Layout.next_toNat z.sp_lt
  have hLt := z.sp_lt
  unfold KernelMemory.pointer cSp
  rw [read_low (by omega), read_low (by omega), hNext]

/-! ## §2 `_make_kernel_stack` -/

/-- `_make_kernel_stack` up to its `rts`, with the frame in `a`. -/
def makeKernelStackCode (z : ZeroPage) : List (Statement KernelMemory) :=
  -- the old frame of segment 1 is kept in `tmp1`, and the given one is mapped
  [(.ldx, absolute kernelBus (mmuEntries + 1)), (.stx, absolute kernelBus z.tmp1),
    (.sta, absolute kernelBus (mmuEntries + 1)),
    -- `ptr1` is the base of window 1
    (.lda, immediate 0x00), (.sta, absolute kernelBus z.ptr1),
    (.lda, immediate 0x10), (.sta, absolute kernelBus (z.ptr1 + 1)),
    (.ldy, immediate (lowByte z.sp)),
    (.lda, immediate (lowByte stackStart)), (.sta, indirectIndexedY kernelBus z.ptr1),
    (.iny, implied),
    (.lda, immediate (highByte stackStart)), (.sta, indirectIndexedY kernelBus z.ptr1),
    (.ldx, absolute kernelBus z.tmp1), (.stx, absolute kernelBus (mmuEntries + 1))]

/-- `_make_kernel_stack`. -/
def makeKernelStack (z : ZeroPage) (c : Processor) : Processor :=
  exec kernelBus (.rts, implied) (execAll kernelBus (makeKernelStackCode z) c)

/-- What `_make_kernel_stack` does to the memory: besides the pointer in the given frame, it uses
    `ptr1` and `tmp1` of the frame it runs on. -/
structure StackMade (z : ZeroPage) (m m' : KernelMemory) (frame : Frame) : Prop where
  entries : m'.entries = m.entries
  data : m'.data = m.data
  made : m'.frames frame = setCSp z stackStart (m.frames frame)
  others : ∀ f, f ≠ frame → f ≠ m.entries 0 → m'.frames f = m.frames f
  own : m'.pointer z.sp = m.pointer z.sp

section Make

variable {m : KernelMemory} {frame : Frame} {addr : Word} {byte : Byte} {offset : Nat}

theorem read_entry (i : Fin 3) : m.read (mmuEntries + BitVec.ofNat 16 i) = m.entries i := by
  have hAddr : (mmuEntries + BitVec.ofNat 16 i).toNat = mmuPageTable + i := by
    have hEntries : mmuEntries.toNat = mmuPageTable := rfl
    rw [BitVec.toNat_add, BitVec.toNat_ofNat, hEntries]
    unfold mmuPageTable
    omega
  unfold KernelMemory.read
  rw [hAddr, if_neg (by unfold mmuPageTable; omega), if_pos (by omega), Nat.add_sub_cancel_left]
  congr
  exact Fin.ofNat_val_eq_self i

/-- A byte in one of the segments 0 to 2. -/
theorem read_segment (i : Fin 3) (hAddr : addr.toNat = 0x1000 * i + offset)
    (hOffset : offset < 0x1000) : m.read addr = m.frames (m.entries i) offset := by
  have hSegment : addr.toNat / 0x1000 = i := by omega
  have hRest : addr.toNat % 0x1000 = offset := by omega
  unfold KernelMemory.read
  rw [if_pos (by omega), hSegment, hRest, Fin.ofNat_val_eq_self]

theorem write_segment (i : Fin 3) (hAddr : addr.toNat = 0x1000 * i + offset)
    (hOffset : offset < 0x1000) (byte : Byte) :
    m.write addr byte = { m with
      frames := Function.update m.frames (m.entries i)
        (Function.update (m.frames (m.entries i)) offset byte) } := by
  have hSegment : addr.toNat / 0x1000 = i := by omega
  have hRest : addr.toNat % 0x1000 = offset := by omega
  unfold KernelMemory.write
  rw [if_pos (by omega), hSegment, hRest, Fin.ofNat_val_eq_self]

/-- A store through `ptr1` and `y`, with window 1 on a frame that is not that of segment 0. -/
theorem store_ptr1 (hPtr : m.pointer z.ptr1 = 0x1000) (hMapped : m.entries 1 = frame)
    (hFrame : frame ≠ m.entries 0) (hOffset : offset < 0x100) (byte : Byte) :
    m.write (m.pointer z.ptr1 + (BitVec.ofNat 8 offset).setWidth 16) byte = { m with
        frames := Function.update m.frames frame (Function.update (m.frames frame) offset byte) } ∧
      (m.write (m.pointer z.ptr1 + (BitVec.ofNat 8 offset).setWidth 16) byte).pointer z.ptr1 =
        0x1000 := by
  have hAddr : (m.pointer z.ptr1 + (BitVec.ofNat 8 offset).setWidth 16).toNat =
      0x1000 + offset := by
    have hBase : (0x1000 : Word).toNat = 0x1000 := rfl
    rw [hPtr, BitVec.toNat_add, BitVec.toNat_setWidth, BitVec.toNat_ofNat, hBase]
    omega
  have hWrite := @write_segment m _ offset 1 hAddr (by omega) byte
  rw [hMapped] at hWrite
  refine ⟨hWrite, ?_⟩
  rw [hWrite, ← hPtr]
  have hPtrLow := z.ptr1_lt
  have hNext := Layout.next_toNat z.ptr1_lt
  unfold KernelMemory.pointer
  rw [read_low (by omega), read_low (by omega), read_low (by omega), read_low (by omega)]
  dsimp only
  rw [Function.update_of_ne hFrame.symm]

end Make

/-- The memory before the first store through `ptr1`. -/
def windowReady (z : ZeroPage) (m : KernelMemory) (frame : Frame) : KernelMemory :=
  (((m.write z.tmp1 (m.read (mmuEntries + 1))).write (mmuEntries + 1) frame).write z.ptr1
    0x00).write (z.ptr1 + 1) 0x10

/-- Window 1 is on the given frame, and `tmp1` has kept what it was on. -/
theorem windowReady_run (z : ZeroPage) (m : KernelMemory) (frame : Frame) :
    (windowReady z m frame).entries = Function.update m.entries 1 frame ∧
      (windowReady z m frame).data = m.data ∧
      (∀ f, f ≠ m.entries 0 → (windowReady z m frame).frames f = m.frames f) ∧
      (windowReady z m frame).pointer z.ptr1 = 0x1000 ∧
      (windowReady z m frame).read z.tmp1 = m.entries 1 ∧
      (windowReady z m frame).pointer z.sp = m.pointer z.sp := by
  have hSp := z.sp_lt
  have hTmp := z.tmp1_lt
  have hSpPtr := z.sp_ptr1
  have hSpTmp := z.sp_tmp1
  have hPtrTmp := z.ptr1_tmp1
  have hPtrNext := Layout.next_toNat z.ptr1_lt
  have hSpNext := Layout.next_toNat z.sp_lt
  have hOld : m.read (mmuEntries + 1) = m.entries 1 := read_entry 1
  have hMap : ∀ m' : KernelMemory, m'.write (mmuEntries + 1) frame = m'.setEntry 1 frame :=
    fun m' => write_entry 1
  unfold windowReady
  rw [hOld, hMap]
  have hKeep := @sameElsewhere_write m z.tmp1 (by omega) (m.entries 1)
  have hTmpRead : ∀ addr : Word, addr.toNat < 0x1000 →
      (m.write z.tmp1 (m.entries 1)).read addr =
        if addr = z.tmp1 then m.entries 1 else m.read addr := fun addr hAddr =>
    read_write_low (by omega) hAddr
  generalize m.write z.tmp1 (m.entries 1) = m₁ at hKeep hTmpRead ⊢
  obtain ⟨hSame, hPointer, hRest⟩ :=
    storePointer (m := m₁.setEntry 1 frame) z.ptr1_lt (0x00 : Byte) 0x10
  generalize ((m₁.setEntry 1 frame).write z.ptr1 0x00).write (z.ptr1 + 1) 0x10 = m₂
    at hSame hPointer hRest ⊢
  -- segment 0 is not window 1
  have hLow : ∀ addr : Word, addr.toNat < 0x1000 → (m₁.setEntry 1 frame).read addr = m₁.read addr :=
    fun addr hAddr => by
      rw [read_low hAddr, read_low hAddr]
      rfl
  have hRead : ∀ addr : Word, addr.toNat < 0x100 → addr ≠ z.ptr1 → addr ≠ z.ptr1 + 1 →
      m₂.read addr = if addr = z.tmp1 then m.entries 1 else m.read addr :=
    fun addr hAddr hNe hNe' => by
      rw [hRest addr (by omega) hNe hNe', hLow addr (by omega), hTmpRead addr (by omega)]
  have hApart : ∀ {a b : Word}, a.toNat ≠ b.toNat → a ≠ b := fun hNe hEq =>
    hNe (congrArg BitVec.toNat hEq)
  refine ⟨?_, ?_, fun f hf => ?_, hPointer, ?_, ?_⟩
  · rw [hSame.entries, KernelMemory.setEntry_entries, hKeep.entries]
  · rw [hSame.data, KernelMemory.setEntry_data, hKeep.data]
  · have hEntry : (m₁.setEntry 1 frame).entries 0 = m.entries 0 := by
      rw [KernelMemory.setEntry_entries, hKeep.entries]
      exact Function.update_of_ne (by decide) _ _
    rw [hSame.frames f (by rw [hEntry]; exact hf), KernelMemory.setEntry_frames, hKeep.frames f hf]
  · rw [hRead z.tmp1 hTmp (hApart (by omega)) (hApart (by omega)), if_pos rfl]
  · unfold KernelMemory.pointer
    rw [hRead z.sp (by omega) (hApart (by omega)) (hApart (by omega)), if_neg (hApart (by omega)),
      hRead (z.sp + 1) (by omega) (hApart (by omega)) (hApart (by omega)),
      if_neg (hApart (by omega))]

/-- **`_make_kernel_stack`** empties the C stack of the frame in `a`. -/
theorem makeKernelStack_run {c : Processor} (hFrame : c.cpu.a ≠ c.bus.entries 0) :
    StackMade z c.bus (makeKernelStack z c).bus c.cpu.a := by
  have hSp := z.sp_lt
  have hIndex : lowByte z.sp = BitVec.ofNat 8 z.sp.toNat := BitVec.eq_of_toNat_eq rfl
  obtain ⟨hEntries, hData, hFrames, hPtr, hTmp, hOwn⟩ := windowReady_run z c.bus c.cpu.a
  have hBus : (makeKernelStack z c).bus =
      let m := windowReady z c.bus c.cpu.a
      let m := m.write (m.pointer z.ptr1 + (lowByte z.sp).setWidth 16) (lowByte stackStart)
      let m := m.write (m.pointer z.ptr1 + (lowByte z.sp + 1).setWidth 16) (highByte stackStart)
      m.write (mmuEntries + 1) (m.read z.tmp1) := rfl
  rw [hIndex] at hBus
  have hNextIndex : BitVec.ofNat 8 z.sp.toNat + 1 = BitVec.ofNat 8 (z.sp.toNat + 1) := by
    rw [BitVec.ofNat_add]
    rfl
  rw [hNextIndex] at hBus
  dsimp only at hBus
  generalize windowReady z c.bus c.cpu.a = m₁ at *
  have hZero : m₁.entries 0 = c.bus.entries 0 := by
    rw [hEntries]
    exact Function.update_of_ne (by decide) _ _
  have hOne : m₁.entries 1 = c.cpu.a := by rw [hEntries, Function.update_self]
  have hApart : c.cpu.a ≠ m₁.entries 0 := by rwa [hZero]
  obtain ⟨hLow, hPtr₂⟩ := store_ptr1 hPtr hOne hApart (by omega : z.sp.toNat < 0x100)
    (lowByte stackStart)
  generalize m₁.write (m₁.pointer z.ptr1 + (BitVec.ofNat 8 z.sp.toNat).setWidth 16)
    (lowByte stackStart) = m₂ at *
  have hEntries₂ : m₂.entries = m₁.entries := by rw [hLow]
  have hOne₂ : m₂.entries 1 = c.cpu.a := by rw [hEntries₂, hOne]
  have hApart₂ : c.cpu.a ≠ m₂.entries 0 := by rwa [hEntries₂]
  obtain ⟨hHigh, -⟩ := store_ptr1 hPtr₂ hOne₂ hApart₂ hSp (highByte stackStart)
  generalize m₂.write (m₂.pointer z.ptr1 + (BitVec.ofNat 8 (z.sp.toNat + 1)).setWidth 16)
    (highByte stackStart) = m₃ at *
  -- the two stores of the pointer
  have hStored : m₃ = { m₁ with
      frames := Function.update m₁.frames c.cpu.a (setCSp z stackStart (m₁.frames c.cpu.a)) } := by
    rw [hHigh, hLow]
    dsimp only
    rw [Function.update_self, Function.update_idem]
    rfl
  have hSelf : m₃.frames (m₃.entries 0) = m₁.frames (m₁.entries 0) := by
    rw [hStored]
    exact Function.update_of_ne hApart.symm _ _
  have hBack : m₃.read z.tmp1 = c.bus.entries 1 := by
    have hTmpLow := z.tmp1_lt
    rw [← hTmp, read_low (by omega), read_low (by omega), hSelf]
  have hWrite : m₃.write (mmuEntries + 1) (m₃.read z.tmp1) = m₃.setEntry 1 (c.bus.entries 1) := by
    rw [hBack]
    exact write_entry 1
  rw [hWrite] at hBus
  rw [hBus]
  refine
    { entries := ?_
      data := ?_
      made := ?_
      others := ?_
      own := ?_ }
  · rw [KernelMemory.setEntry_entries, hStored]
    show Function.update m₁.entries 1 (c.bus.entries 1) = _
    rw [hEntries, Function.update_idem, Function.update_eq_self]
  · rw [KernelMemory.setEntry_data, hStored]
    exact hData
  · rw [KernelMemory.setEntry_frames, hStored, ← hFrames _ hFrame]
    exact Function.update_self _ _ _
  · intro f hNew hOld
    rw [KernelMemory.setEntry_frames, hStored, ← hFrames f hOld]
    exact Function.update_of_ne hNew _ _
  · rw [pointer_setEntry z.sp_lt (by decide), pointer_eq_cSp, hSelf, ← pointer_eq_cSp, hOwn]

/-! ## §3 The copy of the frame -/

/-- What the turns of the loop of `memmove` do to the frame they run on, besides the byte that they
    copy: the locals on the C stack, the temporaries in the zero page, the hardware stack, and an
    interrupt that comes in. At the end of a turn the software stack pointer is where it was. -/
structure Work (z : ZeroPage) where
  run : Nat → Page → Page
  keeps : ∀ n frame, cSp z (run n frame) = cSp z frame

/-- The frame of segment 0 changes. -/
def onFrame (m : KernelMemory) (work : Page → Page) : KernelMemory :=
  { m with frames := Function.update m.frames m.low (work (m.frames m.low)) }

/-- `while(n-- > 0) *--dst = *--src` of `memmove`, `n` turns. -/
def copyDown (w : Work z) (m : KernelMemory) (dst src : Word) : Nat → KernelMemory
  | 0 => m
  | n + 1 =>
    copyDown w (onFrame (m.write (dst - 1) (m.read (src - 1))) (w.run n)) (dst - 1) (src - 1) n

/-- `memcpy(child_buffer, parent_buffer, 4096)` of `sys_fork`: the frame of the running process is
    in window 1 and that of the child in window 2. The source lies below the destination, so that
    `memmove` copies downwards. -/
def copyKernelStack (w : Work z) (m : KernelMemory) : KernelMemory :=
  copyDown w m (0x2000 + BitVec.ofNat 16 0x1000) (0x1000 + BitVec.ofNat 16 0x1000) 0x1000

/-- The turns as they change the two frames, that of the running process first. -/
def copyPages (w : Work z) : Nat → Page × Page → Page × Page
  | 0, frames => frames
  | n + 1, (parent, child) => copyPages w n (w.run n parent, Function.update child n (parent n))

section Copy

variable {w : Work z} {m : KernelMemory}

/-- The address to which a turn comes. -/
theorem pred_toNat (base : Word) {n : Nat} (hBase : base.toNat ≤ 0x2000) (hn : n < 0x1000) :
    (base + BitVec.ofNat 16 (n + 1) - 1).toNat = base.toNat + n := by
  have hOne : (1 : Word).toNat = 1 := rfl
  rw [BitVec.toNat_sub, BitVec.toNat_add, BitVec.toNat_ofNat, hOne]
  omega

theorem pred_eq (base : Word) (n : Nat) :
    base + BitVec.ofNat 16 (n + 1) - 1 = base + BitVec.ofNat 16 n := by
  rw [BitVec.ofNat_add, ← BitVec.add_assoc]
  exact BitVec.add_sub_cancel _ _

/-- The loop changes the two frames and nothing else. -/
theorem copyDown_pages {n : Nat} (hn : n ≤ 0x1000) (hParent : m.entries 1 = m.entries 0)
    (hChild : m.entries 2 ≠ m.entries 0) :
    copyDown w m (0x2000 + BitVec.ofNat 16 n) (0x1000 + BitVec.ofNat 16 n) n = { m with
      frames := Function.update (Function.update m.frames (m.entries 0)
          (copyPages w n (m.frames (m.entries 0), m.frames (m.entries 2))).1) (m.entries 2)
        (copyPages w n (m.frames (m.entries 0), m.frames (m.entries 2))).2 } := by
  induction n generalizing m with
  | zero =>
    show m = { m with
      frames := Function.update (Function.update m.frames (m.entries 0) (m.frames (m.entries 0)))
        (m.entries 2) (m.frames (m.entries 2)) }
    rw [Function.update_eq_self, Function.update_eq_self]
  | succ n ih =>
    have hRead : m.read (0x1000 + BitVec.ofNat 16 (n + 1) - 1) = m.frames (m.entries 0) n := by
      rw [read_segment 1 (pred_toNat 0x1000 (by decide) (by omega)) (by omega), hParent]
    have hWrite := fun byte => @write_segment m _ n 2
      (pred_toNat 0x2000 (by decide) (by omega)) (by omega) byte
    rw [copyDown, hRead, hWrite, pred_eq, pred_eq, copyPages]
    -- the frames behind this turn
    generalize hNext : onFrame { m with
      frames := Function.update m.frames (m.entries 2)
        (Function.update (m.frames (m.entries 2)) n (m.frames (m.entries 0) n)) } (w.run n) = m₁
    have hFrames : m₁ = { m with
        frames := Function.update (Function.update m.frames (m.entries 2)
            (Function.update (m.frames (m.entries 2)) n (m.frames (m.entries 0) n))) (m.entries 0)
          (w.run n (m.frames (m.entries 0))) } := by
      rw [← hNext, onFrame, KernelMemory.low]
      dsimp only
      rw [Function.update_of_ne hChild.symm]
    have hOwn : m₁.frames (m.entries 0) = w.run n (m.frames (m.entries 0)) := by
      rw [hFrames]
      exact Function.update_self _ _ _
    have hTheirs : m₁.frames (m.entries 2) =
        Function.update (m.frames (m.entries 2)) n (m.frames (m.entries 0) n) := by
      rw [hFrames]
      dsimp only
      rw [Function.update_of_ne hChild, Function.update_self]
    have hEntries : m₁.entries = m.entries := by rw [hFrames]
    rw [@ih m₁ (by omega) (by rw [hEntries, hParent]) (by rw [hEntries]; exact hChild), hEntries,
      hOwn, hTheirs, hFrames]
    dsimp only
    rw [Function.update_idem, Function.update_comm hChild, Function.update_idem]

/-- A byte that the loop leaves alone on the frame it runs on comes to the other one. -/
theorem copyPages_byte {offset : Nat} (hKeeps : ∀ n frame, w.run n frame offset = frame offset)
    (n : Nat) (parent child : Page) :
    (copyPages w n (parent, child)).2 offset =
      if offset < n then parent offset else child offset := by
  induction n generalizing parent child with
  | zero => exact (if_neg (Nat.not_lt_zero _)).symm
  | succ n ih =>
    rw [copyPages, ih, hKeeps]
    by_cases hBelow : offset < n
    · rw [if_pos hBelow, if_pos (Nat.lt_succ_of_lt hBelow)]
    · rw [if_neg hBelow]
      by_cases hHere : offset = n
      · subst hHere
        rw [Function.update_self, if_pos (Nat.lt_succ_self _)]
      · rw [Function.update_of_ne hHere, if_neg (by omega)]

@[simp] theorem lowByte_wordOf (lo hi : Byte) : lowByte (wordOf lo hi) = lo := by
  apply BitVec.eq_of_getElem_eq
  intro i hBit
  simp [wordOf, lowByte]

@[simp] theorem highByte_wordOf (lo hi : Byte) : highByte (wordOf lo hi) = hi := by
  apply BitVec.eq_of_getElem_eq
  intro i hBit
  have hShift : (8 + i < 16) ∧ ¬ 8 + i < 8 ∧ i < 16 := by omega
  simp [wordOf, highByte, hShift, BitVec.getLsbD_eq_getElem hBit]

/-- The two bytes of a word are determined by it. -/
theorem wordOf_inj {lo hi lo' hi' : Byte} (h : wordOf lo hi = wordOf lo' hi') :
    lo = lo' ∧ hi = hi' := by
  have hLow := congrArg lowByte h
  have hHigh := congrArg highByte h
  rw [lowByte_wordOf, lowByte_wordOf] at hLow
  rw [highByte_wordOf, highByte_wordOf] at hHigh
  exact ⟨hLow, hHigh⟩

/-- **The copy takes the software stack pointer along**, as it is while `memmove` runs. -/
theorem cSp_copyPages (parent child : Page) :
    cSp z (copyPages w 0x1000 (parent, child)).2 = cSp z parent := by
  have hSp := z.sp_lt
  have hBytes : ∀ n frame, w.run n frame z.sp.toNat = frame z.sp.toNat ∧
      w.run n frame (z.sp.toNat + 1) = frame (z.sp.toNat + 1) := fun n frame =>
    wordOf_inj (w.keeps n frame)
  apply cSp_congr
  · rw [copyPages_byte fun n frame => (hBytes n frame).1, if_pos (by omega)]
  · rw [copyPages_byte fun n frame => (hBytes n frame).2, if_pos (by omega)]

/-- The running process goes on with the pointer it had. -/
theorem cSp_copyPages_own (n : Nat) (parent child : Page) :
    cSp z (copyPages w n (parent, child)).1 = cSp z parent := by
  induction n generalizing parent child with
  | zero => rfl
  | succ n ih => rw [copyPages, ih, w.keeps]

end Copy

/-- **`sys_fork` on the kernel stack of its child**: whatever `_make_kernel_stack` has stored there,
    the child has the software stack pointer of the running process behind the copy. -/
theorem copyKernelStack_cSp {w : Work z} {m : KernelMemory} (hParent : m.entries 1 = m.entries 0)
    (hChild : m.entries 2 ≠ m.entries 0) :
    cSp z ((copyKernelStack w m).frames (m.entries 2)) = m.pointer z.sp ∧
      (copyKernelStack w m).pointer z.sp = m.pointer z.sp := by
  have hPages := copyDown_pages (w := w) (Nat.le_refl 0x1000) hParent hChild
  unfold copyKernelStack
  rw [hPages, pointer_eq_cSp, pointer_eq_cSp]
  dsimp only
  rw [Function.update_self, Function.update_of_ne hChild.symm, Function.update_self]
  exact ⟨cSp_copyPages _ _, cSp_copyPages_own _ _ _⟩

/-! ## §4 The first dispatch -/

/-- **The child starts with the pointer of its frame**: `_first_context_switch` writes to the stack
    of the old process only, and then maps the frame of the new one. -/
theorem firstContextSwitch_cSp {l : Layout} {popax : Processor → Processor} {c : Processor}
    {old new : Word} (h : Dispatches l popax c old new) :
    (firstContextSwitch l popax c).bus.pointer z.sp =
      cSp z (c.bus.frames (c.bus.data (new + 1#16))) := by
  have hSwitch := switchContexts_run h.calls h.frame
  rw [pointer_eq_cSp, firstContextSwitch, hSwitch.entry, hSwitch.frames _ h.frame]

end Xv6502.Kernel.CStack
