import Xv6502.Emulator.LowMemory
import Mathlib.Logic.Function.Basic

/-!
# The First Dispatch of a Forked Process

`_context_switch` and `_first_context_switch` of `kernel/trampoline.s`. Both push the status of the
old process and pull one behind the change of stacks. A process that has been switched away from has
its own there and goes on with it. A forked one has nothing on its stack: its pointer is `0xFF`, and
`plp` takes the byte at `0x0100` of its frame, which may hold anything.
-/

namespace Xv6502.Kernel.Dispatch

open Xv6502.Emulator

/-! ## §1 The memory -/

/-- What the switch works on: the MMU entries of the segments 0 to 2, the frames that are mapped
    there, and the rest of the kernel's address space, which is the same for all processes. -/
structure KernelMemory where
  entries : Fin 3 → Frame
  frames : Frame → Nat → Byte
  data : Word → Byte

namespace KernelMemory

/-- A byte as the processor reads it. -/
def read (m : KernelMemory) (addr : Word) : Byte :=
  if addr.toNat < 0x3000 then
    m.frames (m.entries (Fin.ofNat 3 (addr.toNat / 0x1000))) (addr.toNat % 0x1000)
  else if mmuPageTable ≤ addr.toNat ∧ addr.toNat < mmuPageTable + 3 then
    m.entries (Fin.ofNat 3 (addr.toNat - mmuPageTable))
  else m.data addr

/-- A byte is stored. -/
def write (m : KernelMemory) (addr : Word) (byte : Byte) : KernelMemory :=
  -- the segments 0 to 2 show the frames of the process, all above is the same for each
  if addr.toNat < 0x3000 then
    { m with
      frames := Function.update m.frames (m.entries (Fin.ofNat 3 (addr.toNat / 0x1000)))
        (Function.update (m.frames (m.entries (Fin.ofNat 3 (addr.toNat / 0x1000))))
          (addr.toNat % 0x1000) byte) }
  else if mmuPageTable ≤ addr.toNat ∧ addr.toNat < mmuPageTable + 3 then
    { m with
      entries := Function.update m.entries (Fin.ofNat 3 (addr.toNat - mmuPageTable)) byte }
  else { m with data := Function.update m.data addr byte }

/-- A pointer in the zero page. -/
def pointer (m : KernelMemory) (zp : Word) : Word := wordOf (m.read zp) (m.read (zp + 1))

/-- The frame of segment 0. -/
def low (m : KernelMemory) : Frame := m.entries 0

/-- The memory with other data. -/
def setData (m : KernelMemory) (data : Word → Byte) : KernelMemory := { m with data := data }

/-- The memory with another frame in one of the segments. -/
def setEntry (m : KernelMemory) (i : Fin 3) (frame : Frame) : KernelMemory :=
  { m with entries := Function.update m.entries i frame }

@[simp] theorem setData_entries (m : KernelMemory) (data : Word → Byte) :
    (m.setData data).entries = m.entries := rfl

@[simp] theorem setData_frames (m : KernelMemory) (data : Word → Byte) :
    (m.setData data).frames = m.frames := rfl

@[simp] theorem setData_data (m : KernelMemory) (data : Word → Byte) :
    (m.setData data).data = data := rfl

@[simp] theorem setEntry_frames (m : KernelMemory) (i : Fin 3) (frame : Frame) :
    (m.setEntry i frame).frames = m.frames := rfl

@[simp] theorem setEntry_data (m : KernelMemory) (i : Fin 3) (frame : Frame) :
    (m.setEntry i frame).data = m.data := rfl

@[simp] theorem setEntry_entries (m : KernelMemory) (i : Fin 3) (frame : Frame) :
    (m.setEntry i frame).entries = Function.update m.entries i frame := rfl

end KernelMemory

/-- The bus of the kernel. -/
def kernelBus : DataBus KernelMemory where
  readByte addr m := (m.read addr, m)
  writeByte addr byte m := m.write addr byte

/-- The processor in the kernel. -/
abbrev Processor := Ctx KernelMemory

/-! ## §2 The code -/

/-- Where the linker has put `ptr1`, `ptr2` and `_kernel_page_table`. -/
structure Layout where
  ptr1 : Word
  ptr2 : Word
  kernelPageTable : Word
  ptr1_lt : ptr1.toNat + 1 < 0x100
  ptr2_lt : ptr2.toNat + 1 < 0x100
  apart : ptr1.toNat + 1 < ptr2.toNat ∨ ptr2.toNat + 1 < ptr1.toNat
  inData : 0x3000 ≤ kernelPageTable.toNat ∧ kernelPageTable.toNat + 16 ≤ mmuPageTable

/-- `MMU_PAGE_TABLE`. -/
def mmuEntries : Word := BitVec.ofNat 16 mmuPageTable

variable (l : Layout)

/-- The kernel low memory is saved to the `Proc` of `ptr2`. -/
def saveLow : List (Statement KernelMemory) :=
  [(.ldy, immediate 1),
    (.lda, absolute kernelBus (l.kernelPageTable + 0)), (.sta, indirectIndexedY kernelBus l.ptr2),
    (.iny, implied),
    (.lda, absolute kernelBus (l.kernelPageTable + 1)), (.sta, indirectIndexedY kernelBus l.ptr2),
    (.iny, implied),
    (.lda, absolute kernelBus (l.kernelPageTable + 2)), (.sta, indirectIndexedY kernelBus l.ptr2)]

/-- The hardware stack pointers are switched. -/
def switchStacks : List (Statement KernelMemory) :=
  [(.ldy, immediate 0), (.tsx, implied), (.txa, implied),
    (.sta, indirectIndexedY kernelBus l.ptr2), (.lda, indirectIndexedY kernelBus l.ptr1),
    (.tax, implied), (.txs, implied)]

/-- The kernel low memory is loaded from the `Proc` of `ptr1`, the zero page last. -/
def loadLow : List (Statement KernelMemory) :=
  [(.ldy, immediate 3),
    (.lda, indirectIndexedY kernelBus l.ptr1),
    (.sta, absolute kernelBus (mmuEntries + 2)), (.sta, absolute kernelBus (l.kernelPageTable + 2)),
    (.dey, implied),
    (.lda, indirectIndexedY kernelBus l.ptr1),
    (.sta, absolute kernelBus (mmuEntries + 1)), (.sta, absolute kernelBus (l.kernelPageTable + 1)),
    (.dey, implied),
    (.lda, indirectIndexedY kernelBus l.ptr1),
    (.sta, absolute kernelBus (mmuEntries + 0)), (.sta, absolute kernelBus (l.kernelPageTable + 0))]

/-- The processor as it comes to `popax`: the status is pushed, NEW is in `ptr1`. -/
def pushStatus (c : Processor) : Processor :=
  execAll kernelBus [(.php, implied),
    (.sta, absolute kernelBus l.ptr1), (.stx, absolute kernelBus (l.ptr1 + 1))] c

/-- OLD, which `popax` has brought, goes to `ptr2`. -/
def storeOld (c : Processor) : Processor :=
  execAll kernelBus
    [(.sta, absolute kernelBus l.ptr2), (.stx, absolute kernelBus (l.ptr2 + 1))] c

/-- The code that the two routines share, with `popax` of the compiler's library. -/
def switchContexts (popax : Processor → Processor) (c : Processor) : Processor :=
  let c := storeOld l (popax (pushStatus l c))
  let c := execAll kernelBus (saveLow l) c
  let c := execAll kernelBus (switchStacks l) c
  let c := execAll kernelBus (loadLow l) c
  exec kernelBus (.plp, implied) c

/-- `_first_context_switch` up to the call of `_kernel_epilogue`. -/
def firstContextSwitch (popax : Processor → Processor) (c : Processor) : Processor :=
  switchContexts l popax c

/-- `_context_switch`. -/
def contextSwitch (popax : Processor → Processor) (c : Processor) : Processor :=
  exec kernelBus (.rts, implied) (switchContexts l popax c)

/-! ## §3 Accesses -/

section Accesses

variable {m : KernelMemory} {addr : Word} {byte : Byte}

/-- The address is one of the kernel's own data. -/
def InData (addr : Word) : Prop := 0x3000 ≤ addr.toNat ∧ addr.toNat < mmuPageTable

theorem read_low (h : addr.toNat < 0x1000) :
    m.read addr = m.frames (m.entries 0) addr.toNat := by
  unfold KernelMemory.read
  rw [if_pos (by omega), Nat.div_eq_of_lt h, Nat.mod_eq_of_lt h]
  rfl

theorem write_low (h : addr.toNat < 0x1000) : m.write addr byte = { m with
    frames := Function.update m.frames (m.entries 0)
      (Function.update (m.frames (m.entries 0)) addr.toNat byte) } := by
  unfold KernelMemory.write
  rw [if_pos (by omega), Nat.div_eq_of_lt h, Nat.mod_eq_of_lt h]
  rfl

/-- Two states of the memory differ in the frame of segment 0 only. -/
structure SameElsewhere (m m' : KernelMemory) : Prop where
  entries : m'.entries = m.entries
  data : m'.data = m.data
  frames : ∀ f, f ≠ m.entries 0 → m'.frames f = m.frames f

theorem SameElsewhere.trans {m₁ m₂ m₃ : KernelMemory} (h : SameElsewhere m₁ m₂)
    (h' : SameElsewhere m₂ m₃) : SameElsewhere m₁ m₃ := by
  refine ⟨h'.entries.trans h.entries, h'.data.trans h.data, fun f hf => ?_⟩
  have hf' : f ≠ m₂.entries 0 := by
    rw [h.entries]
    exact hf
  exact (h'.frames f hf').trans (h.frames f hf)

theorem sameElsewhere_write (h : addr.toNat < 0x1000) (byte : Byte) :
    SameElsewhere m (m.write addr byte) := by
  rw [write_low h]
  exact ⟨rfl, rfl, fun f hf => Function.update_of_ne hf _ _⟩

/-- A byte of segment 0 after another one is stored there. -/
theorem read_write_low (h : addr.toNat < 0x1000) {addr' : Word} (h' : addr'.toNat < 0x1000) :
    (m.write addr byte).read addr' = if addr' = addr then byte else m.read addr' := by
  rw [write_low h, read_low h', read_low h']
  show Function.update m.frames _ _ (m.entries 0) addr'.toNat = _
  rw [Function.update_self, Function.update_apply]
  exact if_congr (BitVec.toNat_inj) rfl rfl

theorem stackAddress_inj {s s' : Byte} : stackAddress s = stackAddress s' ↔ s = s' := by
  constructor
  · intro h
    have hNat := congrArg BitVec.toNat h
    rw [stackAddress_toNat, stackAddress_toNat] at hNat
    exact BitVec.eq_of_toNat_eq (by omega)
  · intro h
    rw [h]

/-- The zero page is below the stack. -/
theorem stackAddress_ne {s : Byte} (h : addr.toNat < 0x100) : stackAddress s ≠ addr := by
  intro hEq
  have hNat := congrArg BitVec.toNat hEq
  rw [stackAddress_toNat] at hNat
  omega

theorem read_data (h : InData addr) : m.read addr = m.data addr := by
  obtain ⟨hLow, hHigh⟩ := h
  unfold KernelMemory.read
  rw [if_neg (by omega), if_neg (by omega)]

theorem write_data (h : InData addr) :
    m.write addr byte = m.setData (Function.update m.data addr byte) := by
  obtain ⟨hLow, hHigh⟩ := h
  unfold KernelMemory.write
  rw [if_neg (by omega), if_neg (by omega), KernelMemory.setData]

theorem write_entry (i : Fin 3) : m.write (mmuEntries + BitVec.ofNat 16 i) byte =
    m.setEntry i byte := by
  have hAddr : (mmuEntries + BitVec.ofNat 16 i).toNat = mmuPageTable + i := by
    have hEntries : mmuEntries.toNat = mmuPageTable := rfl
    rw [BitVec.toNat_add, BitVec.toNat_ofNat, hEntries]
    unfold mmuPageTable
    omega
  unfold KernelMemory.write
  rw [hAddr, if_neg (by unfold mmuPageTable; omega), if_pos (by omega), Nat.add_sub_cancel_left]
  congr
  exact Fin.ofNat_val_eq_self i

/-- A pointer in the zero page depends on the frame of segment 0 only. -/
theorem pointer_congr {m' : KernelMemory} (h : addr.toNat + 1 < 0x100)
    (hFrames : m'.frames = m.frames) (hEntry : m'.entries 0 = m.entries 0) :
    m'.pointer addr = m.pointer addr := by
  have hNext : (addr + 1).toNat < 0x1000 := by
    rw [BitVec.toNat_add]
    have hOne : (1 : Word).toNat = 1 := rfl
    omega
  have hLow : addr.toNat < 0x1000 := by omega
  unfold KernelMemory.pointer
  rw [read_low hLow, read_low hLow, read_low hNext, read_low hNext, hFrames, hEntry]

theorem pointer_setData (h : addr.toNat + 1 < 0x100) (data : Word → Byte) :
    (m.setData data).pointer addr = m.pointer addr := pointer_congr h rfl rfl

theorem pointer_setEntry (h : addr.toNat + 1 < 0x100) {i : Fin 3} (hi : i ≠ 0) (frame : Frame) :
    (m.setEntry i frame).pointer addr = m.pointer addr :=
  pointer_congr h rfl (Function.update_of_ne hi.symm _ _)

end Accesses

/-! ## §4 The pieces -/

section Pieces

variable {l : Layout} {c : Processor} {old new : Word} {y : Byte}

/-- A `Proc` lies in the kernel's data, apart from `_kernel_page_table`. -/
structure ProcAt (l : Layout) (p : Word) : Prop where
  inData : 0x3000 ≤ p.toNat ∧ p.toNat + 4 ≤ mmuPageTable
  apart : p.toNat + 4 ≤ l.kernelPageTable.toNat ∨ l.kernelPageTable.toNat + 16 ≤ p.toNat

/-- The bytes of a `Proc` are at different addresses. -/
theorem ProcAt.toNat {p : Word} (h : ProcAt l p) {i : Nat} (hi : i < 4) :
    (p + BitVec.ofNat 16 i).toNat = p.toNat + i := by
  have hIn := h.inData
  unfold mmuPageTable at hIn
  rw [BitVec.toNat_add, BitVec.toNat_ofNat]
  omega

theorem ProcAt.field {p : Word} (h : ProcAt l p) {i : Nat} (hi : i < 4) :
    InData (p + BitVec.ofNat 16 i) := by
  have hIn := h.inData
  have hField := h.toNat hi
  unfold InData
  omega

theorem Layout.entry_toNat (l : Layout) {i : Nat} (hi : i < 16) :
    (l.kernelPageTable + BitVec.ofNat 16 i).toNat = l.kernelPageTable.toNat + i := by
  have hIn := l.inData
  unfold mmuPageTable at hIn
  rw [BitVec.toNat_add, BitVec.toNat_ofNat]
  omega

theorem Layout.entry (l : Layout) {i : Nat} (hi : i < 16) :
    InData (l.kernelPageTable + BitVec.ofNat 16 i) := by
  have hIn := l.inData
  have hEntry := l.entry_toNat hi
  unfold InData
  omega

theorem ProcAt.field_ne_entry {p : Word} (h : ProcAt l p) {i j : Nat} (hi : i < 4) (hj : j < 16) :
    p + BitVec.ofNat 16 i ≠ l.kernelPageTable + BitVec.ofNat 16 j := by
  intro hEq
  have hNat := congrArg BitVec.toNat hEq
  rw [h.toNat hi, l.entry_toNat hj] at hNat
  have hApart := h.apart
  omega

/-- The entry of a segment goes to its place in a `Proc`. -/
def saveEntry (l : Layout) (old : Word) (i : Nat) (data : Word → Byte) : Word → Byte :=
  Function.update data (old + BitVec.ofNat 16 (i + 1))
    (data (l.kernelPageTable + BitVec.ofNat 16 i))

/-- The data after `saveLow`. -/
def savedData (l : Layout) (old : Word) (data : Word → Byte) : Word → Byte :=
  saveEntry l old 2 (saveEntry l old 1 (saveEntry l old 0 data))

/-- One entry is saved. -/
def saveCode (l : Layout) (i : Nat) : List (Statement KernelMemory) :=
  [(.lda, absolute kernelBus (l.kernelPageTable + BitVec.ofNat 16 i)),
    (.sta, indirectIndexedY kernelBus l.ptr2)]

/-- What a piece of the code leaves of the processor and the memory. -/
structure Leaves (c c' : Processor) (m : KernelMemory) (y : Byte) : Prop where
  bus : c'.bus = m
  sp : c'.cpu.sp = c.cpu.sp
  y : c'.cpu.y = y

/-- The index is set to a constant. -/
theorem ldy_run (value : Byte) : Leaves c (exec kernelBus (.ldy, immediate value) c) c.bus value :=
  ⟨rfl, rfl, rfl⟩

theorem iny_run {i : Nat} (hy : c.cpu.y = BitVec.ofNat 8 i) :
    Leaves c (exec kernelBus (.iny, implied) c) c.bus (BitVec.ofNat 8 (i + 1)) := by
  refine ⟨rfl, rfl, ?_⟩
  show c.cpu.y + 1 = _
  rw [hy, BitVec.ofNat_add]
  rfl

theorem dey_run {i : Nat} (hy : c.cpu.y = BitVec.ofNat 8 (i + 1)) :
    Leaves c (exec kernelBus (.dey, implied) c) c.bus (BitVec.ofNat 8 i) := by
  refine ⟨rfl, rfl, ?_⟩
  show c.cpu.y - 1 = _
  rw [hy, BitVec.ofNat_add]
  exact BitVec.add_sub_cancel _ _

/-- The index of an entry as part of an address. -/
theorem setWidth_index {i : Nat} (hi : i < 4) :
    (BitVec.ofNat 8 i).setWidth 16 = BitVec.ofNat 16 i := by
  apply BitVec.eq_of_toNat_eq
  rw [BitVec.toNat_setWidth, BitVec.toNat_ofNat, BitVec.toNat_ofNat]
  omega

theorem saveCode_run {c₀ : Processor} {i : Nat}
    (hIndex : Leaves c c₀ c.bus (BitVec.ofNat 8 (i + 1))) (hi : i < 3) (hOld : ProcAt l old)
    (hPtr : c.bus.pointer l.ptr2 = old) :
    Leaves c (execAll kernelBus (saveCode l i) c₀) (c.bus.setData (saveEntry l old i c.bus.data))
      (BitVec.ofNat 8 (i + 1)) := by
  refine ⟨?_, hIndex.sp, hIndex.y⟩
  show c₀.bus.write (c₀.bus.pointer l.ptr2 + c₀.cpu.y.setWidth 16)
    (c₀.bus.read (l.kernelPageTable + BitVec.ofNat 16 i)) = _
  rw [hIndex.bus, hIndex.y, hPtr, setWidth_index (by omega), write_data (hOld.field (by omega)),
    read_data (l.entry (by omega))]
  rfl

theorem saveLow_run (hOld : ProcAt l old) (hPtr : c.bus.pointer l.ptr2 = old) :
    Leaves c (execAll kernelBus (saveLow l) c) (c.bus.setData (savedData l old c.bus.data)) 3 := by
  -- three pieces, one for each entry of the page table, with Y going up
  have hCode : saveLow l = (.ldy, immediate 1) :: (saveCode l 0 ++
      (.iny, implied) :: (saveCode l 1 ++ (.iny, implied) :: saveCode l 2)) := rfl
  rw [hCode, execAll_cons, execAll_append, execAll_cons, execAll_append, execAll_cons]
  have hStep₀ := saveCode_run (i := 0) (ldy_run 1) (by decide) hOld hPtr
  generalize execAll kernelBus (saveCode l 0) (exec kernelBus (.ldy, immediate 1) c) = c₀ at *
  have hPtr₀ : c₀.bus.pointer l.ptr2 = old := by
    rw [hStep₀.bus, pointer_setData l.ptr2_lt, hPtr]
  have hStep₁ := saveCode_run (i := 1) (iny_run hStep₀.y) (by decide) hOld hPtr₀
  generalize execAll kernelBus (saveCode l 1) (exec kernelBus (.iny, implied) c₀) = c₁ at *
  have hPtr₁ : c₁.bus.pointer l.ptr2 = old := by
    rw [hStep₁.bus, pointer_setData l.ptr2_lt, hPtr₀]
  have hStep₂ := saveCode_run (i := 2) (iny_run hStep₁.y) (by decide) hOld hPtr₁
  refine ⟨?_, hStep₂.sp.trans (hStep₁.sp.trans hStep₀.sp), hStep₂.y⟩
  rw [hStep₂.bus, hStep₁.bus, hStep₀.bus]
  rfl

/-- The change of the stack pointers. -/
theorem switchStacks_run (hOld : ProcAt l old) (hNew : ProcAt l new)
    (hPtr₁ : c.bus.pointer l.ptr1 = new) (hPtr₂ : c.bus.pointer l.ptr2 = old) (hne : new ≠ old) :
    (execAll kernelBus (switchStacks l) c).bus =
        c.bus.setData (Function.update c.bus.data old c.cpu.sp) ∧
      (execAll kernelBus (switchStacks l) c).cpu.sp = c.bus.data new := by
  have hField : ∀ {p : Word}, ProcAt l p → InData p := fun {p} hp => by
    have hAt := hp.field (i := 0) (by decide)
    rwa [BitVec.add_zero] at hAt
  have hStore : c.bus.write (c.bus.pointer l.ptr2 + 0#16) c.cpu.sp =
      c.bus.setData (Function.update c.bus.data old c.cpu.sp) := by
    rw [hPtr₂, BitVec.add_zero, write_data (hField hOld)]
  refine ⟨hStore, ?_⟩
  show (c.bus.write (c.bus.pointer l.ptr2 + 0#16) c.cpu.sp).read
    ((c.bus.write (c.bus.pointer l.ptr2 + 0#16) c.cpu.sp).pointer l.ptr1 + 0#16) = _
  rw [hStore, pointer_setData l.ptr1_lt, hPtr₁, BitVec.add_zero, read_data (hField hNew)]
  exact Function.update_of_ne hne _ _

/-- The entry of a segment comes from a `Proc`. -/
def loadEntry (l : Layout) (new : Word) (i : Fin 3) (m : KernelMemory) : KernelMemory :=
  (m.setEntry i (m.data (new + BitVec.ofNat 16 (i + 1)))).setData
    (Function.update m.data (l.kernelPageTable + BitVec.ofNat 16 i)
      (m.data (new + BitVec.ofNat 16 (i + 1))))

/-- One entry is loaded. -/
def loadCode (l : Layout) (i : Fin 3) : List (Statement KernelMemory) :=
  [(.lda, indirectIndexedY kernelBus l.ptr1),
    (.sta, absolute kernelBus (mmuEntries + BitVec.ofNat 16 i)),
    (.sta, absolute kernelBus (l.kernelPageTable + BitVec.ofNat 16 i))]

theorem loadCode_run {c₀ : Processor} {i : Fin 3} {n : Nat} (hn : i.val = n)
    (hIndex : Leaves c c₀ c.bus (BitVec.ofNat 8 (n + 1))) (hNew : ProcAt l new)
    (hPtr : c.bus.pointer l.ptr1 = new) :
    Leaves c (execAll kernelBus (loadCode l i) c₀) (loadEntry l new i c.bus)
      (BitVec.ofNat 8 (n + 1)) := by
  subst hn
  refine ⟨?_, hIndex.sp, hIndex.y⟩
  show (c₀.bus.write (mmuEntries + BitVec.ofNat 16 i)
    (c₀.bus.read (c₀.bus.pointer l.ptr1 + c₀.cpu.y.setWidth 16))).write
      (l.kernelPageTable + BitVec.ofNat 16 i)
        (c₀.bus.read (c₀.bus.pointer l.ptr1 + c₀.cpu.y.setWidth 16)) = _
  rw [hIndex.bus, hIndex.y, hPtr, setWidth_index (by omega), read_data (hNew.field (by omega)),
    write_entry, write_data (l.entry (by omega))]
  rfl

/-- The memory after `loadLow`. -/
def loadedLow (l : Layout) (new : Word) (m : KernelMemory) : KernelMemory :=
  loadEntry l new 0 (loadEntry l new 1 (loadEntry l new 2 m))

theorem loadLow_run (hNew : ProcAt l new) (hPtr : c.bus.pointer l.ptr1 = new) :
    Leaves c (execAll kernelBus (loadLow l) c) (loadedLow l new c.bus) 1 := by
  have hCode : loadLow l = (.ldy, immediate 3) :: (loadCode l 2 ++
      (.dey, implied) :: (loadCode l 1 ++ (.dey, implied) :: loadCode l 0)) := rfl
  rw [hCode, execAll_cons, execAll_append, execAll_cons, execAll_append, execAll_cons]
  have hStep₂ := loadCode_run (i := 2) (n := 2) rfl (ldy_run 3) hNew hPtr
  generalize execAll kernelBus (loadCode l 2) (exec kernelBus (.ldy, immediate 3) c) = c₂ at *
  have hPtr₂ : c₂.bus.pointer l.ptr1 = new := by
    rw [hStep₂.bus, loadEntry, pointer_setData l.ptr1_lt, pointer_setEntry l.ptr1_lt (by decide),
      hPtr]
  have hStep₁ := loadCode_run (i := 1) (n := 1) rfl (dey_run hStep₂.y) hNew hPtr₂
  generalize execAll kernelBus (loadCode l 1) (exec kernelBus (.dey, implied) c₂) = c₁ at *
  have hPtr₁ : c₁.bus.pointer l.ptr1 = new := by
    rw [hStep₁.bus, loadEntry, pointer_setData l.ptr1_lt, pointer_setEntry l.ptr1_lt (by decide),
      hPtr₂]
  have hStep₀ := loadCode_run (i := 0) (n := 0) rfl (dey_run hStep₁.y) hNew hPtr₁
  refine ⟨?_, hStep₀.sp.trans (hStep₁.sp.trans hStep₂.sp), hStep₀.y⟩
  rw [hStep₁.bus, hStep₂.bus] at hStep₀
  exact hStep₀.bus

end Pieces

/-! ## §5 The arguments -/

section Arguments

variable {l : Layout} {popax : Processor → Processor} {c c' : Processor} {old new : Word}

/-- What the code relies on in a call of `popax`: OLD comes in `a` and `x` from the software stack,
    and besides the pointer to that stack, only the two bytes of the return address are written. -/
structure Popped (l : Layout) (old : Word) (c c' : Processor) : Prop where
  a : c'.cpu.a = lowByte old
  x : c'.cpu.x = highByte old
  sp : c'.cpu.sp = c.cpu.sp
  elsewhere : SameElsewhere c.bus c'.bus
  ptr1 : c'.bus.pointer l.ptr1 = c.bus.pointer l.ptr1
  stack : ∀ s, s ≠ c.cpu.sp → s ≠ c.cpu.sp - 1 →
    c'.bus.read (stackAddress s) = c.bus.read (stackAddress s)

/-- A call with OLD on the software stack and NEW in `a` and `x`. -/
structure Calls (l : Layout) (popax : Processor → Processor) (c : Processor) (old new : Word) :
    Prop where
  new_eq : wordOf c.cpu.a c.cpu.x = new
  popped : Popped l old (pushStatus l c) (popax (pushStatus l c))
  oldAt : ProcAt l old
  newAt : ProcAt l new
  apart : old.toNat + 4 ≤ new.toNat ∨ new.toNat + 4 ≤ old.toNat

theorem Layout.next_toNat {zp : Word} (h : zp.toNat + 1 < 0x100) :
    (zp + 1).toNat = zp.toNat + 1 := by
  have hOne : (1 : Word).toNat = 1 := rfl
  rw [BitVec.toNat_add]
  omega

/-- The two bytes of a pointer in the zero page are stored. -/
theorem storePointer {m : KernelMemory} {zp : Word} (h : zp.toNat + 1 < 0x100) (lo hi : Byte) :
    SameElsewhere m ((m.write zp lo).write (zp + 1) hi) ∧
      ((m.write zp lo).write (zp + 1) hi).pointer zp = wordOf lo hi ∧
      ∀ addr : Word, addr.toNat < 0x1000 → addr ≠ zp → addr ≠ zp + 1 →
        ((m.write zp lo).write (zp + 1) hi).read addr = m.read addr := by
  have hNext := Layout.next_toNat h
  have hLow : zp.toNat < 0x1000 := by omega
  have hLow' : (zp + 1).toNat < 0x1000 := by omega
  -- the two bytes of the pointer do not overlap
  have hNe : zp ≠ zp + 1 := fun hEq => by
    have hNat := congrArg BitVec.toNat hEq
    omega
  refine ⟨(sameElsewhere_write hLow lo).trans (sameElsewhere_write hLow' hi), ?_, ?_⟩
  · unfold KernelMemory.pointer
    rw [read_write_low hLow' hLow, if_neg hNe, read_write_low hLow hLow, if_pos rfl,
      read_write_low hLow' hLow', if_pos rfl]
  · intro addr hAddr hNe₀ hNe₁
    rw [read_write_low hLow' hAddr, if_neg hNe₁, read_write_low hLow hAddr, if_neg hNe₀]

/-- How the code stands before the `Proc`s are touched. -/
structure Entered (l : Layout) (c c' : Processor) (old new : Word) : Prop where
  sp : c'.cpu.sp = c.cpu.sp - 1
  elsewhere : SameElsewhere c.bus c'.bus
  ptr1 : c'.bus.pointer l.ptr1 = new
  ptr2 : c'.bus.pointer l.ptr2 = old
  pushed : c'.bus.read (stackAddress c.cpu.sp) = pushedFlags true c.cpu.p
  stack : ∀ s, s ≠ c.cpu.sp → s ≠ c.cpu.sp - 1 → s ≠ c.cpu.sp - 2 →
    c'.bus.read (stackAddress s) = c.bus.read (stackAddress s)

/-- A byte of the stack is not one of the pointer. -/
theorem stack_ne_pointer {zp : Word} (h : zp.toNat + 1 < 0x100) (s : Byte) :
    stackAddress s ≠ zp ∧ stackAddress s ≠ zp + 1 := by
  have hNext := Layout.next_toNat h
  exact ⟨stackAddress_ne (by omega), stackAddress_ne (by omega)⟩

theorem pushStatus_run (l : Layout) (c : Processor) :
    (pushStatus l c).bus.pointer l.ptr1 = wordOf c.cpu.a c.cpu.x ∧
      SameElsewhere c.bus (pushStatus l c).bus ∧
      (pushStatus l c).bus.read (stackAddress c.cpu.sp) = pushedFlags true c.cpu.p ∧
      ∀ s, s ≠ c.cpu.sp →
        (pushStatus l c).bus.read (stackAddress s) = c.bus.read (stackAddress s) := by
  have hBus : (pushStatus l c).bus =
      ((c.bus.write (stackAddress c.cpu.sp) (pushedFlags true c.cpu.p)).write l.ptr1
        c.cpu.a).write (l.ptr1 + 1) c.cpu.x := rfl
  -- one push, and the pointer of the argument
  obtain ⟨hSame, hPtr, hKept⟩ := storePointer (m := c.bus.write (stackAddress c.cpu.sp)
    (pushedFlags true c.cpu.p)) l.ptr1_lt c.cpu.a c.cpu.x
  rw [← hBus] at hSame hPtr hKept
  refine ⟨hPtr, (sameElsewhere_write (stackAddress_low _) _).trans hSame, ?_, fun s hs => ?_⟩
  · obtain ⟨hNe, hNe'⟩ := stack_ne_pointer l.ptr1_lt c.cpu.sp
    rw [hKept _ (stackAddress_low _) hNe hNe', read_write_low (stackAddress_low _)
      (stackAddress_low _), if_pos rfl]
  · obtain ⟨hNe, hNe'⟩ := stack_ne_pointer l.ptr1_lt s
    rw [hKept _ (stackAddress_low _) hNe hNe', read_write_low (stackAddress_low _)
      (stackAddress_low _), if_neg (mt stackAddress_inj.mp hs)]

/-- The zero page but for `ptr1` is as it was. -/
theorem pushStatus_zeroPage (l : Layout) (c : Processor) (addr : Word) (h : addr.toNat < 0x100)
    (hPtr : addr ≠ l.ptr1) (hPtr' : addr ≠ l.ptr1 + 1) :
    (pushStatus l c).bus.read addr = c.bus.read addr := by
  have hAddr : addr.toNat < 0x1000 := by omega
  obtain ⟨-, -, hKept⟩ := storePointer (m := c.bus.write (stackAddress c.cpu.sp)
    (pushedFlags true c.cpu.p)) l.ptr1_lt c.cpu.a c.cpu.x
  refine (hKept addr hAddr hPtr hPtr').trans ?_
  rw [read_write_low (stackAddress_low _) hAddr, if_neg (stackAddress_ne (by omega)).symm]

theorem storeOld_run (h : Calls l popax c old new) :
    Entered l c (storeOld l (popax (pushStatus l c))) old new := by
  obtain ⟨hPtr₁, hSame₁, hPushed, hStack₁⟩ := pushStatus_run l c
  have hPopped := h.popped
  have hSp : (pushStatus l c).cpu.sp = c.cpu.sp - 1 := rfl
  generalize pushStatus l c = c₁ at *
  generalize popax c₁ = c₂ at *
  have hBus : (storeOld l c₂).bus = (c₂.bus.write l.ptr2 c₂.cpu.a).write (l.ptr2 + 1) c₂.cpu.x :=
    rfl
  obtain ⟨hSame₂, hPtr₂, hKept⟩ := storePointer (m := c₂.bus) l.ptr2_lt c₂.cpu.a c₂.cpu.x
  rw [← hBus] at hSame₂ hPtr₂ hKept
  have hStack₂ : ∀ s, (storeOld l c₂).bus.read (stackAddress s) = c₂.bus.read (stackAddress s) :=
    fun s => hKept _ (stackAddress_low s) (stack_ne_pointer l.ptr2_lt s).1
      (stack_ne_pointer l.ptr2_lt s).2
  -- the return address of the call is below the status
  have hBelow : c.cpu.sp ≠ c.cpu.sp - 1 ∧ c.cpu.sp ≠ c.cpu.sp - 1 - 1 := by
    constructor <;> bv_omega
  have hBelow₂ : c.cpu.sp - 2 = c.cpu.sp - 1 - 1 := by
    rw [BitVec.sub_sub]
    rfl
  refine ⟨hPopped.sp.trans hSp, hSame₁.trans (hPopped.elsewhere.trans hSame₂), ?_, ?_, ?_, ?_⟩
  · have hKeptPtr := hPopped.ptr1.trans (hPtr₁.trans h.new_eq)
    rw [← hKeptPtr]
    have hNext₁ := Layout.next_toNat l.ptr1_lt
    have hNext₂ := Layout.next_toNat l.ptr2_lt
    have hLow := l.ptr1_lt
    have hApart : ∀ addr : Word, l.ptr1.toNat ≤ addr.toNat → addr.toNat ≤ l.ptr1.toNat + 1 →
        addr ≠ l.ptr2 ∧ addr ≠ l.ptr2 + 1 := fun addr hLo hHi => by
      have hApart := l.apart
      constructor <;> intro hEq <;> have hNat := congrArg BitVec.toNat hEq <;> omega
    have hFirst := hApart l.ptr1 (by omega) (by omega)
    have hSecond := hApart (l.ptr1 + 1) (by omega) (by omega)
    unfold KernelMemory.pointer
    rw [hKept _ (by omega) hFirst.1 hFirst.2, hKept _ (by omega) hSecond.1 hSecond.2]
  · rw [hPtr₂, hPopped.a, hPopped.x, wordOf_low_high]
  · rw [hStack₂, hPopped.stack _ (by rw [hSp]; exact hBelow.1) (by rw [hSp]; exact hBelow.2),
      hPushed]
  · intro s hNe₀ hNe₁ hNe₂
    rw [hStack₂, hPopped.stack s (by rw [hSp]; exact hNe₁)
      (by rw [hSp, ← hBelow₂]; exact hNe₂), hStack₁ s hNe₀]

end Arguments

/-! ## §6 The switch -/

section Switch

variable {l : Layout} {popax : Processor → Processor} {c : Processor} {old new : Word}

/-- What the shared code leaves. -/
structure Switched (l : Layout) (c c' : Processor) (old new : Word) : Prop where
  sp : c'.cpu.sp = c.bus.data new + 1
  p : c'.cpu.p = c.bus.frames (c.bus.data (new + 1#16)) (0x100 + (c.bus.data new + 1).toNat) &&&
    ~~~(0x20 ||| statusB)
  entry : c'.bus.entries 0 = c.bus.data (new + 1#16)
  frames : ∀ f, f ≠ c.bus.entries 0 → c'.bus.frames f = c.bus.frames f
  ksp : c'.bus.data old = c.cpu.sp - 1
  saved : c'.bus.data (old + 1#16) = c.bus.data (l.kernelPageTable + 0#16)
  pushed : c'.bus.frames (c.bus.entries 0) (0x100 + c.cpu.sp.toNat) = pushedFlags true c.cpu.p
  stack : ∀ s : Byte, s ≠ c.cpu.sp → s ≠ c.cpu.sp - 1 → s ≠ c.cpu.sp - 2 →
    c'.bus.frames (c.bus.entries 0) (0x100 + s.toNat) =
      c.bus.frames (c.bus.entries 0) (0x100 + s.toNat)

/-- A byte of the hardware stack. -/
theorem read_stack (m : KernelMemory) (s : Byte) :
    m.read (stackAddress s) = m.frames (m.entries 0) (0x100 + s.toNat) := by
  rw [read_low (stackAddress_low s), stackAddress_toNat]

/-- The fields of two `Proc`s are apart. -/
theorem Calls.field_ne (h : Calls l popax c old new) {i j : Nat} (hi : i < 4) (hj : j < 4) :
    new + BitVec.ofNat 16 i ≠ old + BitVec.ofNat 16 j := by
  intro hEq
  have hNat := congrArg BitVec.toNat hEq
  rw [h.newAt.toNat hi, h.oldAt.toNat hj] at hNat
  have hApart := h.apart
  omega

/-- The fields of one `Proc` are apart. -/
theorem ProcAt.inj {p : Word} (h : ProcAt l p) {i j : Nat} (hi : i < 4) (hj : j < 4)
    (hne : i ≠ j) : p + BitVec.ofNat 16 i ≠ p + BitVec.ofNat 16 j := by
  intro hEq
  have hNat := congrArg BitVec.toNat hEq
  rw [h.toNat hi, h.toNat hj] at hNat
  omega

/-- `saveLow` writes the fields 1 to 3 of the old `Proc` only. -/
theorem savedData_of_ne {data : Word → Byte} {addr : Word}
    (h : ∀ i < 3, addr ≠ old + BitVec.ofNat 16 (i + 1)) : savedData l old data addr = data addr := by
  unfold savedData saveEntry
  rw [Function.update_of_ne (h 2 (by decide)), Function.update_of_ne (h 1 (by decide)),
    Function.update_of_ne (h 0 (by decide))]

theorem savedData_first (hOld : ProcAt l old) (data : Word → Byte) :
    savedData l old data (old + 1#16) = data (l.kernelPageTable + 0#16) := by
  unfold savedData saveEntry
  rw [Function.update_of_ne (hOld.inj (i := 1) (j := 3) (by decide) (by decide) (by decide)),
    Function.update_of_ne (hOld.inj (i := 1) (j := 2) (by decide) (by decide) (by decide))]
  exact Function.update_self _ _ _

/-- Loading an entry keeps the fields of the `Proc`s. -/
theorem loadEntry_field {p : Word} (hProc : ProcAt l p) {i : Nat} (hi : i < 4) (n : Fin 3)
    (m : KernelMemory) :
    (loadEntry l new n m).data (p + BitVec.ofNat 16 i) = m.data (p + BitVec.ofNat 16 i) :=
  Function.update_of_ne (hProc.field_ne_entry hi (by omega)) _ _

theorem loadedLow_field {p : Word} (hProc : ProcAt l p) {i : Nat} (hi : i < 4)
    (m : KernelMemory) :
    (loadedLow l new m).data (p + BitVec.ofNat 16 i) = m.data (p + BitVec.ofNat 16 i) := by
  unfold loadedLow
  rw [loadEntry_field hProc hi, loadEntry_field hProc hi, loadEntry_field hProc hi]

theorem loadedLow_entry (hNew : ProcAt l new) (m : KernelMemory) :
    (loadedLow l new m).entries 0 = m.data (new + 1#16) := by
  unfold loadedLow
  rw [loadEntry, KernelMemory.setData_entries, KernelMemory.setEntry_entries, Function.update_self]
  exact (loadEntry_field hNew (i := 1) (by decide) 1 _).trans
    (loadEntry_field hNew (i := 1) (by decide) 2 m)

theorem switchContexts_run (h : Calls l popax c old new)
    (hFrame : c.bus.data (new + 1#16) ≠ c.bus.entries 0) :
    Switched l c (switchContexts l popax c) old new := by
  -- four pieces of code one behind the other, and the machine behind each: arguments, entries
  -- out, stacks, entries in
  have hEntered := storeOld_run h
  show Switched l c (exec kernelBus (.plp, implied) (execAll kernelBus (loadLow l)
    (execAll kernelBus (switchStacks l) (execAll kernelBus (saveLow l)
      (storeOld l (popax (pushStatus l c))))))) old new
  generalize storeOld l (popax (pushStatus l c)) = c₁ at *
  have hSave := saveLow_run h.oldAt hEntered.ptr2
  generalize execAll kernelBus (saveLow l) c₁ = c₂ at *
  -- the two contexts lie apart, so no store to the old one reaches the new one
  have hNe : new ≠ old := by
    have hField := h.field_ne (i := 0) (j := 0) (by decide) (by decide)
    rwa [BitVec.add_zero, BitVec.add_zero] at hField
  have hPtr₁ : c₂.bus.pointer l.ptr1 = new := by
    rw [hSave.bus, pointer_setData l.ptr1_lt, hEntered.ptr1]
  have hPtr₂ : c₂.bus.pointer l.ptr2 = old := by
    rw [hSave.bus, pointer_setData l.ptr2_lt, hEntered.ptr2]
  obtain ⟨hBus₃, hSp₃⟩ := switchStacks_run h.oldAt h.newAt hPtr₁ hPtr₂ hNe
  generalize execAll kernelBus (switchStacks l) c₂ = c₃ at *
  have hLoad := loadLow_run (c := c₃) h.newAt
    (by rw [hBus₃, pointer_setData l.ptr1_lt, hPtr₁])
  generalize execAll kernelBus (loadLow l) c₃ = c₄ at *
  have hSame := hEntered.elsewhere
  have hData₂ : c₂.bus.data = savedData l old c.bus.data := by
    rw [hSave.bus, KernelMemory.setData_data, hSame.data]
  have hData₃ : c₃.bus.data = Function.update c₂.bus.data old c₂.cpu.sp := by
    rw [hBus₃, KernelMemory.setData_data]
  have hFrames : c₄.bus.frames = c₁.bus.frames := by
    rw [hLoad.bus]
    show c₃.bus.frames = _
    rw [hBus₃, KernelMemory.setData_frames, hSave.bus, KernelMemory.setData_frames]
  have hNew : ∀ {i : Nat}, i < 4 →
      c₂.bus.data (new + BitVec.ofNat 16 i) = c.bus.data (new + BitVec.ofNat 16 i) := fun hi => by
    rw [hData₂]
    exact savedData_of_ne fun j hj => h.field_ne hi (by omega)
  have hEntry : c₄.bus.entries 0 = c.bus.data (new + 1#16) := by
    have hApart := h.field_ne (i := 1) (j := 0) (by decide) (by decide)
    rw [BitVec.add_zero] at hApart
    rw [hLoad.bus, loadedLow_entry h.newAt, hData₃, Function.update_of_ne hApart,
      hNew (by decide)]
  have hSp : c₄.cpu.sp = c.bus.data new := by
    have hField := hNew (i := 0) (by decide)
    rw [BitVec.add_zero] at hField
    rw [hLoad.sp, hSp₃, hField]
  -- the stack page is now that of the new frame, which nothing has written to
  have hRead : ∀ s : Byte, c₁.bus.read (stackAddress s) =
      c₄.bus.frames (c.bus.entries 0) (0x100 + s.toNat) := fun s => by
    rw [read_stack, hSame.entries, hFrames]
  refine
    { sp := congrArg (· + 1) hSp
      p := ?_
      entry := hEntry
      frames := fun f hf => (congrFun hFrames f).trans (hSame.frames f hf)
      ksp := ?_
      saved := ?_
      pushed := ?_
      stack := ?_ }
  -- `plp` pulls what lies above the stack pointer there
  · show c₄.bus.read (stackAddress (c₄.cpu.sp + 1)) &&& _ = _
    rw [read_stack, hEntry, hSp, hFrames, hSame.frames _ hFrame]
  · show c₄.bus.data old = _
    have hField : (loadedLow l new c₃.bus).data (old + 0#16) = c₃.bus.data (old + 0#16) :=
      loadedLow_field h.oldAt (by decide) c₃.bus
    rw [BitVec.add_zero] at hField
    rw [hLoad.bus, hField, hData₃, Function.update_self, hSave.sp, hEntered.sp]
  · show c₄.bus.data (old + 1#16) = _
    have hApart := h.oldAt.inj (i := 1) (j := 0) (by decide) (by decide) (by decide)
    rw [BitVec.add_zero] at hApart
    rw [hLoad.bus, loadedLow_field h.oldAt (by decide), hData₃, Function.update_of_ne hApart, hData₂,
      savedData_first h.oldAt]
  · show c₄.bus.frames (c.bus.entries 0) (0x100 + c.cpu.sp.toNat) = _
    rw [← hRead, hEntered.pushed]
  · intro s hNe₀ hNe₁ hNe₂
    show c₄.bus.frames (c.bus.entries 0) (0x100 + s.toNat) = _
    rw [← hRead, hEntered.stack s hNe₀ hNe₁ hNe₂, read_stack]

end Switch

/-! ## §7 The first dispatch -/

section FirstDispatch

variable {l : Layout} {popax : Processor → Processor} {c c₂ : Processor} {old new other : Word}

/-- The scheduler dispatches a process that `sys_fork` has made. -/
structure Dispatches (l : Layout) (popax : Processor → Processor) (c : Processor)
    (old new : Word) : Prop where
  calls : Calls l popax c old new
  ksp : c.bus.data new = 0xFF
  mapped : c.bus.data (l.kernelPageTable + 0#16) = c.bus.entries 0
  frame : c.bus.data (new + 1#16) ≠ c.bus.entries 0

/-- The byte behind the stack of a forked process, at `0x0100` of its frame. -/
def bottom (c : Processor) (new : Word) : Byte := c.bus.frames (c.bus.data (new + 1#16)) 0x100

/-- The address to which the called routine returns. -/
def returnsTo (m : KernelMemory) (sp : Byte) : Word :=
  wordOf (m.read (stackAddress (sp + 1))) (m.read (stackAddress (sp + 2))) + 1

/-- The old process finds its `Proc` and the top of its stack as they were left. -/
structure Kept (left : KernelMemory) (c : Processor) (old : Word) (sp : Byte) : Prop where
  ksp : c.bus.data old = left.data old
  frame : c.bus.data (old + 1#16) = left.data (old + 1#16)
  stack : ∀ s : Byte, s = sp ∨ s = sp + 1 ∨ s = sp + 2 →
    c.bus.frames (left.data (old + 1#16)) (0x100 + s.toNat) =
      left.frames (left.data (old + 1#16)) (0x100 + s.toNat)

/-- A later switch back to the old process leaves the routine that it has called, with the status
    and the stack it had. -/
def ReturnsLater (l : Layout) (popax : Processor → Processor) (c : Processor) (old : Word)
    (left : KernelMemory) : Prop :=
  ∀ (c₂ : Processor) (other : Word), Calls l popax c₂ other old →
    c₂.bus.data (old + 1#16) ≠ c₂.bus.entries 0 → Kept left c₂ old c.cpu.sp →
    (contextSwitch l popax c₂).cpu.p = c.cpu.p &&& ~~~(0x20 ||| statusB) ∧
    (contextSwitch l popax c₂).cpu.sp = c.cpu.sp + 2 ∧
    (contextSwitch l popax c₂).cpu.pc = returnsTo c.bus c.cpu.sp

/-- The bits that are no flags are dropped when the status is pulled. -/
theorem pulled_pushed (p : Byte) :
    pushedFlags true p &&& ~~~(0x20 ||| statusB) = p &&& ~~~(0x20 ||| statusB) := by
  unfold pushedFlags statusB
  rw [if_pos rfl]
  ext i hi
  simp only [BitVec.getElem_and, BitVec.getElem_or, BitVec.getElem_not]
  generalize p[i] = b
  generalize (0x20#8)[i] = b₁
  generalize (0x10#8)[i] = b₂
  cases b <;> cases b₁ <;> cases b₂ <;> rfl

/-- What `_context_switch` does to a process that has been switched away from. -/
theorem contextSwitch_returns (h : Dispatches l popax c old new) :
    ReturnsLater l popax c old (switchContexts l popax c).bus := by
  intro c₂ other hBack hFrame₂ hKept
  have hLeft := switchContexts_run h.calls h.frame
  have hSwitch := switchContexts_run hBack hFrame₂
  have hSaved : (switchContexts l popax c).bus.data (old + 1#16) = c.bus.entries 0 :=
    hLeft.saved.trans h.mapped
  have hKsp : c₂.bus.data old + 1 = c.cpu.sp := by
    rw [hKept.ksp, hLeft.ksp, BitVec.sub_add_cancel]
  have hFrame : c₂.bus.data (old + 1#16) = c.bus.entries 0 := hKept.frame.trans hSaved
  have hStack := hKept.stack
  rw [hSaved] at hStack
  -- what the old process finds on its stack
  have hRead : ∀ s : Byte, s = c.cpu.sp ∨ s = c.cpu.sp + 1 ∨ s = c.cpu.sp + 2 →
      (switchContexts l popax c₂).bus.read (stackAddress s) =
        (switchContexts l popax c).bus.frames (c.bus.entries 0) (0x100 + s.toNat) := by
    intro s hs
    rw [read_stack, hSwitch.entry, hSwitch.frames _ hFrame₂, hFrame, hStack s hs]
  have hAbove : ∀ s : Byte, s = c.cpu.sp + 1 ∨ s = c.cpu.sp + 2 →
      (switchContexts l popax c₂).bus.read (stackAddress s) = c.bus.read (stackAddress s) := by
    intro s hs
    rw [hRead s (Or.inr hs), read_stack]
    apply hLeft.stack <;> rcases hs with rfl | rfl <;> bv_omega
  have hSp : (switchContexts l popax c₂).cpu.sp = c.cpu.sp := hSwitch.sp.trans hKsp
  refine ⟨?_, ?_, ?_⟩
  · show (switchContexts l popax c₂).cpu.p = _
    rw [hSwitch.p, hFrame, hKsp, hStack _ (Or.inl rfl), hLeft.pushed, pulled_pushed]
  · show (switchContexts l popax c₂).cpu.sp + 1 + 1 = _
    rw [hSp, BitVec.add_assoc]
    rfl
  · show wordOf ((switchContexts l popax c₂).bus.read
        (stackAddress ((switchContexts l popax c₂).cpu.sp + 1)))
      ((switchContexts l popax c₂).bus.read
        (stackAddress ((switchContexts l popax c₂).cpu.sp + 1 + 1))) + 1 = _
    have hNext : c.cpu.sp + 1 + 1 = c.cpu.sp + 2 := BitVec.add_assoc _ _ _
    rw [hSp, hNext, hAbove _ (Or.inl rfl), hAbove _ (Or.inr rfl)]
    rfl

/-- A flag of the status that is pulled for a forked process. -/
theorem firstDispatch_flag (h : Dispatches l popax c old new) (flag : Byte)
    (hFlag : ~~~(0x20 ||| statusB) &&& flag = flag) :
    (firstContextSwitch l popax c).cpu.isSet flag = (bottom c new &&& flag != 0) := by
  have hSwitch := switchContexts_run h.calls h.frame
  have hP : (firstContextSwitch l popax c).cpu.p = bottom c new &&& ~~~(0x20 ||| statusB) := by
    rw [firstContextSwitch, hSwitch.p, h.ksp]
    rfl
  rw [Cpu.isSet, hP, BitVec.and_assoc, hFlag]

/-- **The first dispatch**: the forked process comes to `_kernel_epilogue` with the interrupts
    masked and the decimal mode off if and only if the byte at `0x0100` of its frame says so; the
    old process is left such that it can return. The child's context has 0xFF as its stack
    pointer, so `plp` pulls from the byte at which the stack page begins. -/
theorem firstDispatch_iff (h : Dispatches l popax c old new) :
    ((firstContextSwitch l popax c).cpu.isSet statusI = true ∧
      (firstContextSwitch l popax c).cpu.isSet statusD = false ∧
      ReturnsLater l popax c old (firstContextSwitch l popax c).bus) ↔
    (bottom c new &&& statusI ≠ 0 ∧ bottom c new &&& statusD = 0) := by
  rw [firstDispatch_flag h statusI rfl, firstDispatch_flag h statusD rfl,
    bne_iff_ne, bne_eq_false_iff_eq]
  constructor
  · rintro ⟨hMasked, hBinary, -⟩
    exact ⟨hMasked, hBinary⟩
  · rintro ⟨hMasked, hBinary⟩
    exact ⟨hMasked, hBinary, contextSwitch_returns h⟩

end FirstDispatch

/-! ## §8 A processor in the scheduler -/

/-- `popax` of the compiler's library, with its call: the word on the software stack of `csp` is
    taken away. -/
def libraryPopax (csp ret : Word) (c : Processor) : Processor where
  cpu := { c.cpu with
    a := c.bus.read (c.bus.pointer csp)
    x := c.bus.read (c.bus.pointer csp + 1)
    y := 0 }
  bus := (((c.bus.write (stackAddress c.cpu.sp) (highByte ret)).write
    (stackAddress (c.cpu.sp - 1)) (lowByte ret)).write csp
      (lowByte (c.bus.pointer csp + 2))).write (csp + 1) (highByte (c.bus.pointer csp + 2))

theorem libraryPopax_popped {l : Layout} {csp : Word} (hCsp : csp.toNat + 1 < 0x100)
    (hApart : csp.toNat + 1 < l.ptr1.toNat ∨ l.ptr1.toNat + 1 < csp.toNat) {old : Word}
    {c : Processor} (hLow : c.bus.read (c.bus.pointer csp) = lowByte old)
    (hHigh : c.bus.read (c.bus.pointer csp + 1) = highByte old) (ret : Word) :
    Popped l old c (libraryPopax csp ret c) := by
  have hNext := Layout.next_toNat hCsp
  have hNext₁ := Layout.next_toNat l.ptr1_lt
  have hLt := l.ptr1_lt
  generalize hPushed : (c.bus.write (stackAddress c.cpu.sp) (highByte ret)).write
    (stackAddress (c.cpu.sp - 1)) (lowByte ret) = m
  obtain ⟨hSame, -, hKept⟩ := storePointer (m := m) hCsp (lowByte (c.bus.pointer csp + 2))
    (highByte (c.bus.pointer csp + 2))
  have hBus : (libraryPopax csp ret c).bus = (m.write csp (lowByte (c.bus.pointer csp + 2))).write
      (csp + 1) (highByte (c.bus.pointer csp + 2)) := by
    rw [← hPushed]
    rfl
  rw [← hBus] at hSame hKept
  -- the return address changes two bytes of the stack
  have hRead : ∀ addr : Word, addr.toNat < 0x1000 → addr ≠ stackAddress c.cpu.sp →
      addr ≠ stackAddress (c.cpu.sp - 1) → m.read addr = c.bus.read addr := by
    intro addr hAddr hNe hNe'
    rw [← hPushed, read_write_low (stackAddress_low _) hAddr, if_neg hNe',
      read_write_low (stackAddress_low _) hAddr, if_neg hNe]
  have hZero : ∀ addr : Word, l.ptr1.toNat ≤ addr.toNat → addr.toNat ≤ l.ptr1.toNat + 1 →
      (libraryPopax csp ret c).bus.read addr = c.bus.read addr := by
    intro addr hLo hHi
    have hBelow : addr.toNat < 0x100 := by omega
    have hNe : addr ≠ csp ∧ addr ≠ csp + 1 := by
      constructor <;> intro hEq <;> have hNat := congrArg BitVec.toNat hEq <;> omega
    rw [hKept _ (by omega) hNe.1 hNe.2, hRead _ (by omega) (stackAddress_ne hBelow).symm
      (stackAddress_ne hBelow).symm]
  refine
    { a := hLow
      x := hHigh
      sp := rfl
      elsewhere := ?_
      ptr1 := ?_
      stack := ?_ }
  · rw [← hPushed] at hSame
    exact ((sameElsewhere_write (stackAddress_low _) _).trans
      (sameElsewhere_write (stackAddress_low _) _)).trans hSame
  · unfold KernelMemory.pointer
    rw [hZero _ (by omega) (by omega), hZero _ (by omega) (by omega)]
  · intro s hNe hNe'
    obtain ⟨hNe₁, hNe₂⟩ := stack_ne_pointer hCsp s
    rw [hKept _ (stackAddress_low _) hNe₁ hNe₂, hRead _ (stackAddress_low _)
      (mt stackAddress_inj.mp hNe) (mt stackAddress_inj.mp hNe')]

/-- A layout with the software stack pointer at `0x00`. -/
def smallLayout : Layout where
  ptr1 := 0x0C
  ptr2 := 0x0E
  kernelPageTable := 0x4000
  ptr1_lt := by decide
  ptr2_lt := by decide
  apart := by decide
  inData := by decide

/-- The data with the `Proc`s at `0x5000` and `0x5010`, and the first of them on the software
    stack. -/
def twoProcs : Word → Byte := fun addr =>
  if addr = 0x4000 then 0x10 else if addr = 0x4001 then 1 else if addr = 0x4002 then 2
  else if addr = 0x5010 then 0xFF else if addr = 0x5011 then 0x20
  else if addr = 0x5012 then 1 else if addr = 0x5013 then 2
  else if addr = 0x6001 then 0x50 else 0

/-- The scheduler dispatches the second process, with a byte behind the stack. -/
def dispatching (byte : Byte) : Processor where
  cpu := ⟨0x10, 0x50, 0, 0xF0, 0, 0x04, 0, 0, false, false⟩
  bus :=
    { entries := fun i => if i = 0 then 0x10 else BitVec.ofNat 8 i
      frames := fun frame offset =>
        if frame = 0x20 ∧ offset = 0x100 then byte
        else if frame = 0x10 ∧ offset = 1 then 0x60 else 0
      data := twoProcs }

/-- The software stack pointer lies in another frame than the byte. -/
theorem dispatching_pointer (byte : Byte) :
    (pushStatus smallLayout (dispatching byte)).bus.pointer 0 = 0x6000 := by
  have hRead : ∀ addr : Word, addr.toNat < 0x100 →
      (dispatching byte).bus.read addr = if addr.toNat = 1 then 0x60 else 0 := by
    intro addr hAddr
    rw [read_low (by omega)]
    show (if (0x10 : Byte) = 0x20 ∧ addr.toNat = 0x100 then byte
      else if (0x10 : Byte) = 0x10 ∧ addr.toNat = 1 then 0x60 else 0) = _
    rw [if_neg (by omega)]
    exact if_congr (and_iff_right rfl) rfl rfl
  have hLow := pushStatus_zeroPage smallLayout (dispatching byte) (0 : Word)
    (by decide) (by decide) (by decide)
  have hHigh := pushStatus_zeroPage smallLayout (dispatching byte) (1 : Word)
    (by decide) (by decide) (by decide)
  show wordOf ((pushStatus smallLayout (dispatching byte)).bus.read 0)
    ((pushStatus smallLayout (dispatching byte)).bus.read 1) = 0x6000
  rw [hLow, hHigh, hRead 0 (by decide), hRead 1 (by decide)]
  decide

theorem dispatches (byte : Byte) :
    Dispatches smallLayout (libraryPopax 0 0x7000) (dispatching byte) 0x5000 0x5010 where
  calls :=
    { new_eq := by
        show wordOf 0x10 0x50 = 0x5010
        decide
      popped := libraryPopax_popped (by decide) (by decide)
        (by rw [dispatching_pointer]; rfl) (by rw [dispatching_pointer]; rfl) _
      oldAt := ⟨by decide, by decide⟩
      newAt := ⟨by decide, by decide⟩
      apart := by decide }
  ksp := by rfl
  mapped := by rfl
  frame := by
    show (0x20 : Byte) ≠ 0x10
    decide

/-- A forked process with a zero byte there starts with the interrupts on. -/
theorem firstDispatch_unmasks :
    ¬ ∀ (l : Layout) (popax : Processor → Processor) (c : Processor) (old new : Word),
      Dispatches l popax c old new → c.cpu.isSet statusI = true → c.cpu.isSet statusD = false →
        (firstContextSwitch l popax c).cpu.isSet statusI = true ∧
        (firstContextSwitch l popax c).cpu.isSet statusD = false ∧
        ReturnsLater l popax c old (firstContextSwitch l popax c).bus := by
  intro hAll
  have hSample := dispatches 0
  obtain ⟨hMasked, -⟩ := hAll _ _ _ _ _ hSample (by decide) (by decide)
  rw [firstDispatch_flag hSample statusI rfl] at hMasked
  exact absurd hMasked (by decide)

/-- With the byte `0x04` it starts with them masked. -/
theorem dispatching_masked :
    (firstContextSwitch smallLayout (libraryPopax 0 0x7000) (dispatching 4)).cpu.isSet statusI =
      true :=
  ((firstDispatch_iff (dispatches 4)).mpr ⟨by decide, by decide⟩).1

end Xv6502.Kernel.Dispatch
