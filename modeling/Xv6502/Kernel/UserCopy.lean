import Xv6502.Kernel.Window
import Xv6502.Kernel.Frames

/-!
# Copies between the Kernel and User Memory

`copy_to_user` and `copy_from_user` (`kernel/proc.c`) cut a range of user addresses at the
borders of the segments and copy it piece by piece through window 1. Only the first address is
checked against the top, and the address is a `uint16_t`: behind `0xFFFF` the copy goes on at
address 0.

`copy_exact_iff` says that this wrap is the only thing that goes wrong: a range that stays below
`0x10000`, or that meets an unmapped segment before it can wrap, is copied exactly or up to the
first unmapped segment. The calls run without an interrupt between two stores of a window
operation.
-/

namespace Xv6502.Kernel.UserCopy

open Xv6502.Emulator WindowState

/-! ## §1 Windows and memory -/

/-- The windows of the running process and the memory, by frame and offset. -/
structure CopyState where
  windows : WindowState
  mem : Frame → Nat → Byte

/-- No interrupt comes in. -/
def quiet : StorePoint → WindowState → WindowState := fun _ => id

namespace CopyState

/-- `mmu_map_window`. -/
def mapWindow (s : CopyState) (w : Window) (frame : Frame) : Frame × CopyState :=
  let (oldFrame, windows) := mmuMapWindow quiet w frame s.windows
  (oldFrame, { s with windows := windows })

/-- `mmu_unmap_window`. -/
def unmapWindow (s : CopyState) (w : Window) (oldFrame : Frame) : CopyState :=
  { s with windows := mmuUnmapWindow quiet w oldFrame s.windows }

/-- The bytes that the processor sees in a window. -/
def window (s : CopyState) (w : Window) : Nat → Byte := s.mem (s.windows.mmuPageTable w)

/-- Bytes stored through a window. -/
def storeWindow (s : CopyState) (w : Window) (offset n : Nat) (src : Nat → Byte) : CopyState :=
  { s with
    mem := Function.update s.mem (s.windows.mmuPageTable w) fun i =>
      if offset ≤ i ∧ i < offset + n then src (i - offset) else s.window w i }

/-- A read of the PCB in a frame, between `MAP_PCB` and `UNMAP_PCB`. -/
def readPcb {α : Type} (s : CopyState) (kernelFrame : Frame) (read : (Nat → Byte) → α) :
    α × CopyState :=
  let (oldFrame, s) := s.mapWindow .window2 kernelFrame
  let value := read fun i => s.window .window2 (pcbOffset + i)
  (value, s.unmapWindow .window2 oldFrame)

/-- `offsetof(PCB, top)`. -/
def topOffset : Nat := 24

/-- `proc_get_top`. -/
def procGetTop (s : CopyState) (kernelFrame : Frame) : Word × CopyState :=
  s.readPcb kernelFrame fun pcb => pcb (topOffset + 1) ++ pcb topOffset

/-- `proc_get_page_table`. -/
def procGetPageTable (s : CopyState) (kernelFrame : Frame) : (Nat → Frame) × CopyState :=
  s.readPcb kernelFrame fun pcb => pcb

/-! ## §2 The two copies -/

/-- The loop of `copy_to_user`, with `n` bytes to go. -/
def copyToLoop (table : Nat → Frame) (src : Nat → Byte) (userDest : Word) (n : Nat)
    (s : CopyState) : Int × CopyState :=
  if n = 0 then (0, s)
  else
    let segment := userDest.toNat / 0x1000
    let offset := userDest.toNat % 0x1000
    let physicalFrame := table segment
    -- the chunks before this one stay stored
    if physicalFrame = frameUnused then (-1, s)
    else
      let (oldFrame, s) := s.mapWindow .window1 physicalFrame
      -- to the end of the page at most
      let chunk := min n (0x1000 - offset)
      let s := (s.storeWindow .window1 offset chunk src).unmapWindow .window1 oldFrame
      copyToLoop table (fun i => src (chunk + i)) (userDest + BitVec.ofNat 16 chunk) (n - chunk) s
termination_by n
decreasing_by
  have hOffset : userDest.toNat % 0x1000 < 0x1000 := Nat.mod_lt _ (by decide)
  omega

/-- `copy_to_user`. -/
def copyToUser (src : Nat → Byte) (userDest n : Word) (kernelFrame : Frame) (s : CopyState) :
    Int × CopyState :=
  let (top, s) := s.procGetTop kernelFrame
  if top ≤ userDest then (-1, s)
  else
    let (table, s) := s.procGetPageTable kernelFrame
    copyToLoop table src userDest n.toNat s

/-- The loop of `copy_from_user`, with the bytes it has stored at `kernel_dest`. -/
def copyFromLoop (table : Nat → Frame) (userSrc : Word) (n : Nat) (s : CopyState)
    (dest : List Byte) : Int × List Byte × CopyState :=
  if n = 0 then (0, dest, s)
  else
    let segment := userSrc.toNat / 0x1000
    let offset := userSrc.toNat % 0x1000
    let physicalFrame := table segment
    if physicalFrame = frameUnused then (-1, dest, s)
    else
      let (oldFrame, s) := s.mapWindow .window1 physicalFrame
      -- to the end of the page at most
      let chunk := min n (0x1000 - offset)
      let dest := dest ++ (List.range chunk).map fun i => s.window .window1 (offset + i)
      copyFromLoop table (userSrc + BitVec.ofNat 16 chunk) (n - chunk)
        (s.unmapWindow .window1 oldFrame) dest
termination_by n
decreasing_by
  have hOffset : userSrc.toNat % 0x1000 < 0x1000 := Nat.mod_lt _ (by decide)
  omega

/-- `copy_from_user`, with the bytes it stores at `kernel_dest`. -/
def copyFromUser (userSrc n : Word) (kernelFrame : Frame) (s : CopyState) :
    Int × List Byte × CopyState :=
  let (top, s) := s.procGetTop kernelFrame
  if top ≤ userSrc then (-1, [], s)
  else
    let (table, s) := s.procGetPageTable kernelFrame
    copyFromLoop table userSrc n.toNat s []

/-! ## §3 What the copies promise -/

/-- The page table of the process whose kernel stack is in a frame. -/
def table (s : CopyState) (kernelFrame : Frame) : Nat → Frame := (s.procGetPageTable kernelFrame).1

/-- The top of the process. -/
def top (s : CopyState) (kernelFrame : Frame) : Word := (s.procGetTop kernelFrame).1

/-- The physical byte of a user address. -/
def place (table : Nat → Frame) (a : Nat) : Frame × Nat := (table (a / 0x1000), a % 0x1000)

/-- The user address is one of the address space, and its segment is mapped. -/
def Mapped (table : Nat → Frame) (a : Nat) : Prop := a ≤ 0xFFFF ∧ table (a / 0x1000) ≠ frameUnused

/-- No byte has changed but those of the first `m` addresses from `u` on. -/
def OnlyChanged (table : Nat → Frame) (u m : Nat) (s s' : CopyState) : Prop :=
  ∀ frame offset, (∀ i, i < m → place table (u + i) ≠ (frame, offset)) →
    s'.mem frame offset = s.mem frame offset

/-- A copy to user memory has been made. -/
structure Copied (src : Nat → Byte) (u n : Word) (kernelFrame : Frame) (s s' : CopyState) :
    Prop where
  below : u < s.top kernelFrame
  mapped : ∀ i, i < n.toNat → Mapped (s.table kernelFrame) (u.toNat + i)
  stored : ∀ i, i < n.toNat →
    s'.mem (place (s.table kernelFrame) (u.toNat + i)).1
      (place (s.table kernelFrame) (u.toNat + i)).2 = src i
  others : OnlyChanged (s.table kernelFrame) u.toNat n.toNat s s'
  back : copyFromUser u n kernelFrame s' = (0, (List.range n.toNat).map src, s')

/-- A copy has stopped at an address that is not mapped, or has not been started. -/
def Stopped (u n : Word) (kernelFrame : Frame) (s s' : CopyState) : Prop :=
  ∃ m, m ≤ n.toNat ∧ (∀ i, i < m → Mapped (s.table kernelFrame) (u.toNat + i)) ∧
    OnlyChanged (s.table kernelFrame) u.toNat m s s'

/-- `copy_to_user` touches exactly the range it is given, whatever the bytes are. -/
def Exact (u n : Word) (kernelFrame : Frame) (s : CopyState) : Prop :=
  ∀ src, let (result, s') := copyToUser src u n kernelFrame s
    s'.windows = s.windows ∧
      (result = 0 ∧ Copied src u n kernelFrame s s' ∨
        result = -1 ∧ Stopped u n kernelFrame s s')

/-- The copy comes behind `0xFFFF`: the range is too long, its segments are all mapped, and so is
    segment 0. -/
def Wraps (u n : Word) (kernelFrame : Frame) (s : CopyState) : Prop :=
  u < s.top kernelFrame ∧ 0x10000 < u.toNat + n.toNat ∧
    s.table kernelFrame 0 ≠ frameUnused ∧
    ∀ segment, u.toNat / 0x1000 ≤ segment → segment < pageTableSize →
      s.table kernelFrame segment ≠ frameUnused

/-- What the calls rely on: the copies of the window entries agree, and the mapped segments have
    frames of their own, other than the kernel stack of the process. -/
structure WellFormed (kernelFrame : Frame) (s : CopyState) : Prop where
  coherent : ∀ w, s.windows.Coherent w (s.windows.kernelPageTable w)
  distinct : ∀ i j, i < pageTableSize → j < pageTableSize →
    s.table kernelFrame i ≠ frameUnused → s.table kernelFrame i = s.table kernelFrame j → i = j
  stack : ∀ i, i < pageTableSize → s.table kernelFrame i ≠ frameUnused →
    s.table kernelFrame i ≠ kernelFrame

/-! ## §4 Windows come back -/

section Windows

variable {s : CopyState} {kernelFrame : Frame}

/-- A window that is mapped and unmapped is as it was, if the copies of its entry agreed. -/
theorem unmap_map {windows : WindowState} {w : Window} (frame : Frame)
    (h : windows.Coherent w (windows.kernelPageTable w)) :
    mmuUnmapWindow quiet w (windows.kernelPageTable w) (mmuMapWindow quiet w frame windows).2 =
      windows := by
  obtain ⟨hardware, shadow, tracking⟩ := windows
  obtain ⟨hHardware, -, hTracking⟩ := h
  have hEntry : Function.update hardware w (shadow w) = hardware := by
    rw [Function.update_eq_self_iff]
    exact hHardware.symm
  have hTrack : (tracking.map fun k => Function.update k w (shadow w)) = tracking := by
    cases tracking with
    | none => rfl
    | some k =>
      have hSame : Function.update k w (shadow w) = k := by
        rw [Function.update_eq_self_iff]
        exact (hTracking k rfl).symm
      rw [Option.map_some, hSame]
  simp [mmuUnmapWindow, mmuMapWindow, quiet, storeMmu, storeShadow, storeTracking, hEntry,
    Function.comp_def, hTrack]

theorem unmapWindow_mapWindow {w : Window} (frame : Frame)
    (h : s.windows.Coherent w (s.windows.kernelPageTable w)) :
    (s.mapWindow w frame).2.unmapWindow w (s.mapWindow w frame).1 = s :=
  congrArg (fun windows => { s with windows := windows }) (unmap_map frame h)

theorem mapWindow_entry (w : Window) (frame : Frame) :
    (s.mapWindow w frame).2.windows.mmuPageTable w = frame := by
  simp [mapWindow, mmuMapWindow, quiet, storeMmu, storeShadow, storeTracking]

theorem readPcb_eq {α : Type} (read : (Nat → Byte) → α)
    (h : s.windows.Coherent .window2 (s.windows.kernelPageTable .window2)) :
    s.readPcb kernelFrame read = (read fun i => s.mem kernelFrame (pcbOffset + i), s) := by
  show (read fun i => (s.mapWindow .window2 kernelFrame).2.window .window2 (pcbOffset + i),
    (s.mapWindow .window2 kernelFrame).2.unmapWindow .window2
      (s.mapWindow .window2 kernelFrame).1) = _
  unfold window
  rw [mapWindow_entry, unmapWindow_mapWindow kernelFrame h]
  rfl

/-- The bytes of a chunk in the frame of their segment. -/
def storeChunk (s : CopyState) (table : Nat → Frame) (src : Nat → Byte) (u : Word)
    (chunk : Nat) : CopyState :=
  { s with
    mem := Function.update s.mem (table (u.toNat / 0x1000)) fun i =>
      if u.toNat % 0x1000 ≤ i ∧ i < u.toNat % 0x1000 + chunk then src (i - u.toNat % 0x1000)
      else s.mem (table (u.toNat / 0x1000)) i }

/-- A turn of the loop of `copy_to_user`. -/
theorem copyToLoop_turn {table : Nat → Frame} {src : Nat → Byte} {u : Word} {n : Nat}
    (h : s.windows.Coherent .window1 (s.windows.kernelPageTable .window1)) (hn : n ≠ 0)
    (hMapped : table (u.toNat / 0x1000) ≠ frameUnused) :
    copyToLoop table src u n s =
      copyToLoop table (fun i => src (min n (0x1000 - u.toNat % 0x1000) + i))
        (u + BitVec.ofNat 16 (min n (0x1000 - u.toNat % 0x1000)))
        (n - min n (0x1000 - u.toNat % 0x1000))
        (s.storeChunk table src u (min n (0x1000 - u.toNat % 0x1000))) := by
  rw [copyToLoop, if_neg hn]
  dsimp only
  rw [if_neg hMapped]
  congr 1
  unfold storeWindow unmapWindow window storeChunk
  dsimp only
  rw [mapWindow_entry]
  congr 1
  exact unmap_map _ h

/-- A turn of the loop of `copy_from_user`. -/
theorem copyFromLoop_turn {table : Nat → Frame} {u : Word} {n : Nat} {dest : List Byte}
    (h : s.windows.Coherent .window1 (s.windows.kernelPageTable .window1)) (hn : n ≠ 0)
    (hMapped : table (u.toNat / 0x1000) ≠ frameUnused) :
    copyFromLoop table u n s dest =
      copyFromLoop table (u + BitVec.ofNat 16 (min n (0x1000 - u.toNat % 0x1000)))
        (n - min n (0x1000 - u.toNat % 0x1000)) s
        (dest ++ (List.range (min n (0x1000 - u.toNat % 0x1000))).map fun i =>
          s.mem (table (u.toNat / 0x1000)) (u.toNat % 0x1000 + i)) := by
  conv_lhs => rw [copyFromLoop, if_neg hn]
  dsimp only
  rw [if_neg hMapped, unmapWindow_mapWindow _ h]
  unfold window
  rw [mapWindow_entry]
  rfl

end Windows

/-! ## §5 The loops -/

section Loops

variable {s : CopyState} {table : Nat → Frame}

/-- The `i`-th address from `u` on, as the `uint16_t` counts. -/
def address (u : Word) (i : Nat) : Nat := (u.toNat + i) % 0x10000

/-- The frames of the mapped segments are pairwise distinct. -/
def Distinct (table : Nat → Frame) : Prop :=
  ∀ i j, i < pageTableSize → j < pageTableSize → table i ≠ frameUnused → table i = table j → i = j

/-- Two addresses with the same physical byte are the same. -/
theorem place_inj (h : Distinct table) {a b : Nat} (ha : a < 0x10000) (hb : b < 0x10000)
    (hMapped : table (a / 0x1000) ≠ frameUnused) (hPlace : place table a = place table b) :
    a = b := by
  obtain ⟨hFrame, hOffset⟩ := Prod.mk.inj hPlace
  have hSegment := h (a / 0x1000) (b / 0x1000) (by unfold pageTableSize; omega)
    (by unfold pageTableSize; omega) hMapped hFrame
  omega

theorem address_lt (u : Word) (i : Nat) : address u i < 0x10000 := Nat.mod_lt _ (by decide)

/-- The addresses behind a chunk. -/
theorem address_add (u : Word) (chunk i : Nat) :
    address (u + BitVec.ofNat 16 chunk) i = address u (chunk + i) := by
  unfold address
  rw [BitVec.toNat_add, BitVec.toNat_ofNat]
  omega

/-- The addresses of a chunk are in one segment. -/
theorem place_chunk (u : Word) {i : Nat} (hi : u.toNat % 0x1000 + i < 0x1000) :
    address u i / 0x1000 = u.toNat / 0x1000 ∧
      place table (address u i) = (table (u.toNat / 0x1000), u.toNat % 0x1000 + i) := by
  have hu := u.isLt
  have hAddress : address u i = u.toNat + i := by
    unfold address
    omega
  have hSegment : (u.toNat + i) / 0x1000 = u.toNat / 0x1000 := by omega
  have hOffset : (u.toNat + i) % 0x1000 = u.toNat % 0x1000 + i := by omega
  unfold place
  rw [hAddress, hSegment, hOffset]
  exact ⟨rfl, rfl⟩

/-- What the loop of `copy_to_user` has done behind `m` of `n` bytes. -/
structure Stored (table : Nat → Frame) (src : Nat → Byte) (u : Word) (n m : Nat) (result : Int)
    (s s' : CopyState) : Prop where
  bound : m ≤ n
  result : result = if m = n then 0 else -1
  stop : m < n → table (address u m / 0x1000) = frameUnused
  mapped : ∀ i, i < m → table (address u i / 0x1000) ≠ frameUnused
  stored : ∀ i, i < m →
    s'.mem (place table (address u i)).1 (place table (address u i)).2 = src i
  others : ∀ frame offset, (∀ i, i < m → place table (address u i) ≠ (frame, offset)) →
    s'.mem frame offset = s.mem frame offset
  windows : s'.windows = s.windows

/-- A chunk, and the rest of the loop behind it. -/
theorem Stored.cons {src : Nat → Byte} {u : Word} {n chunk m : Nat} {result : Int}
    {s' : CopyState} (hDistinct : Distinct table) (hn : n ≤ 0x10000) (hChunk : chunk ≤ n)
    (hOffset : u.toNat % 0x1000 + chunk ≤ 0x1000)
    (hMapped : table (u.toNat / 0x1000) ≠ frameUnused)
    (h : Stored table (fun i => src (chunk + i)) (u + BitVec.ofNat 16 chunk) (n - chunk) m result
      (s.storeChunk table src u chunk) s') :
    Stored table src u n (chunk + m) result s s' := by
  obtain ⟨hBound, hResult, hStop, hRest, hStored, hOthers, hWindows⟩ := h
  simp only [address_add] at hStop hRest hStored hOthers
  -- a byte of this chunk, or one of the rest
  have hAll : ∀ i, i < chunk + m → table (address u i / 0x1000) ≠ frameUnused := by
    intro i hi
    rcases Nat.lt_or_ge i chunk with hFirst | hLater
    · rw [(@place_chunk table u i (by omega)).1]
      exact hMapped
    · obtain ⟨j, rfl⟩ := Nat.exists_eq_add_of_le hLater
      exact hRest j (by omega)
  refine ⟨by omega, ?_, fun hLt => hStop (by omega), hAll, ?_, ?_, hWindows⟩
  · rw [hResult]
    congr 1
    apply propext
    omega
  · intro i hi
    rcases Nat.lt_or_ge i chunk with hFirst | hLater
    · -- the rest of the loop does not come back to this byte
      obtain ⟨-, hPlace⟩ := @place_chunk table u i (by omega)
      rw [hPlace]
      rw [hOthers]
      · unfold storeChunk
        dsimp only
        rw [Function.update_self, if_pos (by omega)]
        congr 1
        omega
      · intro j hj hSame
        have hEq := place_inj hDistinct (address_lt u _) (address_lt u i)
          (hAll (chunk + j) (by omega)) (hSame.trans hPlace.symm)
        unfold address at hEq
        omega
    · obtain ⟨j, rfl⟩ := Nat.exists_eq_add_of_le hLater
      exact hStored j (by omega)
  · intro frame offset hNot
    rw [hOthers frame offset fun j hj => hNot (chunk + j) (by omega)]
    unfold storeChunk
    dsimp only
    -- a byte of the page of this chunk that is not in the range
    by_cases hFrame : frame = table (u.toNat / 0x1000)
    · subst hFrame
      rw [Function.update_self, if_neg]
      rintro ⟨hLow, hHigh⟩
      apply hNot (offset - u.toNat % 0x1000) (by omega)
      rw [(@place_chunk table u _ (by omega)).2]
      congr 1
      omega
    · rw [Function.update_of_ne hFrame]

/-- **`copy_to_user` loop**: the bytes up to the first unmapped address are stored, in the order
    in which a 16-bit counter comes to them. -/
theorem copyToLoop_spec (hDistinct : Distinct table) (n : Nat) (hn : n ≤ 0x10000)
    (src : Nat → Byte) (u : Word) (s : CopyState)
    (h : s.windows.Coherent .window1 (s.windows.kernelPageTable .window1)) :
    ∃ m, Stored table src u n m (copyToLoop table src u n s).1 s
      (copyToLoop table src u n s).2 := by
  -- on the bytes left; a chunk ends at a page's end at the latest
  induction n using Nat.strong_induction_on generalizing src u s with
  | _ n ih =>
    by_cases hZero : n = 0
    · subst hZero
      rw [copyToLoop]
      exact ⟨0, by omega, by simp, by omega, by omega, by omega, fun _ _ _ => rfl, rfl⟩
    -- the loop stops at an unmapped page before it stores anything there
    · by_cases hMapped : table (u.toNat / 0x1000) = frameUnused
      · have hFirst : address u 0 = u.toNat := Nat.mod_eq_of_lt u.isLt
        rw [copyToLoop, if_neg hZero]
        dsimp only
        rw [if_pos hMapped]
        refine ⟨0, by omega, by rw [if_neg (by omega)], fun _ => ?_, by omega, by omega,
          fun _ _ _ => rfl, rfl⟩
        rw [hFirst]
        exact hMapped
      · have hOffset : u.toNat % 0x1000 < 0x1000 := Nat.mod_lt _ (by decide)
        rw [copyToLoop_turn h hZero hMapped]
        generalize hChunk : min n (0x1000 - u.toNat % 0x1000) = chunk
        obtain ⟨m, hRest⟩ := ih (n - chunk) (by omega) (by omega) (fun i => src (chunk + i))
          (u + BitVec.ofNat 16 chunk) (s.storeChunk table src u chunk) h
        exact ⟨chunk + m, hRest.cons hDistinct hn (by omega) (by omega) hMapped⟩

/-- **`copy_from_user` loop**: mapped addresses are read one after the other. -/
theorem copyFromLoop_spec (n : Nat) (u : Word) (dest : List Byte)
    (h : s.windows.Coherent .window1 (s.windows.kernelPageTable .window1))
    (hMapped : ∀ i, i < n → table (address u i / 0x1000) ≠ frameUnused) :
    copyFromLoop table u n s dest =
      (0, dest ++ (List.range n).map fun i =>
        s.mem (place table (address u i)).1 (place table (address u i)).2, s) := by
  -- on the bytes left, as for `copy_to_user`; nothing is stored in the user's pages
  induction n using Nat.strong_induction_on generalizing u dest with
  | _ n ih =>
    by_cases hZero : n = 0
    · subst hZero
      rw [copyFromLoop]
      simp
    · have hFirst : address u 0 = u.toNat := Nat.mod_eq_of_lt u.isLt
      have hHere : table (u.toNat / 0x1000) ≠ frameUnused := by
        rw [← hFirst]
        exact hMapped 0 (by omega)
      have hOffset : u.toNat % 0x1000 < 0x1000 := Nat.mod_lt _ (by decide)
      rw [copyFromLoop_turn h hZero hHere]
      generalize hChunk : min n (0x1000 - u.toNat % 0x1000) = chunk
      rw [ih (n - chunk) (by omega)]
      · have hSplit : n = chunk + (n - chunk) := by omega
        rw [hSplit, List.range_add, List.map_append, List.map_map, List.append_assoc,
          Nat.add_sub_cancel_left]
        congr 4
        · apply List.map_congr_left
          intro i hi
          have hLt := List.mem_range.mp hi
          rw [(@place_chunk table u i (by omega)).2]
        · simp only [address_add]
          rfl
      · intro i hi
        rw [address_add]
        exact hMapped (chunk + i) (by omega)

/-- The loop of `copy_from_user` ends with an error at an address that is not mapped. -/
theorem copyFromLoop_fails (n : Nat) (u : Word) (dest : List Byte)
    (h : s.windows.Coherent .window1 (s.windows.kernelPageTable .window1))
    (hUnmapped : ∃ i < n, table (address u i / 0x1000) = frameUnused) :
    ∃ dest', copyFromLoop table u n s dest = (-1, dest', s) := by
  induction n using Nat.strong_induction_on generalizing u dest with
  | _ n ih =>
    obtain ⟨i, hi, hHole⟩ := hUnmapped
    have hZero : n ≠ 0 := by omega
    by_cases hHere : table (u.toNat / 0x1000) = frameUnused
    · rw [copyFromLoop, if_neg hZero]
      dsimp only
      rw [if_pos hHere]
      exact ⟨dest, rfl⟩
    · have hOffset : u.toNat % 0x1000 < 0x1000 := Nat.mod_lt _ (by decide)
      rw [copyFromLoop_turn h hZero hHere]
      generalize hChunk : min n (0x1000 - u.toNat % 0x1000) = chunk
      -- the hole is behind the chunk, whose segment is mapped
      have hBehind : chunk ≤ i := by
        by_contra hInside
        rw [(@place_chunk table u i (by omega)).1] at hHole
        exact hHere hHole
      apply ih (n - chunk) (by omega)
      refine ⟨i - chunk, by omega, ?_⟩
      rw [address_add, Nat.add_sub_cancel' hBehind]
      exact hHole

end Loops

/-! ## §6 The calls -/

section Calls

variable {s : CopyState} {kernelFrame : Frame} {u n : Word}

theorem procGetPageTable_eq
    (h : s.windows.Coherent .window2 (s.windows.kernelPageTable .window2)) :
    s.procGetPageTable kernelFrame = (s.table kernelFrame, s) ∧
      s.table kernelFrame = fun i => s.mem kernelFrame (pcbOffset + i) := by
  have hRead := @readPcb_eq s kernelFrame _ (fun pcb => pcb) h
  unfold table procGetPageTable
  rw [hRead]
  exact ⟨rfl, rfl⟩

theorem procGetTop_eq (h : s.windows.Coherent .window2 (s.windows.kernelPageTable .window2)) :
    s.procGetTop kernelFrame = (s.top kernelFrame, s) ∧
      s.top kernelFrame = s.mem kernelFrame (pcbOffset + (topOffset + 1)) ++
        s.mem kernelFrame (pcbOffset + topOffset) := by
  have hRead := @readPcb_eq s kernelFrame _ (fun pcb => pcb (topOffset + 1) ++ pcb topOffset) h
  unfold top procGetTop
  rw [hRead]
  exact ⟨rfl, rfl⟩

/-- `copy_to_user` behind its first check. -/
theorem copyToUser_eq (h : s.windows.Coherent .window2 (s.windows.kernelPageTable .window2))
    (src : Nat → Byte) :
    copyToUser src u n kernelFrame s =
      if s.top kernelFrame ≤ u then (-1, s)
      else copyToLoop (s.table kernelFrame) src u n.toNat s := by
  unfold copyToUser
  rw [(procGetTop_eq h).1]
  dsimp only
  rw [(procGetPageTable_eq h).1]

theorem copyFromUser_eq (h : s.windows.Coherent .window2 (s.windows.kernelPageTable .window2)) :
    copyFromUser u n kernelFrame s =
      if s.top kernelFrame ≤ u then (-1, [], s)
      else copyFromLoop (s.table kernelFrame) u n.toNat s [] := by
  unfold copyFromUser
  rw [(procGetTop_eq h).1]
  dsimp only
  rw [(procGetPageTable_eq h).1]

/-- The loop on the page table of the process. -/
theorem WellFormed.loop (h : WellFormed kernelFrame s) (u n : Word) (src : Nat → Byte) :
    ∃ m, Stored (s.table kernelFrame) src u n.toNat m
      (copyToLoop (s.table kernelFrame) src u n.toNat s).1 s
      (copyToLoop (s.table kernelFrame) src u n.toNat s).2 := by
  have hDistinct : Distinct (s.table kernelFrame) := h.distinct
  exact copyToLoop_spec hDistinct n.toNat n.isLt.le src u s (h.coherent .window1)

/-- The kernel stack of the process is not among the bytes of its address space. -/
theorem WellFormed.stack_ne (h : WellFormed kernelFrame s) {a : Nat} (ha : a < 0x10000)
    (hMapped : s.table kernelFrame (a / 0x1000) ≠ frameUnused) (offset : Nat) :
    place (s.table kernelFrame) a ≠ (kernelFrame, offset) := by
  intro hPlace
  exact h.stack (a / 0x1000) (by unfold pageTableSize; omega) hMapped (Prod.mk.inj hPlace).1

/-- A copy leaves the PCB of the process alone. -/
theorem WellFormed.stored {src : Nat → Byte} {m : Nat} {result : Int} {s' : CopyState}
    (h : WellFormed kernelFrame s)
    (hStored : Stored (s.table kernelFrame) src u n.toNat m result s s') :
    WellFormed kernelFrame s' ∧ s'.table kernelFrame = s.table kernelFrame ∧
      s'.top kernelFrame = s.top kernelFrame := by
  -- the pages of the process are not its kernel frame
  have hStack : ∀ offset, s'.mem kernelFrame offset = s.mem kernelFrame offset := by
    intro offset
    apply hStored.others
    intro i hi
    exact h.stack_ne (address_lt u i) (hStored.mapped i hi) offset
  have hCoherent : ∀ w, s'.windows.Coherent w (s'.windows.kernelPageTable w) := by
    rw [hStored.windows]
    exact h.coherent
  have hTable : s'.table kernelFrame = s.table kernelFrame := by
    have hRead := @readPcb_eq s' kernelFrame _ (fun pcb => pcb) (hCoherent .window2)
    rw [(procGetPageTable_eq (h.coherent .window2)).2]
    unfold table procGetPageTable
    rw [hRead]
    funext i
    exact hStack _
  refine ⟨⟨hCoherent, ?_, ?_⟩, hTable, ?_⟩
  · rw [hTable]
    exact h.distinct
  · rw [hTable]
    exact h.stack
  · have hRead := @readPcb_eq s' kernelFrame _ (fun pcb => pcb (topOffset + 1) ++ pcb topOffset)
      (hCoherent .window2)
    rw [(procGetTop_eq (h.coherent .window2)).2]
    unfold top procGetTop
    rw [hRead]
    dsimp only
    rw [hStack, hStack]

/-- Below `0x10000` the addresses count as integers. -/
theorem address_eq {m : Nat} (hm : u.toNat + m ≤ 0x10000) {i : Nat} (hi : i < m) :
    address u i = u.toNat + i := by
  unfold address
  omega

/-- A copy that stays below `0x10000` is exact. -/
theorem exact_of_stored {src : Nat → Byte} {m : Nat} {result : Int} {s' : CopyState}
    (h : WellFormed kernelFrame s) (hBelow : u < s.top kernelFrame)
    (hStored : Stored (s.table kernelFrame) src u n.toNat m result s s')
    (hm : u.toNat + m ≤ 0x10000) :
    result = 0 ∧ Copied src u n kernelFrame s s' ∨
      result = -1 ∧ Stopped u n kernelFrame s s' := by
  have hMapped : ∀ i, i < m → Mapped (s.table kernelFrame) (u.toNat + i) := by
    intro i hi
    have := hStored.mapped i hi
    rw [address_eq hm hi] at this
    exact ⟨by omega, this⟩
  have hOthers : OnlyChanged (s.table kernelFrame) u.toNat m s s' := by
    intro frame offset hNot
    apply hStored.others
    intro i hi
    rw [address_eq hm hi]
    exact hNot i hi
  -- no address wraps below `0x10000`, so each is its own place
  by_cases hAll : m = n.toNat
  · left
    rw [hAll] at hMapped hOthers hm
    refine ⟨by rw [hStored.result, if_pos hAll], hBelow, hMapped, ?_, hOthers, ?_⟩
    · intro i hi
      rw [← address_eq hm hi]
      exact hStored.stored i (by omega)
    · -- the PCB is the same, so the same addresses are read
      obtain ⟨hFormed, hTable, hTop⟩ := h.stored hStored
      rw [copyFromUser_eq (hFormed.coherent .window2), hTable, hTop, if_neg (BitVec.not_le.mpr hBelow),
        copyFromLoop_spec _ _ _ (hFormed.coherent .window1)
          fun i hi => hStored.mapped i (by omega), List.nil_append]
      congr 2
      apply List.map_congr_left
      intro i hi
      exact hStored.stored i (by have := List.mem_range.mp hi; omega)
  · right
    exact ⟨by rw [hStored.result, if_neg hAll], m, hStored.bound, hMapped, hOthers⟩

/-- A copy that can come behind `0xFFFF` only over an unmapped segment ends before it. -/
theorem stays_below {src : Nat → Byte} {m : Nat} {result : Int} {s' : CopyState}
    (hBelow : u < s.top kernelFrame) (hWraps : ¬ Wraps u n kernelFrame s)
    (hStored : Stored (s.table kernelFrame) src u n.toNat m result s s') :
    u.toNat + m ≤ 0x10000 := by
  have hu := u.isLt
  have hBound := hStored.bound
  by_contra hLong
  apply hWraps
  refine ⟨hBelow, by omega, ?_, ?_⟩
  · -- the byte behind `0xFFFF` was one of segment 0
    have hZero := hStored.mapped (0x10000 - u.toNat) (by omega)
    have hAddress : address u (0x10000 - u.toNat) = 0 := by
      unfold address
      omega
    rwa [hAddress] at hZero
  · intro segment hLow hHigh
    unfold pageTableSize at hHigh
    -- some address of the segment comes in between
    have hHere := hStored.mapped (max u.toNat (segment * 0x1000) - u.toNat) (by omega)
    have hSegment : address u (max u.toNat (segment * 0x1000) - u.toNat) / 0x1000 = segment := by
      unfold address
      omega
    rwa [hSegment] at hHere

/-- A copy that wraps writes the byte of address 0. -/
theorem wraps_not_exact (h : WellFormed kernelFrame s) (hWraps : Wraps u n kernelFrame s) :
    ¬ Exact u n kernelFrame s := by
  obtain ⟨hBelow, hLong, hZero, hRest⟩ := hWraps
  have hu := u.isLt
  have hn := n.isLt
  -- what is written there is what the source holds at the place of the wrap
  have hWritten : ∀ src, (copyToUser src u n kernelFrame s).2.mem (s.table kernelFrame 0) 0 =
      src (0x10000 - u.toNat) := by
    intro src
    rw [copyToUser_eq (h.coherent .window2), if_neg (BitVec.not_le.mpr hBelow)]
    obtain ⟨m, hStored⟩ := h.loop u n src
    have hFar : 0x10000 - u.toNat < m := by
      by_contra hNear
      have hBound := hStored.bound
      have hStop := hStored.stop (by omega)
      rcases Nat.lt_or_ge (u.toNat + m) 0x10000 with hIn | hEnd
      · have hAddress : address u m = u.toNat + m := by
          unfold address
          omega
        rw [hAddress] at hStop
        exact hRest _ (by omega) (by unfold pageTableSize; omega) hStop
      · have hAddress : address u m = 0 := by
          unfold address
          omega
        rw [hAddress] at hStop
        exact hZero hStop
    have hByte := hStored.stored _ hFar
    have hAddress : address u (0x10000 - u.toNat) = 0 := by
      unfold address
      omega
    rw [hAddress] at hByte
    exact hByte
  intro hExact
  -- whatever the byte was, one of two sources changes it
  obtain ⟨byte, hByte⟩ : ∃ byte : Byte, byte ≠ s.mem (s.table kernelFrame 0) 0 := by
    by_cases hClear : s.mem (s.table kernelFrame 0) 0 = 0
    · exact ⟨1, by rw [hClear]; decide⟩
    · exact ⟨0, fun hEq => hClear hEq.symm⟩
  have hOne := hExact fun _ => byte
  have hChange := hWritten fun _ => byte
  generalize hCall : copyToUser (fun _ => byte) u n kernelFrame s = call at hOne hChange
  obtain ⟨result, s'⟩ := call
  obtain ⟨-, ⟨-, hCopied⟩ | ⟨-, m, hm, hMapped, hOnly⟩⟩ := hOne
  · have := (hCopied.mapped (0x10000 - u.toNat) (by omega)).1
    omega
  · apply hByte
    dsimp only at hChange
    rw [← hChange]
    apply hOnly
    intro i hi hPlace
    obtain ⟨hTop, hSegment⟩ := hMapped i hi
    have hSame := place_inj h.distinct (by omega) (by decide : 0 < 0x10000) hSegment hPlace
    omega

/-- **`copy_to_user` touches exactly the range it is given if and only if the range does not wrap
    around over mapped segments.** The loop ends at the first unmapped segment, so it wraps around
    only over segments that are mapped up to the end. -/
theorem copy_exact_iff (h : WellFormed kernelFrame s) :
    Exact u n kernelFrame s ↔ ¬ Wraps u n kernelFrame s := by
  constructor
  · exact fun hExact hWraps => wraps_not_exact h hWraps hExact
  · intro hWraps src
    rw [copyToUser_eq (h.coherent .window2)]
    by_cases hBelow : u < s.top kernelFrame
    · rw [if_neg (BitVec.not_le.mpr hBelow)]
      obtain ⟨m, hStored⟩ := h.loop u n src
      exact ⟨hStored.windows, exact_of_stored h hBelow hStored (stays_below hBelow hWraps hStored)⟩
    · rw [if_pos (BitVec.not_lt.mp hBelow)]
      exact ⟨rfl, .inr ⟨rfl, 0, Nat.zero_le _, by omega, fun _ _ _ => rfl⟩⟩

end Calls

/-! ## §7 A process with all its segments mapped -/

/-- The kernel stack is in frame `0x20`, segment `i` in frame `0x30 + i`, and the top is the last
    address. -/
def fullProcess : CopyState where
  windows := quietRun.windows
  mem := fun frame offset =>
    if frame = 0x20 then
      if offset < pcbOffset + pageTableSize then BitVec.ofNat 8 (0x30 + (offset - pcbOffset))
      else 0xFF
    else 0

theorem fullProcess_coherent (w : Window) :
    fullProcess.windows.Coherent w (fullProcess.windows.kernelPageTable w) := by
  refine ⟨by cases w <;> rfl, rfl, ?_⟩
  intro k hk
  obtain rfl := Option.some.inj hk
  cases w <;> rfl

theorem fullProcess_table {i : Nat} (hi : i < pageTableSize) :
    fullProcess.table 0x20 i = BitVec.ofNat 8 (0x30 + i) := by
  have hRead := @readPcb_eq fullProcess 0x20 _ (fun pcb => pcb) (fullProcess_coherent .window2)
  unfold table procGetPageTable
  rw [hRead]
  simp [fullProcess, pcbOffset, pageTableSize] at *
  omega

theorem fullProcess_table_toNat {i : Nat} (hi : i < pageTableSize) :
    (fullProcess.table 0x20 i).toNat = 0x30 + i := by
  unfold pageTableSize at hi
  rw [fullProcess_table hi, BitVec.toNat_ofNat]
  omega

theorem fullProcess_mapped {i : Nat} (hi : i < pageTableSize) :
    fullProcess.table 0x20 i ≠ frameUnused := by
  intro hEq
  have hFrame := fullProcess_table_toNat hi
  unfold pageTableSize at hi
  rw [hEq, show frameUnused.toNat = 0xFF from rfl] at hFrame
  omega

theorem fullProcess_wellFormed : WellFormed 0x20 fullProcess where
  coherent := fullProcess_coherent
  distinct i j hi hj _ hEq := by
    have hFrames := congrArg BitVec.toNat hEq
    rw [fullProcess_table_toNat hi, fullProcess_table_toNat hj] at hFrames
    omega
  stack i hi _ hEq := by
    have hFrame := fullProcess_table_toNat hi
    rw [hEq, show (0x20 : Frame).toNat = 0x20 from rfl] at hFrame
    omega

theorem fullProcess_top : fullProcess.top 0x20 = 0xFFFF := by
  decide

/-- A copy over three segments. -/
theorem fullProcess_copies :
    WellFormed 0x20 fullProcess ∧ Exact 0x0100 0x2000 0x20 fullProcess := by
  refine ⟨fullProcess_wellFormed, ?_⟩
  rw [copy_exact_iff fullProcess_wellFormed]
  rintro ⟨-, hLong, -⟩
  exact absurd hLong (by decide)

/-- A copy of 32 bytes to `0xFFF0`: it goes on at address 0. -/
theorem fullProcess_wraps :
    WellFormed 0x20 fullProcess ∧ ¬ Exact 0xFFF0 0x0020 0x20 fullProcess := by
  refine ⟨fullProcess_wellFormed, wraps_not_exact fullProcess_wellFormed ⟨?_, by decide, ?_, ?_⟩⟩
  · rw [fullProcess_top]
    decide
  · exact fullProcess_mapped (by decide)
  · exact fun segment _ hSegment => fullProcess_mapped hSegment

end CopyState

end Xv6502.Kernel.UserCopy
