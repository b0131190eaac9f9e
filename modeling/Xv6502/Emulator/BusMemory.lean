import Xv6502.Emulator.Board
import Mathlib.Data.BitVec

/-!
# The Bus as a Memory

Outside the device page the bus is a memory: a byte stored through one address is read back through
every address of the same physical byte, and nothing else on the board changes
(`machineWrite_memory`). The two chains of range tests agree there, whatever the page table, and
also where two segments map one frame.
-/

namespace Xv6502.Emulator

/-! ## §1 A store and what it leaves -/

instance (addr : Nat) : Decidable (InDevicePage addr) := inferInstanceAs (Decidable (_ ∧ _))

/-- A store of `byte` through `addr` has changed one byte of memory. -/
structure StoredAt (b b' : Board) (addr : Word) (byte : Byte) : Prop where
  /-- The byte is read back through every address of it. -/
  same : ∀ va, physicalAddress b.mmu va = physicalAddress b.mmu addr →
    (machineRead va b').1 = byte
  /-- Every other address reads as before, those of the devices among them. -/
  other : ∀ va, physicalAddress b.mmu va ≠ physicalAddress b.mmu addr →
    (machineRead va b').1 = (machineRead va b).1
  /-- No device register, page-table entry, interrupt line or pending flag has changed. -/
  devices : b' = { b with ram := b'.ram }

/-- The byte at a physical address depends on the memory there alone. -/
theorem readPhysical_congr (b : Board) {ram : Nat → Byte} {addr : Nat} (h : ram addr = b.ram addr) :
    readPhysical { b with ram := ram } addr = readPhysical b addr := by
  unfold readPhysical
  simp only [h]

/-- A mapped address is one of the memory. -/
theorem physicalAddress_lt {mmu : Mmu} {va : Word} (h : ¬ mmu.faults va) :
    physicalAddress mmu va < ramSize := by
  have hFrame := (mmu.pageTable (segmentOf va)).isLt
  have hOffset : offsetOf va < 0x1000 := Nat.mod_lt _ (by decide)
  unfold Mmu.faults at h
  unfold physicalAddress ramSize
  rw [if_neg h]
  omega

theorem physicalAddress_of_faults {mmu : Mmu} {va : Word} (h : mmu.faults va) :
    physicalAddress mmu va = unmappedAddress :=
  if_pos h

theorem translate_of_not_faults {b : Board} {va : Word} (h : ¬ b.mmu.faults va) :
    b.translate va = b := by
  unfold Board.translate mmuTranslate
  rw [if_neg h]

/-! ## §2 Stores -/

section Stores

variable {b : Board} {addr : Word}

/-- A store through a mapped address outside the device page is one of a byte of memory. -/
theorem machineWrite_mapped (byte : Byte) (hMapped : ¬ b.mmu.faults addr)
    (hOutside : ¬ InDevicePage (physicalAddress b.mmu addr)) :
    machineWrite addr byte b =
      { b with ram := Function.update b.ram (physicalAddress b.mmu addr) byte } := by
  unfold machineWrite
  rw [translate_of_not_faults hMapped, writePhysical_of_not_device b byte hOutside,
    if_pos (physicalAddress_lt hMapped)]

/-- A store through an unmapped address is dropped, and the violation latched. -/
theorem machineWrite_unmapped (byte : Byte) (hFaults : b.mmu.faults addr) :
    machineWrite addr byte b = { b with mmu := { b.mmu with va := addr, pendingNmi := true } } := by
  have hOutside : ¬ InDevicePage unmappedAddress := by
    unfold InDevicePage unmappedAddress
    omega
  unfold machineWrite
  rw [physicalAddress_of_faults hFaults, writePhysical_of_not_device _ byte hOutside,
    if_neg (by decide)]
  unfold Board.translate mmuTranslate
  rw [if_pos hFaults]

theorem storedAt_update (byte : Byte) (hMapped : ¬ b.mmu.faults addr)
    (hOutside : ¬ InDevicePage (physicalAddress b.mmu addr)) :
    StoredAt b { b with ram := Function.update b.ram (physicalAddress b.mmu addr) byte } addr
      byte where
  same va hSame := by
    show readPhysical _ (physicalAddress b.mmu va) = byte
    rw [hSame, readPhysical_of_not_device _ hOutside, if_pos (physicalAddress_lt hMapped)]
    exact Function.update_self ..
  other va hOther := by
    -- the translation of the second address does not look at the memory
    show readPhysical { b.translate va with
      ram := Function.update b.ram (physicalAddress b.mmu addr) byte } (physicalAddress b.mmu va) =
        readPhysical (b.translate va) (physicalAddress b.mmu va)
    apply readPhysical_congr
    exact Function.update_of_ne hOther _ _
  devices := rfl

/-- **The bus is a memory outside the device page**, for every board, page table and address. A
    store changes one physical address, so it shows at every address that the page table sends
    there and at no other. -/
theorem machineWrite_memory (b : Board) (addr : Word) (byte : Byte)
    (hOutside : ¬ InDevicePage (physicalAddress b.mmu addr)) :
    if b.mmu.faults addr then
      machineWrite addr byte b = { b with mmu := { b.mmu with va := addr, pendingNmi := true } }
    else StoredAt b (machineWrite addr byte b) addr byte := by
  split
  · next hFaults => exact machineWrite_unmapped byte hFaults
  · next hMapped =>
    rw [machineWrite_mapped byte hMapped hOutside]
    exact storedAt_update byte hMapped hOutside

end Stores

/-- Segments 0 and 1 map frame 16, and the last segment is unmapped. -/
def aliasedBoard : Board where
  ram := fun _ => 0
  rom := ⟨0, fun _ => 0⟩
  uart := ⟨0, 0, 0⟩
  disk := ⟨fun _ => 0, fun _ => 0, 0, 0, 0, 0, 0⟩
  mmu :=
    { pageTable := fun s => if s = 15 then mmuFrameInvalid else if s = 0 ∨ s = 1 then 16 else 17
      prev := 15, watchdog := 0, cause := 0, va := 0, opcode := 0, inUser := false
      pendingNmi := false }
  timer := ⟨0, 0, 0, 0, 0⟩
  plic := ⟨0, false⟩

/-- A byte stored in segment 0 is read in segment 1. -/
theorem aliasedBoard_memory :
    (machineRead 0x1010 (machineWrite 0x0010 0xab aliasedBoard)).1 = 0xab ∧
      machineWrite 0xf000 0xab aliasedBoard =
        { aliasedBoard with mmu := { aliasedBoard.mmu with va := 0xf000, pendingNmi := true } } := by
  constructor
  · have hMemory := machineWrite_memory aliasedBoard 0x0010 0xab (by decide)
    rw [if_neg (by decide)] at hMemory
    exact hMemory.same 0x1010 (by decide)
  · have hMemory := machineWrite_memory aliasedBoard 0xf000 0xab (by decide)
    rwa [if_pos (by decide)] at hMemory

end Xv6502.Emulator
