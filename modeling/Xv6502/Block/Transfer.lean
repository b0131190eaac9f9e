import Xv6502.Block.Control

/-!
# The Bytes of a Transfer

How far the transfer of a block has got: the sectors of a buffer that agree with the disk image,
and what the device has still to write or has just read. The facts are about one buffer and the
device; the queue and the processes do not matter here.
-/

namespace Xv6502.Block

open Xv6502.Emulator

/-- The number of blocks of the disk. -/
def blockCount : Nat := 8192

/-- The bytes of a block in a disk image. -/
def blockOf (image : Nat → Byte) (block : Word) (i : Nat) : Byte :=
  image (block.toNat * blockSize + i)

/-- Sector `k` of the block of a buffer is being transferred. -/
structure Transfer (e : Buffer) (d : Device) (k : Nat) : Prop where
  offset : k < sectorsPerBlock
  lba : d.lba.toNat = e.blockNumber.toNat * sectorsPerBlock + k
  command : d.command = if e.dirty then .write else .read
  /-- The sectors before are done. -/
  done : ∀ i, i < k * sectorSize → e.frame i = blockOf d.image e.blockNumber i
  toWrite : d.busy = true → e.dirty = true → ∀ j, j < sectorSize →
    d.buffer j = e.frame (k * sectorSize + j)
  wasRead : d.busy = false → e.dirty = false → ∀ j, j < sectorSize →
    d.buffer j = blockOf d.image e.blockNumber (k * sectorSize + j)
  wasWritten : d.busy = false → e.dirty = true → ∀ j, j < sectorSize →
    e.frame (k * sectorSize + j) = blockOf d.image e.blockNumber (k * sectorSize + j)

variable {e : Buffer} {d : Device} {k : Nat} {P : Type}

namespace Storage

theorem copyIn_of_mem {bytes sector : Nat → Byte} {offset j : Nat} (hj : j < sectorSize) :
    copyIn bytes offset sector (offset + j) = sector j := by
  unfold copyIn
  rw [if_pos (by omega)]
  congr 1
  omega

theorem copyIn_of_not_mem {bytes sector : Nat → Byte} {offset i : Nat}
    (hi : i < offset ∨ offset + sectorSize ≤ i) : copyIn bytes offset sector i = bytes i := by
  unfold copyIn
  rw [if_neg (by omega)]

/-- The device after `disk_start_operation`. -/
theorem startOperation_transfer {s : Storage P} {b : BufferId} (hHead : s.head = some b)
    (hOffset : s.sectorOffset < sectorsPerBlock)
    (hBlock : (s.buffer b).blockNumber.toNat < blockCount)
    (hDone : ∀ i, i < s.sectorOffset * sectorSize →
      (s.buffer b).frame i = blockOf s.device.image (s.buffer b).blockNumber i) :
    Transfer (s.buffer b) s.startOperation.device s.sectorOffset ∧
      s.startOperation.device.busy = true ∧ s.startOperation.device.image = s.device.image := by
  have hLba : ((s.buffer b).blockNumber * 8 + BitVec.ofNat 16 s.sectorOffset).toNat =
      (s.buffer b).blockNumber.toNat * sectorsPerBlock + s.sectorOffset := by
    unfold sectorsPerBlock at hOffset ⊢
    unfold blockCount at hBlock
    rw [BitVec.toNat_add, BitVec.toNat_mul, BitVec.toNat_ofNat]
    simp only [BitVec.reduceToNat, Nat.reducePow]
    omega
  unfold startOperation
  simp only [hHead]
  by_cases hDirty : (s.buffer b).dirty = true
  · rw [if_pos hDirty]
    refine ⟨⟨hOffset, hLba, by simp [hDirty], hDone, ?_, by simp, by simp⟩, rfl, rfl⟩
    intro _ _ j hj
    -- the sector is copied to the buffer of the device before the command is given
    have hCopy : copyIn s.device.buffer 0
        (fun i => (s.buffer b).frame (s.sectorOffset * sectorSize + i)) (0 + j) =
          (s.buffer b).frame (s.sectorOffset * sectorSize + j) := copyIn_of_mem hj
    rwa [Nat.zero_add] at hCopy
  · rw [if_neg hDirty]
    refine ⟨⟨hOffset, hLba, by simp [hDirty], hDone, ?_, by simp, by simp⟩, rfl, rfl⟩
    exact fun _ hTrue => absurd hTrue hDirty

/-- What `disk_interrupt` leaves in the frame, for the sector that is done. -/
def received (e : Buffer) (d : Device) (k : Nat) : Nat → Byte :=
  if e.dirty then e.frame else copyIn e.frame (k * sectorSize) d.buffer

theorem copySector_eq {s : Storage P} {b : BufferId} :
    s.copySector b = { s with
      buffer := Function.update s.buffer b
        { s.buffer b with frame := received (s.buffer b) s.device s.sectorOffset } } := by
  unfold copySector received
  split
  · rw [Function.update_eq_self]
  · rfl

theorem transfer_read {s : Storage P} (hRead : s.device.command = .read) :
    s.transfer.device = { s.device with
      busy := false
      buffer := copyIn s.device.buffer 0
        fun i => s.device.image (s.device.lba.toNat * sectorSize + i) } := by
  simp [Storage.transfer, hRead]

theorem transfer_write {s : Storage P} (hWrite : s.device.command = .write) :
    s.transfer.device = { s.device with
      busy := false
      image := copyIn s.device.image (s.device.lba.toNat * sectorSize) s.device.buffer } := by
  simp [Storage.transfer, hWrite]

end Storage

open Storage

/-- Behind `disk_interrupt` one more sector of the frame agrees with the disk. -/
theorem Transfer.received_eq (h : Transfer e d k) (hReady : d.busy = false) {i : Nat}
    (hi : i < (k + 1) * sectorSize) : received e d k i = blockOf d.image e.blockNumber i := by
  -- the byte is in a sector that was done before, or in the one that is done now
  rcases Nat.lt_or_ge i (k * sectorSize) with hBefore | hNow
  · unfold received
    split
    · exact h.done i hBefore
    · rw [copyIn_of_not_mem (.inl hBefore)]
      exact h.done i hBefore
  · obtain ⟨j, rfl⟩ := Nat.exists_eq_add_of_le hNow
    have hj : j < sectorSize := by
      rw [Nat.add_mul] at hi
      omega
    unfold received
    split
    · next hDirty => exact h.wasWritten hReady hDirty j hj
    · next hDirty =>
      rw [copyIn_of_mem hj]
      exact h.wasRead hReady (by simpa using hDirty) j hj

theorem Transfer.offset_eq (h : Transfer e d k) :
    d.lba.toNat * sectorSize = e.blockNumber.toNat * blockSize + k * sectorSize := by
  rw [h.lba]
  unfold sectorsPerBlock blockSize sectorSize
  omega

/-- A write leaves the other sectors of the disk alone. -/
theorem Transfer.image_eq (h : Transfer e d k) {block : Word} {i : Nat} (hi : i < blockSize)
    (hOther : block ≠ e.blockNumber ∨ i < k * sectorSize) :
    blockOf (copyIn d.image (d.lba.toNat * sectorSize) d.buffer) block i =
      blockOf d.image block i := by
  unfold blockOf
  apply copyIn_of_not_mem
  rw [h.offset_eq]
  have hk := h.offset
  unfold sectorsPerBlock at hk
  unfold sectorSize blockSize at *
  rcases hOther with hBlock | hBefore
  · have hNe : block.toNat ≠ e.blockNumber.toNat := fun hEq => hBlock (BitVec.eq_of_toNat_eq hEq)
    omega
  · by_cases hEq : block.toNat = e.blockNumber.toNat
    · omega
    · omega

/-- The device finishes the operation on a sector. -/
theorem Transfer.transfer {s : Storage P} (h : Transfer e s.device k)
    (hBusy : s.device.busy = true) : Transfer e s.transfer.device k := by
  by_cases hDirty : e.dirty = true
  -- a write brings the sector of the frame to the disk, beside those already there
  · have hWrite : s.device.command = .write := by rw [h.command, if_pos hDirty]
    rw [transfer_write hWrite]
    refine ⟨h.offset, h.lba, h.command, ?_, by simp, ?_, ?_⟩
    · intro i hi
      have hk := h.offset
      unfold sectorsPerBlock at hk
      have hBlock : i < blockSize := by
        unfold sectorSize blockSize at *
        omega
      rw [h.image_eq hBlock (.inr hi)]
      exact h.done i hi
    · exact fun _ hClean => absurd hDirty (by simp [hClean])
    · intro _ _ j hj
      rw [← h.toWrite hBusy hDirty j hj, blockOf, ← Nat.add_assoc, ← h.offset_eq]
      exact (copyIn_of_mem hj).symm
  -- a read fills the device's buffer, which the handler copies out later
  · have hRead : s.device.command = .read := by rw [h.command, if_neg hDirty]
    rw [transfer_read hRead]
    refine ⟨h.offset, h.lba, h.command, h.done, by simp, ?_, ?_⟩
    · intro _ _ j hj
      have hCopy : copyIn s.device.buffer 0
          (fun i => s.device.image (s.device.lba.toNat * sectorSize + i)) (0 + j) =
            s.device.image (s.device.lba.toNat * sectorSize + j) := copyIn_of_mem hj
      rw [Nat.zero_add, h.offset_eq, Nat.add_assoc] at hCopy
      dsimp only
      rw [blockOf, ← hCopy, h.offset_eq]
    · exact fun _ hTrue => absurd hTrue hDirty

/-- The transfer is about the block, the direction and the bytes of a buffer. -/
theorem Transfer.congr {e' : Buffer} (h : Transfer e d k)
    (hBlock : e'.blockNumber = e.blockNumber) (hDirty : e'.dirty = e.dirty)
    (hFrame : e'.frame = e.frame) : Transfer e' d k := by
  obtain ⟨busy, valid, dirty, drive, refcount, blockNumber, queue, frame⟩ := e'
  cases hBlock
  cases hDirty
  cases hFrame
  exact ⟨h.offset, h.lba, h.command, h.done, h.toWrite, h.wasRead, h.wasWritten⟩

end Xv6502.Block
