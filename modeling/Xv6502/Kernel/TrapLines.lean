import Xv6502.Emulator.KernelCode
import Xv6502.Emulator.Preemption
import Xv6502.Kernel.HandlerViews

/-!
# The Lines of the Trampoline

What the instructions of `kernel/trampoline.s` do to the machine without its devices: loads and stores
in the kernel's frame of the last segment, in the page table and the `prev` register of the MMU, and on
the hardware stack, in whatever frame it is.
-/

namespace Xv6502.Kernel.Trap

open Xv6502.Emulator
open Xv6502.Kernel.Vector (isSet_zero)

/-! ## §1 Registers -/

def Inner.loadA (v : Inner) (byte : Byte) : Inner := { v with a := byte, zero := byte == 0 }
def Inner.loadX (v : Inner) (byte : Byte) : Inner := { v with x := byte, zero := byte == 0 }
def Inner.loadY (v : Inner) (byte : Byte) : Inner := { v with y := byte, zero := byte == 0 }

/-- A byte of memory is stored. -/
def Inner.store (v : Inner) (addr : Nat) (byte : Byte) : Inner :=
  { v with ram := Function.update v.ram addr byte }

/-- The physical address of a byte of the hardware stack. -/
def Inner.stackAt (v : Inner) (sp : Byte) : Nat := (v.pageTable 0).toNat * 0x1000 + (0x100 + sp.toNat)

section Lines

variable {v w : Inner} {o : Byte} {t : Nat} {cross : Bool} {n : Word} {byte : Byte}

theorem innerOf_loadA (m : Machine) (byte : Byte) :
    innerOf ⟨Vector.loadA byte m.cpu, m.bus⟩ = Inner.loadA (innerOf m) byte := by
  unfold innerOf Vector.loadA
  rw [isSet_zero, isSet_updateZeroNegative]
  rfl

theorem innerOf_loadX (m : Machine) (byte : Byte) :
    innerOf ⟨Vector.loadX byte m.cpu, m.bus⟩ = Inner.loadX (innerOf m) byte := by
  unfold innerOf Vector.loadX
  rw [isSet_zero, isSet_updateZeroNegative]
  rfl

theorem innerOf_loadY (m : Machine) (byte : Byte) :
    innerOf ⟨Vector.loadY byte m.cpu, m.bus⟩ = Inner.loadY (innerOf m) byte := by
  unfold innerOf Vector.loadY
  rw [isSet_zero, isSet_updateZeroNegative]
  rfl

theorem does_cld : LineDoes (.op ⟨o, .cld, .implied, t, cross⟩ n) v v := by
  rintro m rfl
  refine ⟨?_, rfl⟩
  have hZero : (m.cpu.setFlag statusD false).isSet statusZ = m.cpu.isSet statusZ := by
    unfold Cpu.isSet Cpu.setFlag
    show ((m.cpu.p &&& ~~~statusD) &&& statusZ != 0) = _
    rw [BitVec.and_assoc]
    rfl
  show (⟨m.cpu.a, m.cpu.x, m.cpu.y, m.cpu.sp, (m.cpu.setFlag statusD false).isSet statusZ,
    (m.cpu.setFlag statusD false).isSet statusI, m.bus.ram, m.bus.mmu.pageTable, m.bus.mmu.prev⟩ :
      Inner) = _
  rw [hZero, isSet_setFlag_other (by decide)]
  rfl

theorem does_lda_immediate :
    LineDoes (.op ⟨o, .lda, .immediate, t, cross⟩ n) v (Inner.loadA v (lowByte n)) := by
  rintro m rfl
  exact ⟨innerOf_loadA m _, rfl⟩

theorem does_ldx_immediate :
    LineDoes (.op ⟨o, .ldx, .immediate, t, cross⟩ n) v (Inner.loadX v (lowByte n)) := by
  rintro m rfl
  exact ⟨innerOf_loadX m _, rfl⟩

theorem does_and :
    LineDoes (.op ⟨o, .and, .immediate, t, cross⟩ n) v (Inner.loadA v (v.a &&& lowByte n)) := by
  rintro m rfl
  exact ⟨innerOf_loadA m _, rfl⟩

theorem does_inx : LineDoes (.op ⟨o, .inx, .implied, t, cross⟩ n) v (Inner.loadX v (v.x + 1)) := by
  rintro m rfl
  exact ⟨innerOf_loadX m _, rfl⟩

theorem does_tsx : LineDoes (.op ⟨o, .tsx, .implied, t, cross⟩ n) v (Inner.loadX v v.sp) := by
  rintro m rfl
  exact ⟨innerOf_loadX m _, rfl⟩

theorem does_txs : LineDoes (.op ⟨o, .txs, .implied, t, cross⟩ n) v { v with sp := v.x } := by
  rintro m rfl
  exact ⟨rfl, rfl⟩

theorem does_cpx : LineDoes (.op ⟨o, .cpx, .immediate, t, cross⟩ n) v
    { v with zero := v.x - lowByte n == 0 } := by
  rintro m rfl
  refine ⟨?_, rfl⟩
  show (⟨m.cpu.a, m.cpu.x, m.cpu.y, m.cpu.sp, (m.cpu.compare m.cpu.x (lowByte n)).isSet statusZ,
    (m.cpu.compare m.cpu.x (lowByte n)).isSet statusI, m.bus.ram, m.bus.mmu.pageTable,
      m.bus.mmu.prev⟩ : Inner) = _
  rw [isSet_compare, Cpu.compare, isSet_zero]
  rfl

theorem does_branch (i : Instruction) (label : Nat) : LineDoes (.branch i label) v v :=
  fun _ h => ⟨h, rfl⟩

/-! ## §2 Memory -/

/-- A byte is read at the address, and reading it changes nothing. -/
def ReadsAs (v : Inner) (addr : Word) (byte : Byte) : Prop :=
  ∀ m : Machine, innerOf m = v → machineRead addr m.bus = (byte, m.bus)

/-- A store does this and nothing else. -/
def WritesAs (v : Inner) (addr : Word) (byte : Byte) (w : Inner) : Prop :=
  ∀ m : Machine, innerOf m = v → innerOf ⟨m.cpu, machineWrite addr byte m.bus⟩ = w ∧
    latchesOf (machineWrite addr byte m.bus) = latchesOf m.bus

theorem does_lda_absolute (h : ReadsAs v n byte) :
    LineDoes (.op ⟨o, .lda, .absolute, t, cross⟩ n) v (Inner.loadA v byte) := by
  rintro m rfl
  have hRun : (Line.op ⟨o, .lda, .absolute, t, cross⟩ n).execute machineBus m =
      ⟨Vector.loadA (machineRead n m.bus).1 m.cpu, (machineRead n m.bus).2⟩ := rfl
  rw [hRun, h m rfl]
  exact ⟨innerOf_loadA m _, rfl⟩

theorem does_ldx_absolute (h : ReadsAs v n byte) :
    LineDoes (.op ⟨o, .ldx, .absolute, t, cross⟩ n) v (Inner.loadX v byte) := by
  rintro m rfl
  have hRun : (Line.op ⟨o, .ldx, .absolute, t, cross⟩ n).execute machineBus m =
      ⟨Vector.loadX (machineRead n m.bus).1 m.cpu, (machineRead n m.bus).2⟩ := rfl
  rw [hRun, h m rfl]
  exact ⟨innerOf_loadX m _, rfl⟩

theorem does_ldy_absolute (h : ReadsAs v n byte) :
    LineDoes (.op ⟨o, .ldy, .absolute, t, cross⟩ n) v (Inner.loadY v byte) := by
  rintro m rfl
  have hRun : (Line.op ⟨o, .ldy, .absolute, t, cross⟩ n).execute machineBus m =
      ⟨Vector.loadY (machineRead n m.bus).1 m.cpu, (machineRead n m.bus).2⟩ := rfl
  rw [hRun, h m rfl]
  exact ⟨innerOf_loadY m _, rfl⟩

theorem does_lda_absoluteX (h : ReadsAs v (n + v.x.setWidth 16) byte) :
    LineDoes (.op ⟨o, .lda, .absoluteX, t, cross⟩ n) v (Inner.loadA v byte) := by
  rintro m rfl
  have hRead : machineRead (n + m.cpu.x.setWidth 16) m.bus = (byte, m.bus) := h m rfl
  have hRun : (Line.op ⟨o, .lda, .absoluteX, t, cross⟩ n).execute machineBus m =
      ⟨Vector.loadA (machineRead (n + m.cpu.x.setWidth 16) m.bus).1 m.cpu,
        (machineRead (n + m.cpu.x.setWidth 16) m.bus).2⟩ := rfl
  rw [hRun, hRead]
  exact ⟨innerOf_loadA m _, rfl⟩

theorem does_sta_absolute (h : WritesAs v n v.a w) :
    LineDoes (.op ⟨o, .sta, .absolute, t, cross⟩ n) v w := by
  rintro m rfl
  exact h m rfl

theorem does_stx_absolute (h : WritesAs v n v.x w) :
    LineDoes (.op ⟨o, .stx, .absolute, t, cross⟩ n) v w := by
  rintro m rfl
  exact h m rfl

theorem does_sty_absolute (h : WritesAs v n v.y w) :
    LineDoes (.op ⟨o, .sty, .absolute, t, cross⟩ n) v w := by
  rintro m rfl
  exact h m rfl

theorem does_sta_absoluteX (h : WritesAs v (n + v.x.setWidth 16) v.a w) :
    LineDoes (.op ⟨o, .sta, .absoluteX, t, cross⟩ n) v w := by
  rintro m rfl
  exact h m rfl

theorem does_pla (h : ReadsAs v (stackAddress (v.sp + 1)) byte) :
    LineDoes (.op ⟨o, .pla, .implied, t, cross⟩ n) v (Inner.loadA { v with sp := v.sp + 1 } byte) := by
  rintro m rfl
  have hRead : machineRead (stackAddress (m.cpu.sp + 1)) m.bus = (byte, m.bus) := h m rfl
  have hRun : (Line.op ⟨o, .pla, .implied, t, cross⟩ n).execute machineBus m =
      ⟨Vector.loadA (machineRead (stackAddress (m.cpu.sp + 1)) m.bus).1
        { m.cpu with sp := m.cpu.sp + 1 }, (machineRead (stackAddress (m.cpu.sp + 1)) m.bus).2⟩ := rfl
  rw [hRun, hRead]
  exact ⟨innerOf_loadA ⟨{ m.cpu with sp := m.cpu.sp + 1 }, m.bus⟩ byte, rfl⟩

theorem does_pha (h : WritesAs v (stackAddress v.sp) v.a w) :
    LineDoes (.op ⟨o, .pha, .implied, t, cross⟩ n) v { w with sp := v.sp - 1 } := by
  rintro m rfl
  obtain ⟨rfl, hLatches⟩ := h m rfl
  exact ⟨rfl, hLatches⟩

/-! ## §3 Addresses -/

/-- The kernel runs, with its hardware stack in another frame. -/
structure Mapped (v : Inner) : Prop where
  low : v.pageTable 0 ≠ kernelFrame
  valid : v.pageTable 0 ≠ mmuFrameInvalid
  kernel : v.pageTable mmuLastSegment = kernelFrame

theorem Mapped.machine (h : Mapped v) {m : Machine} (hm : innerOf m = v) : m.bus.mmu.KernelMapped := by
  subst hm
  exact ⟨h.low, h.valid, h.kernel⟩

theorem Mapped.stackAt_outside (h : Mapped v) (sp : Byte) :
    Inner.stackAt v sp < 0xf000 ∨ 0x10000 ≤ Inner.stackAt v sp := by
  have hFrame : (v.pageTable 0).toNat ≠ 15 := fun hEq => h.low (BitVec.eq_of_toNat_eq hEq)
  have hSp := sp.isLt
  unfold Inner.stackAt
  omega

theorem readsAs_stack (h : Mapped v) (sp : Byte) :
    ReadsAs v (stackAddress sp) (v.ram (Inner.stackAt v sp)) := by
  intro m hm
  rw [machineRead_low (h.machine hm) (stackAddress_low sp), stackAddress_toNat]
  subst hm
  rfl

theorem writesAs_stack (h : Mapped v) (sp byte : Byte) :
    WritesAs v (stackAddress sp) byte (Inner.store v (Inner.stackAt v sp) byte) := by
  intro m hm
  rw [machineWrite_low (h.machine hm) (stackAddress_low sp), stackAddress_toNat]
  subst hm
  exact ⟨rfl, rfl⟩

theorem kernel_of_inner (h : v.pageTable mmuLastSegment = kernelFrame) {m : Machine}
    (hm : innerOf m = v) : m.bus.mmu.pageTable mmuLastSegment = kernelFrame := by
  subst hm
  exact h

theorem readsAs_last (h : v.pageTable mmuLastSegment = kernelFrame) (hBase : 0xf000 ≤ n.toNat)
    (hTop : n.toNat < 0xfc00) : ReadsAs v n (v.ram n.toNat) := by
  intro m hm
  rw [machineRead_last (kernel_of_inner h hm) hBase hTop]
  subst hm
  rfl

theorem readsAs_prev (h : v.pageTable mmuLastSegment = kernelFrame) : ReadsAs v 0xfe40 v.prev := by
  intro m hm
  obtain ⟨hPhysical, hMapped⟩ :=
    @physicalAddress_last 0xfe40 m.bus.mmu (kernel_of_inner h hm) (by decide)
  rw [machineRead, hPhysical, translate_of_not_faults hMapped]
  subst hm
  rfl

theorem writesAs_last (h : v.pageTable mmuLastSegment = kernelFrame) (hBase : 0xf000 ≤ n.toNat)
    (hTop : n.toNat < 0xfc00) (byte : Byte) : WritesAs v n byte (Inner.store v n.toNat byte) := by
  intro m hm
  have hOutside : ¬ InDevicePage n.toNat := fun hIn => by
    unfold InDevicePage at hIn
    omega
  have hRam : n.toNat < ramSize := by
    unfold ramSize
    omega
  rw [machineWrite_last (kernel_of_inner h hm) hBase, writePhysical_of_not_device _ byte hOutside,
    if_pos hRam]
  subst hm
  exact ⟨rfl, rfl⟩

/-- The vectors are in the RAM behind the ROM. -/
theorem writesAs_vector (h : v.pageTable mmuLastSegment = kernelFrame) {addr : Nat}
    (hn : n.toNat = addr) (hVector : addr = 0xfffe ∨ addr = 0xffff) (byte : Byte) :
    WritesAs v n byte (Inner.store v addr byte) := by
  intro m hm
  rw [machineWrite_last (kernel_of_inner h hm) (by omega), hn]
  subst hm
  rcases hVector with rfl | rfl
  · exact ⟨rfl, rfl⟩
  · exact ⟨rfl, rfl⟩

theorem writesAs_prev (h : v.pageTable mmuLastSegment = kernelFrame) (byte : Byte) :
    WritesAs v 0xfe40 byte { v with prev := byte } := by
  intro m hm
  rw [machineWrite_last (kernel_of_inner h hm) (by decide)]
  subst hm
  exact ⟨rfl, rfl⟩

/-- A store to the page table of the MMU. -/
theorem writesAs_pageTable (h : v.pageTable mmuLastSegment = kernelFrame) (s : Segment)
    (hn : n.toNat = 0xfe20 + s.val) (byte : Byte) :
    WritesAs v n byte { v with pageTable := Function.update v.pageTable s byte } := by
  intro m hm
  have hs := s.isLt
  rw [machineWrite_last (kernel_of_inner h hm) (by omega), hn]
  have hWrite : writePhysical m.bus (0xfe20 + s.val) byte = { m.bus with mmu := { m.bus.mmu with
      pageTable := Function.update m.bus.mmu.pageTable s byte } } := by
    have hIndex : Fin.ofNat 16 (0xfe20 + s.val - mmuPageTable) = s := by
      apply Fin.ext
      show (0xfe20 + s.val - 0xfe20) % 16 = s.val
      omega
    unfold writePhysical
    simp only [plicInterruptLines, timerCtrl, timerLatchHigh, timerLatchLow, timerCounterHigh,
      timerCounterLow]
    iterate 6 refine (if_neg (by omega)).trans ?_
    refine (if_pos (by unfold mmuPageTable; omega)).trans ?_
    rw [hIndex]
  rw [hWrite]
  subst hm
  exact ⟨rfl, rfl⟩

end Lines

end Xv6502.Kernel.Trap
