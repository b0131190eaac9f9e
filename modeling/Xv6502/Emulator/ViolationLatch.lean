import Xv6502.Emulator.AccessLog
import Xv6502.Emulator.TrapEntry

/-!
# What a Violation Latches

`MMU_translate` latches an access through an invalid entry of the page table. Here is shown what
the MMU has latched when the core has executed an instruction: the last violation among its
accesses, with the page table as it was (`execNext_latched`, `execNext_front`).

A program reaches memory only, so that this is a matter of every single access. A `BRK` in the last
segment is different: the kernel is mapped there before the core fetches its opcode, so the core
executes what the kernel's frame shows at the program counter, device registers too, and the
instruction may write an entry of the page table. But it has made no violation then. The one write
that comes behind a read is that of an instruction that changes its operand, whose address is
computed again, and the operand bytes may be the register that latches the violating address
(`rereads_outside`).
-/

namespace Xv6502.Emulator

open Xv6502.Lib

/-! ## §1 The last violation -/

/-- The last of some addresses that goes through an invalid entry. -/
def lastViolation (u : Mmu) (vas : List Word) : Option Word :=
  (vas.filter fun va => decide (u.faults va)).getLast?

theorem lastViolation_congr {u u' : Mmu} (h : u'.pageTable = u.pageTable) :
    lastViolation u' = lastViolation u := by
  have hFaults : ∀ va, u'.faults va ↔ u.faults va := fun va => by rw [Mmu.faults, Mmu.faults, h]
  funext vas
  simp only [lastViolation, hFaults]

theorem lastViolation_append (u : Mmu) (vas vas' : List Word) :
    lastViolation u (vas ++ vas') = (lastViolation u vas').or (lastViolation u vas) := by
  unfold lastViolation
  rw [List.filter_append, List.getLast?_append]

theorem lastViolation_of_mapped {u : Mmu} {va : Word} (h : ¬ u.faults va) :
    lastViolation u [va] = none := by
  simp [lastViolation, h]

/-- Some accesses have been made through the page table of the first board: the MMU of the second
    one has latched the last violation. -/
structure LatchedBy (b b' : Board) (vas : List Word) : Prop where
  pageTable : b'.mmu.pageTable = b.mmu.pageTable
  pendingNmi : b'.mmu.pendingNmi = (b.mmu.pendingNmi || (lastViolation b.mmu vas).isSome)
  va : b'.mmu.va = (lastViolation b.mmu vas).getD b.mmu.va

theorem latchedBy_nil (b : Board) : LatchedBy b b [] := ⟨rfl, (Bool.or_false _).symm, rfl⟩

theorem LatchedBy.trans {a b c : Board} {vas vas' : List Word} (h : LatchedBy a b vas)
    (h' : LatchedBy b c vas') : LatchedBy a c (vas ++ vas') := by
  have hSame := lastViolation_congr h.pageTable
  refine ⟨h'.pageTable.trans h.pageTable, ?_, ?_⟩
  · rw [h'.pendingNmi, h.pendingNmi, hSame, lastViolation_append]
    cases lastViolation a.mmu vas' with
    | none => simp
    | some va => simp
  · rw [h'.va, h.va, hSame, lastViolation_append]
    cases lastViolation a.mmu vas' with
    | none => simp
    | some va => simp

/-! ## §2 One access -/

theorem latchedBy_translate (b : Board) (va : Word) : LatchedBy b (b.translate va) [va] := by
  by_cases hFault : b.mmu.faults va
  · have hLast : lastViolation b.mmu [va] = some va := by simp [lastViolation, hFault]
    have hMmu : (b.translate va).mmu = { b.mmu with va := va, pendingNmi := true } := if_pos hFault
    refine ⟨?_, ?_, ?_⟩ <;> rw [hMmu] <;> simp [hLast]
  · have hMmu : (b.translate va).mmu = b.mmu := mmuTranslate_of_not_faults hFault
    refine ⟨?_, ?_, ?_⟩ <;> rw [hMmu] <;> simp [lastViolation_of_mapped hFault]

theorem LatchedBy.congr {b b' b'' : Board} {vas : List Word} (h : LatchedBy b b' vas)
    (hMmu : b''.mmu = b'.mmu) : LatchedBy b b'' vas :=
  ⟨hMmu ▸ h.pageTable, hMmu ▸ h.pendingNmi, hMmu ▸ h.va⟩

/-- A read latches, whatever is mapped. -/
theorem latchedBy_read (b : Board) (va : Word) : LatchedBy b (machineRead va b).2 [va] :=
  (latchedBy_translate b va).congr (machineRead_mmu va b)

/-- The physical address is one of the sixteen entries of the page table. -/
def InPageTable (addr : Nat) : Prop := mmuPageTable ≤ addr ∧ addr < mmuPageTable + 16

/-- The latches of the MMU have not changed. -/
structure KeepsLatches (u u' : Mmu) : Prop where
  pendingNmi : u'.pendingNmi = u.pendingNmi
  va : u'.va = u.va
  opcode : u'.opcode = u.opcode
  inUser : u'.inUser = u.inUser

/-- No store reaches the latches of the MMU. -/
theorem writePhysical_latches (b : Board) (addr : Nat) (byte : Byte) :
    KeepsLatches b.mmu (writePhysical b addr byte).mmu := by
  unfold writePhysical
  constructor
  · simp only [apply_ite Board.mmu, apply_ite Mmu.pendingNmi, ite_self]
  · simp only [apply_ite Board.mmu, apply_ite Mmu.va, ite_self]
  · simp only [apply_ite Board.mmu, apply_ite Mmu.opcode, ite_self]
  · simp only [apply_ite Board.mmu, apply_ite Mmu.inUser, ite_self]

/-- One outside of the page table keeps its entries. -/
theorem writePhysical_pageTable (b : Board) {addr : Nat} (byte : Byte) (h : ¬ InPageTable addr) :
    (writePhysical b addr byte).mmu.pageTable = b.mmu.pageTable := by
  unfold InPageTable at h
  unfold writePhysical
  simp only [apply_ite Board.mmu, apply_ite Mmu.pageTable, if_neg h, ite_self]

/-- A write latches if it does not go to the page table itself. -/
theorem latchedBy_write {b : Board} {va : Word} (byte : Byte)
    (h : ¬ InPageTable (physicalAddress b.mmu va)) : LatchedBy b (machineWrite va byte b) [va] := by
  have hLatched := latchedBy_translate b va
  have hKept := writePhysical_latches (b.translate va) (physicalAddress b.mmu va) byte
  exact ⟨(writePhysical_pageTable (b.translate va) byte h).trans hLatched.pageTable,
    hKept.pendingNmi.trans hLatched.pendingNmi, hKept.va.trans hLatched.va⟩

/-- What goes to the page table is mapped. -/
theorem not_faults_of_inPageTable {u : Mmu} {va : Word} (h : InPageTable (physicalAddress u va)) :
    ¬ u.faults va := by
  intro hFault
  have hAddress : physicalAddress u va = unmappedAddress := if_pos hFault
  rw [hAddress] at h
  exact absurd h.2 (by decide)

/-- **A write through an invalid entry changes nothing but the latch.** -/
theorem machineWrite_of_faults {b : Board} {va : Word} (h : b.mmu.faults va) (byte : Byte) :
    machineWrite va byte b = { b with mmu := { b.mmu with va := va, pendingNmi := true } } := by
  have hAddress : physicalAddress b.mmu va = unmappedAddress := if_pos h
  have hDev : ¬ InDevicePage unmappedAddress := by
    unfold InDevicePage unmappedAddress
    omega
  have hMmu : mmuTranslate b.mmu va = { b.mmu with va := va, pendingNmi := true } := if_pos h
  rw [machineWrite, hAddress, writePhysical_of_not_device _ _ hDev, if_neg (by decide),
    Board.translate, hMmu]

/-! ## §3 An instruction of the program -/

/-- Some accesses have been logged, and the MMU has latched the last violation among them. -/
def Latched (x y : Board × List Word) : Prop := ∃ vas, y.2 = x.2 ++ vas ∧ LatchedBy x.1 y.1 vas

theorem Latched.refl (x : Board × List Word) : Latched x x := ⟨[], by simp, latchedBy_nil x.1⟩

theorem Latched.trans {x y z : Board × List Word} (h : Latched x y) (h' : Latched y z) :
    Latched x z := by
  obtain ⟨vas, hLog, hLatched⟩ := h
  obtain ⟨vas', hLog', hLatched'⟩ := h'
  exact ⟨vas ++ vas', by rw [hLog', hLog, List.append_assoc], hLatched.trans hLatched'⟩

theorem Latched.pageTable {x y : Board × List Word} (h : Latched x y) :
    y.1.mmu.pageTable = x.1.mmu.pageTable := by
  obtain ⟨vas, -, hLatched⟩ := h
  exact hLatched.pageTable

theorem latched_read (va : Word) (x : Board × List Word) :
    Latched x (machineBus.logged.readByte va x).2 :=
  ⟨[va], rfl, latchedBy_read x.1 va⟩

theorem latched_write {va : Word} {x : Board × List Word} (byte : Byte)
    (h : ¬ InPageTable (physicalAddress x.1.mmu va)) :
    Latched x (machineBus.logged.writeByte va byte x) :=
  ⟨[va], rfl, latchedBy_write byte h⟩

/-- The accesses are latched as long as the page table is a good one, which they leave alone. -/
def LatchedWith (good : (Segment → Frame) → Prop) (x y : Board × List Word) : Prop :=
  good x.1.mmu.pageTable → Latched x y

section With

variable {good : (Segment → Frame) → Prop}

instance : Std.Refl (LatchedWith good) := ⟨fun x _ => Latched.refl x⟩

instance : IsTrans (Board × List Word) (LatchedWith good) := by
  refine ⟨fun x y z hxy hyz hTable => ?_⟩
  have hFirst := hxy hTable
  exact hFirst.trans (hyz (hFirst.pageTable ▸ hTable))

end With

theorem inDevicePage_of_inPageTable {addr : Nat} (h : InPageTable addr) : InDevicePage addr := by
  obtain ⟨hBase, hTop⟩ := h
  unfold mmuPageTable at hBase hTop
  exact ⟨by omega, by omega⟩

/-- A user's page table has no entry for the device page. -/
theorem keptByAccess_latched :
    KeptByAccess machineBus.logged (LatchedWith fun t => ∀ s, 0x10 ≤ (t s).toNat) where
  read va x _ := latched_read va x
  write _ byte _ hTable := latched_write byte fun hEntry =>
    not_inDevicePage_user hTable _ (inDevicePage_of_inPageTable hEntry)

/-- The log and the bus of the core's step. -/
theorem execNext_of_logged {m : Machine}
    {P : Board × List Word → Prop} (h : P ((mcs6502ExecNext machineBus.logged).run
      ⟨m.cpu, m.bus, []⟩).2.bus) : P ((execNext m).bus, accesses machineBus m) := by
  have hBus : (execNext m).bus = (loggedStep machineBus m).bus.1 :=
    (congrArg Ctx.bus (loggedStep_forget machineBus m)).symm
  rw [hBus]
  exact h

/-- With a user's page table the core's step latches the last violation among its accesses. -/
theorem execNext_latched {m : Machine} (h : ∀ s, 0x10 ≤ (m.bus.mmu.pageTable s).toNat) :
    LatchedBy m.bus (execNext m).bus (accesses machineBus m) := by
  obtain ⟨vas, hLog, hLatched⟩ := execNext_of_logged 
    (keeps_execNext keptByAccess_latched ⟨m.cpu, m.bus, []⟩ h)
  have hVas : accesses machineBus m = vas := hLog
  rw [hVas]
  exact hLatched

/-! ## §4 The kernel in front -/

/-- The last segment shows the kernel's frame, the other ones show frames of the program. -/
structure KernelInFront (pageTable : Segment → Frame) : Prop where
  entries : ∀ s, s ≠ mmuLastSegment → 0x10 ≤ (pageTable s).toNat
  stack : pageTable 0 ≠ mmuFrameInvalid
  kernel : pageTable mmuLastSegment = kernelFrame

/-- An address of the first or of the last segment. -/
def Near (va : Word) : Prop := va.toNat < 0x1000 ∨ 0xf000 ≤ va.toNat

theorem segmentOf_high {va : Word} (h : 0xf000 ≤ va.toNat) : segmentOf va = mmuLastSegment := by
  apply Fin.ext
  show va.toNat / 0x1000 = 15
  omega

section Front

variable {u : Mmu} {va : Word}

theorem KernelInFront.physical_high (h : KernelInFront u.pageTable) (hVa : 0xf000 ≤ va.toNat) :
    physicalAddress u va = va.toNat := by
  rw [physicalAddress, segmentOf_high hVa, h.kernel, if_neg (by decide)]
  show 15 * 0x1000 + va.toNat % 0x1000 = va.toNat
  omega

theorem KernelInFront.physical_low (h : KernelInFront u.pageTable) (hVa : va.toNat < 0xf000) :
    0x10000 ≤ physicalAddress u va := by
  have hOther : segmentOf va ≠ mmuLastSegment := by
    intro hLast
    have hValue : va.toNat / 0x1000 = 15 := congrArg Fin.val hLast
    omega
  have hEntry := h.entries (segmentOf va) hOther
  unfold physicalAddress unmappedAddress
  split <;> omega

/-- The near addresses are mapped. -/
theorem Near.not_faults (hNear : Near va) (h : KernelInFront u.pageTable) : ¬ u.faults va := by
  unfold Mmu.faults
  rcases hNear with hLow | hHigh
  · have hFirst : segmentOf va = 0 := by
      apply Fin.ext
      show va.toNat / 0x1000 = 0
      omega
    rw [hFirst]
    exact h.stack
  · rw [segmentOf_high hHigh, h.kernel]
    decide

/-- The page table is reached through the last segment only. -/
theorem KernelInFront.of_inPageTable (h : KernelInFront u.pageTable)
    (hEntry : InPageTable (physicalAddress u va)) :
    mmuPageTable ≤ va.toNat ∧ va.toNat < mmuPageTable + 16 := by
  by_cases hHigh : 0xf000 ≤ va.toNat
  · rw [h.physical_high hHigh] at hEntry
    exact hEntry
  · have hLow := h.physical_low (Nat.lt_of_not_le hHigh)
    obtain ⟨-, hTop⟩ := hEntry
    unfold mmuPageTable at hTop
    omega

end Front

/-- Some accesses have been logged, none of them a violation. -/
def Faultless (x y : Board × List Word) : Prop :=
  ∃ vas, y.2 = x.2 ++ vas ∧ LatchedBy x.1 y.1 vas ∧ lastViolation x.1.mmu vas = none

theorem Faultless.latched {x y : Board × List Word} (h : Faultless x y) : Latched x y := by
  obtain ⟨vas, hLog, hLatched, -⟩ := h
  exact ⟨vas, hLog, hLatched⟩

/-- What an instruction leaves: the last violation latched, or there was none. -/
def Settled (x y : Board × List Word) : Prop :=
  ∃ vas, y.2 = x.2 ++ vas ∧ (LatchedBy x.1 y.1 vas ∨ lastViolation x.1.mmu vas = none)

theorem Latched.settled {x y : Board × List Word} (h : Latched x y) : Settled x y := by
  obtain ⟨vas, hLog, hLatched⟩ := h
  exact ⟨vas, hLog, .inl hLatched⟩

theorem Faultless.trans_settled {x y z : Board × List Word} (h : Faultless x y) (h' : Settled y z) :
    Settled x z := by
  obtain ⟨vas, hLog, hLatched, hNone⟩ := h
  obtain ⟨vas', hLog', hLast⟩ := h'
  refine ⟨vas ++ vas', by rw [hLog', hLog, List.append_assoc], ?_⟩
  rcases hLast with hLatched' | hNone'
  · exact .inl (hLatched.trans hLatched')
  · right
    rw [lastViolation_congr hLatched.pageTable] at hNone'
    rw [lastViolation_append, hNone, hNone']
    rfl

theorem faultless_read {va : Word} {x : Board × List Word} (h : ¬ x.1.mmu.faults va) :
    Faultless x (machineBus.logged.readByte va x).2 :=
  ⟨[va], rfl, latchedBy_read x.1 va, lastViolation_of_mapped h⟩

/-- One write settles: if it goes to the page table it is mapped. -/
theorem settled_write (va : Word) (byte : Byte) (x : Board × List Word) :
    Settled x (machineBus.logged.writeByte va byte x) := by
  by_cases hEntry : InPageTable (physicalAddress x.1.mmu va)
  · exact ⟨[va], rfl, .inr (lastViolation_of_mapped (not_faults_of_inPageTable hEntry))⟩
  · exact (latched_write byte hEntry).settled

/-- With the kernel in front nothing but near addresses has been read, and no register changed. -/
def Fetches (c c' : Ctx (Board × List Word)) : Prop :=
  KernelInFront c.bus.1.mmu.pageTable → Faultless c.bus c'.bus ∧ c'.cpu = c.cpu

instance : Std.Refl Fetches :=
  ⟨fun c _ => ⟨⟨[], by simp, latchedBy_nil c.bus.1, rfl⟩, rfl⟩⟩

instance : IsTrans (Ctx (Board × List Word)) Fetches := by
  refine ⟨fun a b c hab hbc hFront => ?_⟩
  obtain ⟨⟨vas, hLog, hLatched, hNone⟩, hCpu⟩ := hab hFront
  obtain ⟨⟨vas', hLog', hLatched', hNone'⟩, hCpu'⟩ := hbc (hLatched.pageTable ▸ hFront)
  refine ⟨⟨vas ++ vas', by rw [hLog', hLog, List.append_assoc], hLatched.trans hLatched', ?_⟩,
    hCpu'.trans hCpu⟩
  rw [lastViolation_congr hLatched.pageTable] at hNone'
  rw [lastViolation_append, hNone, hNone']
  rfl

theorem keeps_fetches {va : Word} (h : Near va) :
    Keeps Fetches (mcs6502ReadByte machineBus.logged va) :=
  fun _ hFront => ⟨faultless_read (h.not_faults hFront), rfl⟩

theorem keeps_fetches_word {va : Word} (h : Near va) (h' : Near (va + 1)) :
    Keeps Fetches (readWordAtAddress machineBus.logged va) :=
  keeps_bind (keeps_fetches h) fun _ => keeps_bind (keeps_fetches h') fun _ => keeps_pure _

theorem near_next {pc : Word} (h : 0xf000 ≤ pc.toNat) : Near (pc + 1) := by
  unfold Near
  bv_omega

theorem near_next_next {pc : Word} (h : 0xf000 ≤ pc.toNat) : Near (pc + 1 + 1) := by
  unfold Near
  bv_omega

theorem near_zeroPage (byte : Byte) : Near (byte.setWidth 16) := by
  left
  rw [BitVec.toNat_setWidth]
  omega

theorem near_zeroPage_next (byte : Byte) : Near (byte.setWidth 16 + 1) := by
  left
  have hByte := byte.isLt
  have hOne : (1 : Word).toNat = 1 := rfl
  rw [BitVec.toNat_add, BitVec.toNat_setWidth, hOne]
  omega

/-- The address of an operand is computed from near bytes, except through a pointer of `JMP`. -/
theorem fetches_effective {i : Instruction} (hMode : i.mode ≠ .indirect)
    {c : Ctx (Board × List Word)} (hPc : 0xf000 ≤ c.cpu.pc.toNat) :
    Fetches c ((effectiveOperandAddress machineBus.logged i).run c).2 := by
  have hGet : (getCpu : CoreM (Board × List Word) Cpu).run c = (c.cpu, c) := rfl
  have hNext := near_next hPc
  have hWord := keeps_fetches_word hNext (near_next_next hPc)
  unfold effectiveOperandAddress
  rw [run_bind_eq hGet]
  refine (?_ : Keeps Fetches _) c
  cases hEq : i.mode with
  | indirect => exact absurd hEq hMode
  | _ =>
    repeat' with_reducible first
      | exact keeps_pure _
      | exact keeps_fetches hNext
      | exact hWord
      | exact keeps_fetches_word (near_zeroPage _) (near_zeroPage_next _)
      | refine keeps_bind ?_ fun _ => ?_

/-! ## §5 The address computed again -/

section Again

variable {b : Board} {pc va : Word}

/-- The word behind the opcode. -/
def operandWord (b : Board) (pc : Word) : Word :=
  wordOf (machineRead (pc + 1) b).1 (machineRead (pc + 1 + 1) (machineRead (pc + 1) b).2).1

/-- The board when it has been read. -/
def operandBoard (b : Board) (pc : Word) : Board :=
  (machineRead (pc + 1 + 1) (machineRead (pc + 1) b).2).2

/-- The board with a violation latched. -/
def Board.latch (b : Board) (va : Word) : Board :=
  { b with mmu := { b.mmu with va := va, pendingNmi := true } }

/-- A violating read only latches. -/
theorem machineRead_of_faults (h : b.mmu.faults va) : (machineRead va b).2 = b.latch va := by
  have hAddress : physicalAddress b.mmu va = unmappedAddress := if_pos h
  have hMmu : mmuTranslate b.mmu va = { b.mmu with va := va, pendingNmi := true } := if_pos h
  have hRx : unmappedAddress ≠ uartRx := by decide
  show readEffect (b.translate va) (physicalAddress b.mmu va) = b.latch va
  rw [hAddress, readEffect, if_neg hRx, Board.translate, hMmu]
  rfl

/-- The latched address shows in two registers and nowhere else. -/
theorem readPhysical_latch (b : Board) (va : Word) {addr : Nat} (hLow : addr ≠ mmuVaRegisterLow)
    (hHigh : addr ≠ mmuVaRegisterHigh) : readPhysical (b.latch va) addr = readPhysical b addr := by
  unfold readPhysical
  rw [if_neg hLow, if_neg hLow, if_neg hHigh, if_neg hHigh]
  rfl

theorem readPhysical_latch_low (b : Board) (va : Word) :
    readPhysical (b.latch va) mmuVaRegisterLow = lowByte va := rfl

theorem readPhysical_latch_high (b : Board) (va : Word) :
    readPhysical (b.latch va) mmuVaRegisterHigh = highByte va := rfl

theorem readEffect_of_ne (b : Board) {addr : Nat} (h : addr ≠ uartRx) : readEffect b addr = b :=
  if_neg h

theorem readEffect_mmu (b : Board) (addr : Nat) : (readEffect b addr).mmu = b.mmu := by
  unfold readEffect
  split <;> rfl

theorem readEffect_latch (b : Board) (va : Word) (addr : Nat) :
    readEffect (b.latch va) addr = (readEffect b addr).latch va := by
  unfold readEffect
  split <;> rfl

/-- What a read changes shows in the status register only. -/
theorem readPhysical_readEffect (b : Board) (q : Nat) {addr : Nat} (h : addr ≠ uartStat) :
    readPhysical (readEffect b q) addr = readPhysical b addr := by
  unfold readEffect
  split
  · unfold readPhysical
    rw [if_neg h, if_neg h]
  · rfl

theorem readPhysical_readEffect_self (b : Board) (addr : Nat) :
    readPhysical (readEffect b addr) addr = readPhysical b addr := by
  by_cases h : addr = uartRx
  · exact readPhysical_readEffect b addr (by rw [h]; decide)
  · rw [readEffect_of_ne b h]

theorem readEffect_readEffect (b : Board) (addr : Nat) :
    readEffect (readEffect b addr) addr = readEffect b addr := by
  by_cases h : addr = uartRx
  · unfold readEffect
    rw [if_pos h, if_pos h]
    simp [BitVec.and_assoc]
  · rw [readEffect_of_ne b h, readEffect_of_ne b h]

/-- A read through a valid entry. -/
theorem machineRead_mapped (h : ¬ b.mmu.faults va) :
    machineRead va b = (readPhysical b (physicalAddress b.mmu va),
      readEffect b (physicalAddress b.mmu va)) := by
  show (readPhysical { b with mmu := mmuTranslate b.mmu va } _,
    readEffect { b with mmu := mmuTranslate b.mmu va } _) = _
  rw [mmuTranslate_of_not_faults h]

/-- The two bytes behind the opcode and what reading them changes. -/
theorem operand_run (h : KernelInFront b.mmu.pageTable) (hPc : 0xf000 ≤ pc.toNat) :
    operandWord b pc = wordOf (readPhysical b (physicalAddress b.mmu (pc + 1)))
        (readPhysical (readEffect b (physicalAddress b.mmu (pc + 1)))
          (physicalAddress b.mmu (pc + 1 + 1))) ∧
      operandBoard b pc = readEffect (readEffect b (physicalAddress b.mmu (pc + 1)))
        (physicalAddress b.mmu (pc + 1 + 1)) := by
  have hSecond : ¬ (readEffect b (physicalAddress b.mmu (pc + 1))).mmu.faults (pc + 1 + 1) := by
    rw [readEffect_mmu]
    exact (near_next_next hPc).not_faults h
  unfold operandWord operandBoard
  rw [machineRead_mapped ((near_next hPc).not_faults h), machineRead_mapped hSecond, readEffect_mmu]
  exact ⟨rfl, rfl⟩

/-- The operand bytes lie side by side, and where they are device registers the address tells
    which. -/
theorem operand_places (h : KernelInFront b.mmu.pageTable) (hPc : 0xf000 ≤ pc.toNat) {p q : Nat}
    (hp : p = physicalAddress b.mmu (pc + 1)) (hq : q = physicalAddress b.mmu (pc + 1 + 1))
    (hDevice : p < 0xffff ∨ 0xf001 ≤ q ∧ q < 0x10000) : q = p + 1 := by
  subst hp hq
  have hOne : (pc + 1).toNat = (pc.toNat + 1) % 0x10000 := BitVec.toNat_add pc 1
  have hTwo : (pc + 1 + 1).toNat = ((pc + 1).toNat + 1) % 0x10000 := BitVec.toNat_add (pc + 1) 1
  have hFirst : 0xf000 ≤ (pc + 1).toNat ∨ (pc + 1).toNat < 0xf000 := by omega
  have hSecond : 0xf000 ≤ (pc + 1 + 1).toNat ∨ (pc + 1 + 1).toNat < 0xf000 := by omega
  rcases hFirst with hHigh | hLow
  · rw [h.physical_high hHigh] at hDevice ⊢
    rcases hSecond with hHigh' | hLow'
    · rw [h.physical_high hHigh'] at hDevice ⊢
      omega
    · have := h.physical_low hLow'
      omega
  · have := h.physical_low hLow
    rcases hSecond with hHigh' | hLow'
    · rw [h.physical_high hHigh'] at hDevice
      omega
    · have := h.physical_low hLow'
      omega

/-- A byte that is not the register of the violating address is read again as it was. -/
theorem reread_low (b : Board) (va : Word) {p q : Nat} (hStat : q = uartRx → p ≠ uartStat)
    (hLow : p ≠ mmuVaRegisterLow) (hHigh : p ≠ mmuVaRegisterHigh) :
    readPhysical ((readEffect (readEffect b p) q).latch va) p = readPhysical b p := by
  rw [readPhysical_latch _ _ hLow hHigh]
  by_cases hRx : q = uartRx
  · rw [readPhysical_readEffect _ _ (hStat hRx), readPhysical_readEffect_self]
  · rw [readEffect_of_ne _ hRx, readPhysical_readEffect_self]

theorem reread_high (b : Board) (va : Word) {p q : Nat} (hLow : q ≠ mmuVaRegisterLow)
    (hHigh : q ≠ mmuVaRegisterHigh) :
    readPhysical ((readEffect (readEffect (readEffect b p) q) p).latch va) q =
      readPhysical (readEffect b p) q := by
  rw [readPhysical_latch _ _ hLow hHigh]
  by_cases hRx : q = uartRx
  · have hStat : q ≠ uartStat := by rw [hRx]; decide
    rw [readPhysical_readEffect _ _ hStat, readPhysical_readEffect_self]
  · rw [readEffect_of_ne (readEffect b p) hRx, readEffect_readEffect]

/-- What the operand bytes at `p` and `q` are behind a violation: as they were, or the register of
    the violating address shows in one of them or in both. -/
theorem reread_cases (b : Board) (va : Word) {p q : Nat}
    (hPlaces : p < 0xffff ∨ 0xf001 ≤ q ∧ q < 0x10000 → q = p + 1) {lo hi : Byte}
    (hLo : lo = readPhysical ((readEffect (readEffect b p) q).latch va) p)
    (hHi : hi = readPhysical ((readEffect (readEffect (readEffect b p) q) p).latch va) q) :
    lo = readPhysical b p ∧ hi = readPhysical (readEffect b p) q ∨
      lo = lowByte va ∧ hi = highByte va ∨
      lo = highByte va ∧ hi = readPhysical (readEffect b p) q ∨
      lo = readPhysical b p ∧ hi = lowByte va := by
  subst hLo hHi
  have hLow := reread_low b va (p := p) (q := q)
  have hHigh := reread_high b va (p := p) (q := q)
  unfold uartRx uartStat at hLow
  by_cases hFirst : p = mmuVaRegisterLow
  · -- both bytes are the register
    have hq : q = mmuVaRegisterHigh := by
      unfold mmuVaRegisterLow mmuVaRegisterHigh at *
      omega
    exact .inr (.inl ⟨by rw [hFirst, readPhysical_latch_low], by rw [hq, readPhysical_latch_high]⟩)
  by_cases hSecond : p = mmuVaRegisterHigh
  · -- the high byte of the register and the byte of memory behind it
    have hBehind : q ≠ mmuVaRegisterLow ∧ q ≠ mmuVaRegisterHigh := by
      unfold mmuVaRegisterLow mmuVaRegisterHigh at *
      omega
    exact .inr (.inr (.inl ⟨by rw [hSecond, readPhysical_latch_high],
      hHigh hBehind.1 hBehind.2⟩))
  by_cases hThird : q = mmuVaRegisterLow
  · -- the cause of the last trap and the low byte of the register
    refine .inr (.inr (.inr ⟨hLow (fun hRx => ?_) hFirst hSecond, ?_⟩))
    · unfold mmuVaRegisterLow at hThird
      omega
    · rw [hThird, readPhysical_latch_low]
  · refine .inl ⟨hLow (fun hRx => ?_) hFirst hSecond, hHigh hThird fun hLast => ?_⟩
    · omega
    · unfold mmuVaRegisterLow mmuVaRegisterHigh at *
      omega

/-- If the second address is in the page table the first one is near: they differ in few bits. -/
theorem near_of_reread {lo hi lo' hi' : Byte} {index va : Word} (hIndex : index.toNat < 0x100)
    (hVa : va = wordOf lo hi + index) (hBase : 0xfe20 ≤ (wordOf lo' hi' + index).toNat)
    (hTop : (wordOf lo' hi' + index).toNat < 0xfe30)
    (hBytes : lo' = lo ∧ hi' = hi ∨ lo' = lowByte va ∧ hi' = highByte va ∨
      lo' = highByte va ∧ hi' = hi ∨ lo' = lo ∧ hi' = lowByte va) : Near va := by
  have hFirst : va.toNat = (hi.toNat * 256 + lo.toNat + index.toNat) % 0x10000 := by
    rw [hVa, BitVec.toNat_add, toNat_wordOf]
  rw [BitVec.toNat_add, toNat_wordOf] at hBase hTop
  have hLo := lo.isLt
  have hHi := hi.isLt
  unfold Near
  rcases hBytes with ⟨rfl, rfl⟩ | ⟨rfl, rfl⟩ | ⟨rfl, rfl⟩ | ⟨rfl, rfl⟩
  · omega
  · rw [toNat_lowByte, toNat_highByte] at hBase hTop
    omega
  · -- the high byte is the same, so that the second one is less than two pages higher
    rw [toNat_highByte] at hBase hTop
    by_contra hFar
    have hNoCarry : hi'.toNat * 256 + lo.toNat + index.toNat < 0x10000 := by omega
    have hPage : hi'.toNat ≤ 0xef := by omega
    have hByte : va.toNat / 256 < 0x100 := by omega
    rw [Nat.mod_eq_of_lt (by omega)] at hBase
    omega
  · -- the low byte is the same, and becomes the high byte of the second one
    rw [toNat_lowByte] at hBase hTop
    have hSame : va.toNat % 256 = (lo'.toNat + index.toNat) % 256 := by omega
    have hPage : (va.toNat % 256 * 256 + lo'.toNat + index.toNat) % 0x10000 % 256 =
        va.toNat % 256 := by omega
    have hByte : va.toNat % 256 < 0x30 := by omega
    rw [Nat.mod_eq_of_lt (by omega)] at hBase
    omega

/-- **The address of a write is computed again behind a violation.** If the first one violates,
    the second one is not in the page table, although a byte of the operand may be the register
    that has latched the first. -/
theorem rereads_outside (h : KernelInFront b.mmu.pageTable) (hPc : 0xf000 ≤ pc.toNat) {index : Word}
    (hIndex : index.toNat < 0x100) (hFault : b.mmu.faults (operandWord b pc + index)) :
    ¬ InPageTable (physicalAddress b.mmu
      (operandWord ((operandBoard b pc).latch (operandWord b pc + index)) pc + index)) := by
  intro hEntry
  -- then the first address would be near, and mapped
  refine (?_ : Near (operandWord b pc + index)).not_faults h hFault
  obtain ⟨hBase, hTop⟩ := h.of_inPageTable hEntry
  obtain ⟨hWord, hBoard⟩ := operand_run h hPc
  generalize hVa : operandWord b pc + index = va at *
  have hTable : ((operandBoard b pc).latch va).mmu.pageTable = b.mmu.pageTable := by
    show (operandBoard b pc).mmu.pageTable = _
    rw [hBoard, readEffect_mmu, readEffect_mmu]
  have hPhysical : ∀ a, physicalAddress ((operandBoard b pc).latch va).mmu a =
      physicalAddress b.mmu a := fun a => by rw [physicalAddress, physicalAddress, hTable]
  rw [(operand_run (hTable ▸ h) hPc).1, hPhysical, hPhysical, readEffect_latch, hBoard]
    at hBase hTop
  exact near_of_reread hIndex (hVa.symm.trans (congrArg (· + index) hWord)) hBase hTop
    (reread_cases b va (operand_places h hPc rfl rfl) rfl rfl)

end Again

/-! ## §6 An instruction behind the kernel's mapping -/

section Core

variable {σ : Type} {bus : DataBus σ} {m : Mnemonic} {i : Instruction}

/-- Behind the operation of an instruction only registers change. -/
theorem execute_bus (i : Instruction) (c : Ctx σ) :
    ((execute bus i).run c).2.bus =
      ((executeOp bus i.mnemonic (operandOf bus i) (executeConditionalBranch bus i)).run c).2.bus := by
  have hGet : (getCpu : CoreM σ Cpu).run c = (c.cpu, c) := rfl
  unfold execute
  rw [run_bind_eq hGet]
  dsimp only
  generalize hOp : (executeOp bus i.mnemonic (operandOf bus i)
    (executeConditionalBranch bus i)).run c = r
  obtain ⟨doNotUpdatePC, e⟩ := r
  rw [run_bind_eq hOp]
  cases doNotUpdatePC <;> rfl

/-- A store of a register writes once, behind the computation of the address. -/
theorem executeOp_stores (h : m.stores = true) (o : Operand σ) (branch : Bool → CoreM σ Unit)
    (c : Ctx σ) : ∃ byte, ((executeOp bus m o branch).run c).2.bus =
      bus.writeByte (o.address.run c).1 byte (o.address.run c).2.bus := by
  cases m
  case sta => exact ⟨_, rfl⟩
  case stx => exact ⟨_, rfl⟩
  case sty => exact ⟨_, rfl⟩
  all_goals cases h

/-- A change of the operand reads it and writes it, and nothing else but flags in between. -/
theorem executeOp_writes (h : m.writes = true) (o : Operand σ) (branch : Bool → CoreM σ Unit)
    (c : Ctx σ) : ∃ byte cpu', ((executeOp bus m o branch).run c).2.bus =
        ((o.write byte).run ⟨cpu', (o.read.run c).2.bus⟩).2.bus ∧
      cpu'.pc = (o.read.run c).2.cpu.pc ∧ cpu'.x = (o.read.run c).2.cpu.x := by
  cases m
  case asl => exact ⟨_, _, rfl, rfl, rfl⟩
  case lsr => exact ⟨_, _, rfl, rfl, rfl⟩
  case rol => exact ⟨_, _, rfl, rfl, rfl⟩
  case ror => exact ⟨_, _, rfl, rfl, rfl⟩
  case inc => exact ⟨_, _, rfl, rfl, rfl⟩
  case dec => exact ⟨_, _, rfl, rfl, rfl⟩
  all_goals cases h

/-- Reading an operand in memory: the address is computed, and then the byte there is read. -/
theorem readOperandValue_run (bus : DataBus σ) (hMode : i.mode.inMemory = true) (c : Ctx σ) :
    let computed := (effectiveOperandAddress bus i).run c
    ((readOperandValue bus i).run c).2.bus = (bus.readByte computed.1.1 computed.2.bus).2 ∧
      ((readOperandValue bus i).run c).2.cpu.pc = computed.2.cpu.pc ∧
      ((readOperandValue bus i).run c).2.cpu.x = computed.2.cpu.x := by
  unfold readOperandValue
  cases hEq : i.mode
  all_goals first
    | (rw [hEq] at hMode; cases hMode; done)
    | (dsimp only
       generalize hAddress : (effectiveOperandAddress bus i).run c = computed
       obtain ⟨⟨addr, crosses⟩, e⟩ := computed
       rw [run_bind_eq hAddress]
       dsimp only
       split <;> exact ⟨rfl, rfl, rfl⟩)

theorem writeResult_run (hMode : i.mode.inMemory = true) (byte : Byte) (c : Ctx σ) :
    let computed := (effectiveOperandAddress bus i).run c
    ((writeResult bus i byte).run c).2.bus = bus.writeByte computed.1.1 byte computed.2.bus := by
  unfold writeResult
  cases hEq : i.mode
  all_goals first
    | rfl
    | (rw [hEq] at hMode; cases hMode)

/-- What the mode adds to the address behind the opcode. -/
def indexOf (mode : AddressingMode) (cpu : Cpu) : Word :=
  if mode = .absoluteX then cpu.x.setWidth 16 else 0

theorem indexOf_lt (mode : AddressingMode) (cpu : Cpu) : (indexOf mode cpu).toNat < 0x100 := by
  unfold indexOf
  split
  · rw [BitVec.toNat_setWidth]
    omega
  · decide

/-- The address of an operand in the zero page. -/
theorem effective_zeroPage (bus : DataBus σ) (hMode : i.mode = .zeroPage ∨ i.mode = .zeroPageX)
    (c : Ctx σ) :
    ∃ byte : Byte, ((effectiveOperandAddress bus i).run c).1.1 = byte.setWidth 16 := by
  unfold effectiveOperandAddress
  rcases hMode with hMode | hMode
  · rw [hMode]
    exact ⟨_, rfl⟩
  · rw [hMode]
    exact ⟨_, rfl⟩

/-- The address of an operand anywhere. -/
theorem effective_absolute (hMode : i.mode = .absolute ∨ i.mode = .absoluteX)
    (c : Ctx (Board × List Word)) :
    let computed := (effectiveOperandAddress machineBus.logged i).run c
    computed.1.1 = operandWord c.bus.1 c.cpu.pc + indexOf i.mode c.cpu ∧
      computed.2.bus.1 = operandBoard c.bus.1 c.cpu.pc := by
  unfold effectiveOperandAddress
  rcases hMode with hMode | hMode
  · rw [hMode]
    exact ⟨(BitVec.add_zero _).symm, rfl⟩
  · rw [hMode]
    exact ⟨rfl, rfl⟩

end Core

section Settle

variable {i : Instruction} {c : Ctx (Board × List Word)}

/-- Behind the kernel's mapping, too, the stack page and the zero page are the program's. -/
theorem KernelInFront.low_outside {u : Mmu} (h : KernelInFront u.pageTable) {va : Word}
    (hVa : va.toNat < 0xf000) : ¬ InPageTable (physicalAddress u va) := by
  intro hEntry
  have hBase := (h.of_inPageTable hEntry).1
  unfold mmuPageTable at hBase
  omega

theorem keptByPushes_latched :
    KeptByPushes machineBus.logged (OnBus (LatchedWith KernelInFront)) where
  read va c _ := latched_read va c.bus
  registers c _ _ _ := Std.Refl.refl c.bus
  push sp byte c hFront := latched_write byte (hFront.low_outside (by
    rw [stackAddress_toNat]
    omega))

/-- The instructions that change their operand reach it in these modes. -/
theorem modes_of_writes : ∀ i ∈ instructions, i.mnemonic.writes = true →
    i.mode = .accumulator ∨ (i.mode = .zeroPage ∨ i.mode = .zeroPageX) ∨
      (i.mode = .absolute ∨ i.mode = .absoluteX) := by
  decide +kernel

theorem stores_direct : ∀ i ∈ instructions, i.mnemonic.stores = true → i.mode ≠ .indirect := by
  decide +kernel

theorem keeps_write_zeroPage (hMode : i.mode = .zeroPage ∨ i.mode = .zeroPageX) (byte : Byte) :
    Keeps (OnBus (LatchedWith KernelInFront)) (writeResult machineBus.logged i byte) := by
  intro c hFront
  have hMemory : i.mode.inMemory = true := by
    rcases hMode with hMode | hMode <;> rw [hMode] <;> rfl
  have hComputed : Latched c.bus ((effectiveOperandAddress machineBus.logged i).run c).2.bus :=
    keeps_effectiveOperandAddress keptByPushes_latched.toKeptByReads i c hFront
  obtain ⟨low, hLow⟩ := effective_zeroPage machineBus.logged hMode c
  rw [writeResult_run hMemory, hLow]
  refine hComputed.trans (latched_write byte ?_)
  refine KernelInFront.low_outside (hComputed.pageTable ▸ hFront) ?_
  rw [BitVec.toNat_setWidth]
  omega

/-- A read, the address again, and the write: it may go to the page table only if the read is no
    violation. -/
theorem settled_write_behind {w x y z : Board × List Word} {va va' : Word} (byte : Byte)
    (h : Faultless w y) (hRead : (machineBus.logged.readByte va y).2 = x) (h' : Faultless x z)
    (hOutside : w.1.mmu.faults va → ¬ InPageTable (physicalAddress z.1.mmu va')) :
    Settled w (machineBus.logged.writeByte va' byte z) := by
  subst hRead
  by_cases hFault : w.1.mmu.faults va
  · exact (((h.latched.trans (latched_read va y)).trans h'.latched).trans
      (latched_write byte (hOutside hFault))).settled
  · have hMapped : ¬ y.1.mmu.faults va := by
      rw [Mmu.faults, h.latched.pageTable]
      exact hFault
    exact h.trans_settled ((faultless_read hMapped).trans_settled
      (h'.trans_settled (settled_write va' byte z)))

/-- A change of an operand that may be anywhere, and may be a register of the MMU. -/
theorem settled_rewrite (hWrites : i.mnemonic.writes = true)
    (hMode : i.mode = .absolute ∨ i.mode = .absoluteX)
    (hFront : KernelInFront c.bus.1.mmu.pageTable) (hPc : 0xf000 ≤ c.cpu.pc.toNat) :
    Settled c.bus ((execute machineBus.logged i).run c).2.bus := by
  have hMemory : i.mode.inMemory = true := by
    rcases hMode with hMode | hMode <;> rw [hMode] <;> rfl
  have hDirect : i.mode ≠ .indirect := by
    rcases hMode with hMode | hMode <;> rw [hMode] <;> decide
  obtain ⟨byte, cpu', hBus, hPc', hX'⟩ := executeOp_writes hWrites (operandOf machineBus.logged i)
    (executeConditionalBranch machineBus.logged i) c
  obtain ⟨hRead, hReadPc, hReadX⟩ := readOperandValue_run machineBus.logged hMemory c
  obtain ⟨hFirst, hCpu⟩ := fetches_effective hDirect hPc hFront
  obtain ⟨hAddress, hBoard⟩ := effective_absolute hMode c
  rw [execute_bus, hBus]
  show Settled c.bus ((writeResult machineBus.logged i byte).run
    ⟨cpu', ((readOperandValue machineBus.logged i).run c).2.bus⟩).2.bus
  rw [writeResult_run hMemory, hRead]
  -- between the two computations of the address only flags and the bus have changed
  have hSamePc : cpu'.pc = c.cpu.pc := (hPc'.trans hReadPc).trans (congrArg Cpu.pc hCpu)
  have hIndex : indexOf i.mode cpu' = indexOf i.mode c.cpu := by
    rw [indexOf, indexOf, (hX'.trans hReadX).trans (congrArg Cpu.x hCpu)]
  generalize (effectiveOperandAddress machineBus.logged i).run c = computed at *
  obtain ⟨⟨va, crosses⟩, e⟩ := computed
  dsimp only at *
  have hTable := (latched_read va e.bus).pageTable.trans hFirst.latched.pageTable
  generalize hBehind : (machineBus.logged.readByte va e.bus).2 = x at *
  obtain ⟨hAgain, -⟩ := fetches_effective (c := ⟨cpu', x⟩) hDirect (hSamePc ▸ hPc)
    (hTable ▸ hFront)
  obtain ⟨hAddress', -⟩ := effective_absolute hMode ⟨cpu', x⟩
  refine settled_write_behind byte hFirst hBehind hAgain fun hFault => ?_
  -- the second address is computed from a board that has latched the first one
  have hLatch : x.1 = (operandBoard c.bus.1 c.cpu.pc).latch va := by
    rw [← hBehind, ← hBoard]
    refine machineRead_of_faults ?_
    rw [Mmu.faults, hFirst.latched.pageTable]
    exact hFault
  rw [physicalAddress, hAgain.latched.pageTable, hTable, hAddress', hLatch, hSamePc, hIndex,
    hAddress]
  exact rereads_outside hFront hPc (indexOf_lt _ _) (hAddress ▸ hFault)

theorem settled_store (hStores : i.mnemonic.stores = true) (hMode : i.mode ≠ .indirect)
    (hFront : KernelInFront c.bus.1.mmu.pageTable) (hPc : 0xf000 ≤ c.cpu.pc.toNat) :
    Settled c.bus ((execute machineBus.logged i).run c).2.bus := by
  obtain ⟨byte, hBus⟩ := executeOp_stores hStores (operandOf machineBus.logged i)
    (executeConditionalBranch machineBus.logged i) c
  obtain ⟨hQuiet, -⟩ := fetches_effective hMode hPc hFront
  rw [execute_bus, hBus]
  exact hQuiet.trans_settled (settled_write _ byte _)

/-- **Every instruction of the table settles**, although it may be a byte of the kernel's frame that
    the core executes at the program's own address. -/
theorem settled_execute (hTable : i ∈ instructions)
    (hFront : KernelInFront c.bus.1.mmu.pageTable) (hPc : 0xf000 ≤ c.cpu.pc.toNat) :
    Settled c.bus ((execute machineBus.logged i).run c).2.bus := by
  by_cases hStores : i.mnemonic.stores = true
  · exact settled_store hStores (stores_direct i hTable hStores) hFront hPc
  by_cases hAnywhere : i.mnemonic.writes = true ∧ (i.mode = .absolute ∨ i.mode = .absoluteX)
  · exact settled_rewrite hAnywhere.1 hAnywhere.2 hFront hPc
  -- the others write to the stack page and the zero page at most
  refine Latched.settled (keeps_execute_pushing keptByPushes_latched (fun _ _ _ => ?_)
    (fun hWrites byte => ?_) (fun h => absurd h hStores) c hFront)
  · exact Std.Refl.refl _
  · rcases modes_of_writes i hTable hWrites with hMode | hMode | hMode
    · unfold writeResult
      rw [hMode]
      exact fun c => Std.Refl.refl c.bus
    · exact keeps_write_zeroPage hMode byte
    · exact absurd ⟨hWrites, hMode⟩ hAnywhere

end Settle

/-- With the kernel in front, too, the core's step latches the last violation among its accesses, if
    there is one. -/
theorem execNext_front {m : Machine} (hFront : KernelInFront m.bus.mmu.pageTable)
    (hPc : 0xf000 ≤ m.cpu.pc.toNat) (hNmi : m.cpu.nmiPending = false)
    (hIrq : m.cpu.irqPending = false) {va : Word}
    (hLast : lastViolation m.bus.mmu (accesses machineBus m) = some va) :
    LatchedBy m.bus (execNext m).bus (accesses machineBus m) := by
  let c : Ctx (Board × List Word) :=
    ⟨{ m.cpu with pendingTiming := 0, timingForLastOperation := 0 }, m.bus, []⟩
  have hOpcode : Faultless c.bus (machineBus.logged.readByte c.cpu.pc c.bus).2 :=
    faultless_read (Near.not_faults (.inr hPc) hFront)
  have hSettled : Settled (m.bus, []) ((mcs6502ExecNext machineBus.logged).run
      ⟨m.cpu, m.bus, []⟩).2.bus := by
    rw [execNext_run, if_neg (by simp [hNmi]), if_neg (by simp [hIrq])]
    show Settled c.bus ((fetchExecute machineBus.logged).run c).2.bus
    cases hTable : opcodeTable (machineBus.logged.readByte c.cpu.pc c.bus).1 with
    | none =>
      rw [fetchExecute_invalid hTable]
      exact hOpcode.latched.settled
    | some i =>
      rw [fetchExecute_run hTable]
      exact hOpcode.trans_settled (settled_execute (c := ⟨c.cpu, _⟩) (mem_of_table hTable)
        (hOpcode.latched.pageTable ▸ hFront) hPc)
  obtain ⟨vas, hLog, hLatched⟩ := execNext_of_logged hSettled
  have hVas : accesses machineBus m = vas := hLog
  rw [← hVas] at hLatched
  rcases hLatched with hLatched | hNone
  · exact hLatched
  · rw [hLast] at hNone
    cases hNone

end Xv6502.Emulator
