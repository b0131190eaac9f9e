import Xv6502.Emulator.BusMemory
import Xv6502.Emulator.CodeInMemory
import Xv6502.Emulator.MachineRuns

/-!
# Assembly Code of the Kernel on the Machine

The assembly code of the kernel lies in front of the device page of the last segment, where it stays
in place while the page table is rewritten. With interrupts masked the machine executes it line by
line (`run_path`), whatever the devices do in between: they see neither the registers nor the memory
nor the page table (`Inner`).
-/

namespace Xv6502.Emulator

open Xv6502.Lib

/-! ## §1 The last segment -/

section LastSegment

variable {b : Board} {addr : Word}

theorem physicalAddress_last {u : Mmu} (hKernel : u.pageTable mmuLastSegment = kernelFrame)
    (hBase : 0xf000 ≤ addr.toNat) : physicalAddress u addr = addr.toNat ∧ ¬ u.faults addr := by
  have hSegment : segmentOf addr = mmuLastSegment := by
    apply Fin.ext
    show addr.toNat / 0x1000 = 15
    omega
  have hEntry : u.pageTable (segmentOf addr) = kernelFrame := by rw [hSegment, hKernel]
  constructor
  · rw [physicalAddress, hEntry, if_neg (by decide)]
    show 15 * 0x1000 + addr.toNat % 0x1000 = addr.toNat
    omega
  · rw [Mmu.faults, hEntry]
    decide

/-- A byte in front of the device page. -/
theorem machineRead_last (hKernel : b.mmu.pageTable mmuLastSegment = kernelFrame)
    (hBase : 0xf000 ≤ addr.toNat) (hTop : addr.toNat < 0xfc00) :
    machineRead addr b = (b.ram addr.toNat, b) := by
  obtain ⟨hPhysical, hMapped⟩ := physicalAddress_last hKernel hBase
  have hOutside : ¬ InDevicePage addr.toNat := fun h => by
    unfold InDevicePage at h
    omega
  have hRam : addr.toNat < ramSize := by
    unfold ramSize
    omega
  rw [machineRead, hPhysical, translate_of_not_faults hMapped, readPhysical_of_not_device b hOutside,
    if_pos hRam, readEffect_of_not_device b hOutside]

/-- Where the last segment is the kernel's, a store goes to the physical address it names. -/
theorem machineWrite_last (hKernel : b.mmu.pageTable mmuLastSegment = kernelFrame)
    (hBase : 0xf000 ≤ addr.toNat) (byte : Byte) :
    machineWrite addr byte b = writePhysical b addr.toNat byte := by
  obtain ⟨hPhysical, hMapped⟩ := physicalAddress_last hKernel hBase
  rw [machineWrite, hPhysical, translate_of_not_faults hMapped]

end LastSegment

/-- The bytes lie in the kernel's frame of the last segment, in front of the device page. -/
structure CodeLies (start : Word) (bytes : List Byte) (ram : Nat → Byte) : Prop where
  base : 0xf000 ≤ start.toNat
  top : start.toNat + bytes.length ≤ 0xfc00
  byte : ∀ j byte, bytes[j]? = some byte → ram (start.toNat + j) = byte

/-- The kernel can execute the code. -/
def Executable (start : Word) (bytes : List Byte) (b : Board) : Prop :=
  b.mmu.pageTable mmuLastSegment = kernelFrame ∧ CodeLies start bytes b.ram

theorem reads_machine (start : Word) (bytes : List Byte) :
    Reads machineBus (Executable start bytes) start bytes where
  fetch j byte b hByte h := by
    obtain ⟨hKernel, hBase, hTop, hLies⟩ := h
    obtain ⟨hLess, -⟩ := List.getElem?_eq_some_iff.mp hByte
    have hAddr : (start + BitVec.ofNat 16 j).toNat = start.toNat + j := by
      rw [BitVec.toNat_add, BitVec.toNat_ofNat]
      omega
    show machineRead _ b = _
    rw [machineRead_last hKernel (by omega) (by omega), hAddr, hLies j byte hByte]
  reads addr b h := by
    -- a read moves latches and flags only
    have hRam : (machineRead addr b).2.ram = b.ram := by
      unfold machineRead readEffect
      dsimp only
      split <;> rfl
    have hTable : (machineRead addr b).2.mmu.pageTable = b.mmu.pageTable := by
      unfold machineRead readEffect
      dsimp only
      split <;> exact mmuTranslate_pageTable b.mmu addr
    obtain ⟨hKernel, hLies⟩ := h
    refine ⟨?_, ?_⟩
    · show (machineRead addr b).2.mmu.pageTable mmuLastSegment = kernelFrame
      rw [hTable, hKernel]
    · show CodeLies start bytes (machineRead addr b).2.ram
      rwa [hRam]

/-! ## §2 The machine without its devices -/

/-- What the kernel's assembly code works on. -/
structure Inner where
  a : Byte
  x : Byte
  y : Byte
  sp : Byte
  zero : Bool
  masked : Bool
  ram : Nat → Byte
  pageTable : Segment → Frame
  prev : Frame

/-- The machine without its devices, the cycles and the latches of the MMU. -/
def innerOf (m : Machine) : Inner where
  a := m.cpu.a
  x := m.cpu.x
  y := m.cpu.y
  sp := m.cpu.sp
  zero := m.cpu.isSet statusZ
  masked := m.cpu.isSet statusI
  ram := m.bus.ram
  pageTable := m.bus.mmu.pageTable
  prev := m.bus.mmu.prev

/-- The latches that the MMU looks at before and behind an instruction. -/
structure Latches where
  opcode : Byte
  inUser : Bool
  pendingNmi : Bool

def latchesOf (b : Board) : Latches := ⟨b.mmu.opcode, b.mmu.inUser, b.mmu.pendingNmi⟩

/-- The line takes every machine that shows the first state to one that shows the second, and
    leaves the latches alone: in particular no access is a violation. -/
def LineDoes (l : Line) (v w : Inner) : Prop :=
  ∀ m, innerOf m = v → innerOf (l.execute machineBus m) = w ∧
    latchesOf (l.execute machineBus m).bus = latchesOf m.bus

/-- A line and the state at it. -/
abbrev Spot := Nat × Inner

/-- The line at the first spot leads to the second one. -/
def Moves (code : List Line) (p q : Spot) : Prop :=
  ∃ l, code[p.1]? = some l ∧ l.Ok code p.1 ∧ LineDoes l p.2 q.2 ∧
    ∀ m, innerOf m = p.2 → l.next p.1 m.cpu = q.1

/-- Interrupts are masked, and the code is in place. -/
structure Quiet (start : Word) (code : List Line) (v : Inner) : Prop where
  masked : v.masked = true
  kernel : v.pageTable mmuLastSegment = kernelFrame
  code : CodeLies start (assemble code) v.ram

/-- A number of lines, one behind the other. -/
inductive Path (start : Word) (code : List Line) : Nat → Spot → Spot → Prop
  | nil (p : Spot) : Path start code 0 p p
  | cons {n : Nat} {p q r : Spot} (quiet : Quiet start code p.2) (head : Moves code p q)
      (tail : Path start code n q r) : Path start code (n + 1) p r

/-- The machine is between two instructions, at this spot. -/
structure AtSpot (start : Word) (code : List Line) (p : Spot) (m : Machine) : Prop where
  inner : innerOf m = p.2
  pc : m.cpu.pc = start + BitVec.ofNat 16 (offsetOfLine code p.1)
  idle : m.cpu.Idle
  clear : m.bus.mmu.pendingNmi = false

/-- What the machine does, an event after the other. -/
abbrev MachineRun : Machine → List MachineEvent → Machine → Prop :=
  Run fun m e k => e.perform m = some k

section Steps

variable {start : Word} {code : List Line} {p q r : Spot} {m k : Machine} {n n' : Nat}

theorem Path.append (h : Path start code n p q) (h' : Path start code n' q r) :
    Path start code (n + n') p r := by
  induction h with
  | nil p =>
    rw [Nat.zero_add]
    exact h'
  | cons quiet head _ ih =>
    rw [Nat.add_right_comm]
    exact .cons quiet head (ih h')

theorem innerOf_congr {m m' : Machine} (hWork : m.cpu.work = m'.cpu.work) (hBus : m.bus = m'.bus) :
    innerOf m = innerOf m' := by
  have hA : m.cpu.a = m'.cpu.a := congrArg Work.a hWork
  have hX : m.cpu.x = m'.cpu.x := congrArg Work.x hWork
  have hY : m.cpu.y = m'.cpu.y := congrArg Work.y hWork
  have hSp : m.cpu.sp = m'.cpu.sp := congrArg Work.sp hWork
  have hP : m.cpu.p = m'.cpu.p := congrArg Work.p hWork
  unfold innerOf Cpu.isSet
  rw [hA, hX, hY, hSp, hP, hBus]

/-- What the fetch of `MMU_pre_exec` latches. -/
def fetched (opcode : Byte) (m : Machine) : Machine :=
  m.setMmu fun u => { u with opcode := opcode, inUser := u.pageTable mmuLastSegment != kernelFrame }

/-- With interrupts masked in the kernel, `MMU_pre_exec` only latches the opcode. -/
theorem mmuPreExec_masked {opcode : Byte} (hRead : machineRead m.cpu.pc m.bus = (opcode, m.bus))
    (hKernel : m.bus.mmu.pageTable mmuLastSegment = kernelFrame)
    (hMasked : m.cpu.isSet statusI = true) (hClear : m.bus.mmu.pendingNmi = false)
    (hBrk : opcode ≠ opcodeBrk) : mmuPreExec m = fetched opcode m := by
  have hFetch : preExecFetch m = fetched opcode m := by
    unfold preExecFetch
    rw [hRead]
    rfl
  -- each of the three blocks has a test that fails: the mask, the mode, and no violation latched
  have hIrq : takesIrq (fetched opcode m) = false := by
    show (m.bus.plic.pendingIrq && !m.cpu.isSet statusI) = false
    rw [hMasked]
    simp
  have hUser : (fetched opcode m).bus.mmu.inUser = false := by
    show (m.bus.mmu.pageTable mmuLastSegment != kernelFrame) = false
    rw [hKernel]
    rfl
  have hIntercept : preExecIntercept (fetched opcode m) = fetched opcode m := by
    have hOpcode : ¬ (fetched opcode m).bus.mmu.opcode = opcodeBrk := hBrk
    rw [preExecIntercept, if_neg (by simp [hIrq]), if_neg hOpcode]
  have hWatchdog : preExecWatchdog (fetched opcode m) = fetched opcode m := by
    rw [preExecWatchdog_eq, hUser, if_neg (by simp)]
  have hViolation : preExecViolation (fetched opcode m) = fetched opcode m := by
    have hNone : ¬ (fetched opcode m).bus.mmu.pendingNmi = true := by
      show ¬ m.bus.mmu.pendingNmi = true
      simp [hClear]
    rw [preExecViolation_eq, if_neg hNone]
  rw [mmuPreExec, hFetch, hIntercept, hWatchdog, hViolation]

/-- The instructions that code goes on with are neither `BRK` nor `RTI`. -/
theorem opcode_of_ok : ∀ i ∈ instructions, i.mnemonic.straight = true ∨ i.mnemonic.conditional = true →
    i.opcode ≠ opcodeBrk ∧ i.opcode ≠ opcodeRti := by
  decide +kernel

theorem Line.Ok.opcode {l : Line} {k : Nat} (h : l.Ok code k) :
    l.instruction.opcode ≠ opcodeBrk ∧ l.instruction.opcode ≠ opcodeRti := by
  apply opcode_of_ok _ (mem_of_table h.1)
  cases l with
  | op i operand => exact .inl h.2
  | branch i label => exact .inr h.2.2.1

/-- At a quiet spot the code can be fetched, and interrupts are masked. -/
theorem AtSpot.executable (h : AtSpot start code p m) (hQuiet : Quiet start code p.2) :
    Executable start (assemble code) m.bus ∧ m.cpu.isSet statusI = true := by
  obtain ⟨hMasked, hKernel, hCode⟩ := hQuiet
  rw [← h.inner] at hMasked hKernel hCode
  exact ⟨⟨hKernel, hCode⟩, hMasked⟩

/-- **Step lemma**: an iteration executes a line. -/
theorem AtSpot.cpu (h : AtSpot start code p m) (hQuiet : Quiet start code p.2)
    (hMoves : Moves code p q) :
    cpuIteration m = some (cpuStepIteration m) ∧ AtSpot start code q (cpuStepIteration m) := by
  obtain ⟨l, hLine, hOk, hDoes, hNext⟩ := hMoves
  obtain ⟨hBrk, hRti⟩ := hOk.opcode
  obtain ⟨⟨hKernel, hLies⟩, hMasked⟩ := h.executable hQuiet
  have hAt := (reads_machine start (assemble code)).lineAt hLine
  have hRead : machineRead m.cpu.pc m.bus = (l.instruction.opcode, m.bus) := by
    rw [h.pc]
    exact hAt.opcode m.bus ⟨hKernel, hLies⟩
  have hPre := mmuPreExec_masked hRead hKernel hMasked h.clear hBrk
  -- the latches are not in the way of the core
  have hIrq : m.cpu.irqPending = false := congrArg InterruptQueue.irqPending h.idle
  have hNmi : m.cpu.nmiPending = false := congrArg InterruptQueue.nmiPending h.idle
  have hInner : innerOf (fetched l.instruction.opcode m) = p.2 := h.inner
  obtain ⟨hEnd, hLatches⟩ := hDoes _ hInner
  have hArrived : Arrived start code (fetched l.instruction.opcode m)
      ⟨p.1, fetched l.instruction.opcode m⟩ := ⟨rfl, rfl, h.pc, hIrq, hNmi⟩
  have hStep : stepLine machineBus code ⟨p.1, fetched l.instruction.opcode m⟩ =
      some ⟨l.next p.1 m.cpu, l.execute machineBus (fetched l.instruction.opcode m)⟩ := by
    show (code[p.1]?).map _ = _
    rw [hLine]
    rfl
  have hCore := hArrived.step hLine hOk hAt ⟨hKernel, hLies⟩ hStep
  have hKept : latchesOf (execNext (fetched l.instruction.opcode m)).bus =
      latchesOf (fetched l.instruction.opcode m).bus := by
    rw [← hLatches]
    exact congrArg latchesOf hCore.bus
  have hPost : cpuStepIteration m = execNext (fetched l.instruction.opcode m) := by
    have hOpcode : (execNext (fetched l.instruction.opcode m)).bus.mmu.opcode =
        l.instruction.opcode := congrArg Latches.opcode hKept
    rw [cpuStepIteration, hPre, mmuPostExec, hOpcode, if_neg fun hBoth => hRti hBoth.1]
  constructor
  · apply if_neg
    rw [hPre, execNext_invalid_iff]
    rintro ⟨-, -, hNone⟩
    have hAgain : machineBus.readByte m.cpu.pc (fetched l.instruction.opcode m).bus =
        (l.instruction.opcode, (fetched l.instruction.opcode m).bus) := by
      rw [h.pc]
      exact hAt.opcode _ ⟨hKernel, hLies⟩
    have hDecoded : opcodeTable (machineBus.readByte m.cpu.pc
        (fetched l.instruction.opcode m).bus).1 = none := hNone
    rw [hAgain, hOk.1] at hDecoded
    cases hDecoded
  · refine ⟨?_, ?_, cpuStepIteration_idle h.idle, ?_⟩
    · rw [hPost, ← hEnd]
      exact innerOf_congr hCore.work hCore.bus
    · rw [hPost, ← hNext m h.inner]
      exact hCore.pc
    · have hPending : (execNext (fetched l.instruction.opcode m)).bus.mmu.pendingNmi =
          m.bus.mmu.pendingNmi := congrArg Latches.pendingNmi hKept
      rw [hPost, hPending]
      exact h.clear

/-- The devices do not move the kernel. -/
theorem AtSpot.device {e : MachineEvent} {b : Board} (h : AtSpot start code p m)
    (hEvent : e.onBoard m.bus = some b) : AtSpot start code p ⟨m.cpu, b⟩ := by
  obtain ⟨hRam, hMmu⟩ := onBoard_frame hEvent
  refine ⟨?_, h.pc, h.idle, ?_⟩
  · rw [← h.inner]
    unfold innerOf
    rw [hRam, hMmu]
  · show b.mmu.pendingNmi = false
    rw [hMmu]
    exact h.clear

/-- **Run lemma**: after as many iterations as there are lines on the path the machine is at its
    end, however often the devices have moved in between. -/
theorem run_path {es : List MachineEvent} (hRun : MachineRun m es k) (hPath : Path start code n p q)
    (hCount : es.count .cpu = n) (h : AtSpot start code p m) : AtSpot start code q k := by
  -- on the run; an event of the devices leaves the machine where it is on the path
  induction hRun generalizing n p with
  | nil m =>
    rw [List.count_nil] at hCount
    subst hCount
    cases hPath with
    | nil => exact h
  | @cons m₁ m₂ m₃ e es hHead _ ih =>
    have hDevice : (e.onBoard m₁.bus).map (fun b => (⟨m₁.cpu, b⟩ : Machine)) = some m₂ →
        AtSpot start code p m₂ := by
      intro hMap
      obtain ⟨b, hEvent, rfl⟩ := Option.map_eq_some_iff.mp hMap
      exact h.device hEvent
    cases e with
    | uart c => exact ih hPath (by simpa using hCount) (hDevice hHead)
    | disk result => exact ih hPath (by simpa using hCount) (hDevice hHead)
    | timer => exact ih hPath (by simpa using hCount) (hDevice hHead)
    | cpu =>
      rw [List.count_cons_self] at hCount
      subst hCount
      cases hPath with
      | cons quiet head tail =>
        obtain ⟨hSome, hNext⟩ := h.cpu quiet head
        have hSame : cpuStepIteration m₁ = m₂ := by
          rw [MachineEvent.perform, hSome] at hHead
          exact Option.some.inj hHead
        rw [hSame] at hNext
        exact ih tail rfl hNext

/-- The machine does not stop on a path. -/
theorem Path.exists_run (hPath : Path start code n p q) (h : AtSpot start code p m) :
    ∃ k, MachineRun m (List.replicate n .cpu) k := by
  induction hPath generalizing m with
  | nil p => exact ⟨m, .nil m⟩
  | cons quiet head _ ih =>
    obtain ⟨hSome, hNext⟩ := h.cpu quiet head
    obtain ⟨k, hRun⟩ := ih hNext
    exact ⟨k, .cons hSome hRun⟩

end Steps

end Xv6502.Emulator
