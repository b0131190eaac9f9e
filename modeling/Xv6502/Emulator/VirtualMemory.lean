import Xv6502.Emulator.BusMemory
import Xv6502.Emulator.CoreProjection
import Xv6502.Emulator.MachineRuns

/-!
# The Memory that a User Program Sees

`Flat` is a machine without devices, without a kernel and without frames: the core with 64 KiB of
private memory, of which some addresses may be missing. Here is shown that this is what `MMU`
makes of the board for a user program, if no two segments share a frame:

- on the same registers the core makes the same step in both (`execNext_flat`);
- a whole run in user mode is a run of the flat machine, instruction by instruction, and the kernel
  is entered for an interrupt or for what the flat machine is about to execute, for nothing else
  (`user_run_flat`);
- so a program cannot tell in which frames it lies, what the rest of the RAM holds, or what the
  devices do meanwhile (`user_noninterference`).
-/

namespace Xv6502.Emulator

open Xv6502.Lib

/-! ## §1 The flat machine -/

/-- The memory of a user program, and the violation that is going to be delivered. -/
structure Flat where
  /-- The byte at an address, if memory is mapped there. -/
  memory : Word → Option Byte
  /-- The last address that was accessed in vain. -/
  violation : Option Word

namespace Flat

/-- An access where nothing is mapped is noted. -/
def access (f : Flat) (va : Word) : Flat :=
  if f.memory va = none then { f with violation := some va } else f

/-- The byte read at an address. -/
def byteAt (f : Flat) (va : Word) : Byte := (f.memory va).getD 0xff

/-- A store changes memory where there is some. -/
def store (f : Flat) (va : Word) (byte : Byte) : Flat :=
  if f.memory va = none then f.access va
  else { f with memory := Function.update f.memory va (some byte) }

/-- The bus of the flat machine. -/
def bus : DataBus Flat where
  readByte va f := (f.byteAt va, f.access va)
  writeByte va byte f := f.store va byte

/-- One instruction. -/
def step (c : Ctx Flat) : Ctx Flat := ((mcs6502ExecNext bus).run c).2

/-- The flat machine has to leave the next instruction to the kernel: a violation is to be delivered,
    or the instruction is one that the MMU watches for. -/
def Traps (c : Ctx Flat) : Prop :=
  c.bus.violation ≠ none ∨ c.bus.byteAt c.cpu.pc = opcodeBrk ∨
    watchedOpcode (c.bus.byteAt c.cpu.pc) = true

instance (c : Ctx Flat) : Decidable (Traps c) := inferInstanceAs (Decidable (_ ∨ _ ∨ _))

end Flat

/-- What the board is to a user program. -/
def Board.flat (b : Board) : Flat where
  memory va := if b.mmu.faults va then none else some (b.ram (physicalAddress b.mmu va))
  violation := if b.mmu.pendingNmi then some b.mmu.va else none

/-! ## §2 A page table of a user program -/

/-- Every segment is unmapped or in a user frame, and no two of them share a frame. -/
structure Paged (u : Mmu) : Prop where
  entries : ∀ s, 0x10 ≤ (u.pageTable s).toNat
  injective : ∀ s t, u.pageTable s ≠ mmuFrameInvalid → u.pageTable s = u.pageTable t → s = t

section Access

variable {b : Board}

theorem paged_nop : Paged nopMachine.bus.mmu where
  entries := userMachine_nop.entries
  injective := show ∀ s t : Segment, (0x10 + BitVec.ofNat 8 s : Frame) ≠ mmuFrameInvalid →
    (0x10 + BitVec.ofNat 8 s : Frame) = 0x10 + BitVec.ofNat 8 t → s = t by decide

theorem Paged.congr {u u' : Mmu} (h : Paged u) (hTable : u'.pageTable = u.pageTable) : Paged u' :=
  ⟨by rw [hTable]; exact h.entries, by rw [hTable]; exact h.injective⟩

theorem physicalAddress_of_mapped {u : Mmu} {va : Word} (h : ¬ u.faults va) :
    physicalAddress u va = (u.pageTable (segmentOf va)).toNat * 0x1000 + offsetOf va := if_neg h

/-- Different mapped addresses have different physical addresses. -/
theorem Paged.physicalAddress_inj {u : Mmu} (h : Paged u) {va va' : Word} (hMapped : ¬ u.faults va)
    (hMapped' : ¬ u.faults va') (hSame : physicalAddress u va = physicalAddress u va') :
    va = va' := by
  rw [physicalAddress_of_mapped hMapped, physicalAddress_of_mapped hMapped'] at hSame
  unfold offsetOf at hSame
  have hFrame : u.pageTable (segmentOf va) = u.pageTable (segmentOf va') :=
    BitVec.eq_of_toNat_eq (by omega)
  have hSegment := congrArg Fin.val (h.injective _ _ hMapped hFrame)
  simp only [segmentOf] at hSegment
  exact BitVec.eq_of_toNat_eq (by omega)

theorem flat_memory_eq_none {va : Word} : b.flat.memory va = none ↔ b.mmu.faults va := by
  simp [Board.flat]

/-- The translation of an address is its access in the flat memory. -/
theorem flat_translate (va : Word) : (b.translate va).flat = b.flat.access va := by
  by_cases hFault : b.mmu.faults va
  · have hMmu : mmuTranslate b.mmu va = { b.mmu with va := va, pendingNmi := true } := if_pos hFault
    rw [Flat.access, if_pos (flat_memory_eq_none.mpr hFault), Board.translate, hMmu]
    rfl
  · rw [Flat.access, if_neg (mt flat_memory_eq_none.mp hFault), Board.translate,
      mmuTranslate_of_not_faults hFault]

/-- A byte read through the page table is the byte of the flat memory. -/
theorem machineRead_flat (h : Paged b.mmu) (va : Word) :
    (machineRead va b).1 = b.flat.byteAt va ∧ (machineRead va b).2.flat = b.flat.access va := by
  have hDev := not_inDevicePage_user h.entries va
  refine ⟨?_, ?_⟩
  · show readPhysical (b.translate va) (physicalAddress b.mmu va) = _
    rw [readPhysical_of_not_device _ hDev, Flat.byteAt]
    by_cases hFault : b.mmu.faults va
    · rw [flat_memory_eq_none.mpr hFault, physicalAddress_of_faults hFault]
      rfl
    · rw [if_pos (physicalAddress_lt hFault)]
      simp [Board.flat, hFault, Board.translate]
  · rw [machineRead_user h.entries]
    exact flat_translate va

/-- A byte stored through the page table is stored in the flat memory, there alone. -/
theorem machineWrite_flat (h : Paged b.mmu) (va : Word) (byte : Byte) :
    (machineWrite va byte b).flat = b.flat.store va byte := by
  rw [Flat.store]
  by_cases hFault : b.mmu.faults va
  · rw [if_pos (flat_memory_eq_none.mpr hFault), machineWrite_unmapped byte hFault, ← flat_translate,
      Board.translate]
    exact congrArg (fun u => ({ b with mmu := u } : Board).flat) (if_pos hFault).symm
  · rw [if_neg (mt flat_memory_eq_none.mp hFault),
      machineWrite_mapped byte hFault (not_inDevicePage_user h.entries va)]
    -- no two segments share a frame, so the byte changes at one address of the program alone
    have hMemory : (fun va' => if b.mmu.faults va' then none else
        some (Function.update b.ram (physicalAddress b.mmu va) byte (physicalAddress b.mmu va'))) =
        Function.update b.flat.memory va (some byte) := by
      funext va'
      by_cases hSame : va' = va
      · subst hSame
        rw [if_neg hFault, Function.update_self, Function.update_self]
      · rw [Function.update_of_ne hSame]
        by_cases hFault' : b.mmu.faults va'
        · simp [Board.flat, hFault']
        · have hOther : physicalAddress b.mmu va' ≠ physicalAddress b.mmu va :=
            fun hEq => hSame (h.physicalAddress_inj hFault' hFault hEq)
          simp [Board.flat, hFault', Function.update_of_ne hOther]
    show Flat.mk _ _ = Flat.mk _ _
    rw [← hMemory]
    rfl

theorem machineRead_pageTable (va : Word) (b : Board) :
    (machineRead va b).2.mmu.pageTable = b.mmu.pageTable := by
  rw [machineRead_mmu]
  exact mmuTranslate_pageTable _ _

theorem machineWrite_pageTable (h : Paged b.mmu) (va : Word) (byte : Byte) :
    (machineWrite va byte b).mmu.pageTable = b.mmu.pageTable :=
  (keptByAccess_userAccess.write va byte b h.entries).1.pageTable

end Access

/-! ## §3 The core on both -/

/-- A board with a page table of a user program. -/
abbrev UserBoard := { b : Board // Paged b.mmu }

/-- The bus of the board, to a user program. -/
def userBus : DataBus UserBoard where
  readByte va b := ((machineRead va b.1).1,
    ⟨(machineRead va b.1).2, b.2.congr (machineRead_pageTable va b.1)⟩)
  writeByte va byte b :=
    ⟨machineWrite va byte b.1, b.2.congr (machineWrite_pageTable b.2 va byte)⟩

theorem busProjects_board : BusProjects Subtype.val userBus machineBus :=
  ⟨fun _ _ => rfl, fun _ _ _ => rfl⟩

theorem busProjects_flat : BusProjects (fun b : UserBoard => b.1.flat) userBus Flat.bus where
  read va b := by
    obtain ⟨hByte, hAccess⟩ := machineRead_flat b.2 va
    exact (Prod.ext hByte hAccess).symm
  write va byte b := (machineWrite_flat b.2 va byte).symm

/-- The machine as a user program sees it. -/
def Ctx.flat (m : Machine) : Ctx Flat := m.map Board.flat

/-- **The core makes the same step through the page table and in the flat memory.** -/
theorem execNext_flat {m : Machine} (h : Paged m.bus.mmu) :
    (execNext m).flat = Flat.step m.flat ∧ Paged (execNext m).bus.mmu := by
  let c : Ctx UserBoard := ⟨m.cpu, ⟨m.bus, h⟩⟩
  have hBoard := congrArg Prod.snd (projects_execNext busProjects_board c)
  have hFlat := congrArg Prod.snd (projects_execNext busProjects_flat c)
  have hExec : execNext m = ((mcs6502ExecNext userBus).run c).2.map Subtype.val := hBoard
  refine ⟨?_, ?_⟩
  · rw [hExec]
    exact hFlat.symm
  · rw [hExec]
    exact ((mcs6502ExecNext userBus).run c).2.bus.2

/-! ## §4 Runs in user mode -/

section Runs

variable {m k : Machine} {e : MachineEvent} {es : List MachineEvent}

/-- The flat memory is made of the RAM, the page table and the latches of the last violation. -/
theorem flat_congr {b b' : Board} (hRam : b'.ram = b.ram)
    (hTable : b'.mmu.pageTable = b.mmu.pageTable) (hNmi : b'.mmu.pendingNmi = b.mmu.pendingNmi)
    (hVa : b'.mmu.va = b.mmu.va) : b'.flat = b.flat := by
  obtain ⟨ram, _, _, _, ⟨pageTable, _, _, _, va, _, _, pendingNmi⟩, _, _⟩ := b
  obtain ⟨ram', _, _, _, ⟨pageTable', _, _, _, va', _, _, pendingNmi'⟩, _, _⟩ := b'
  obtain rfl : ram' = ram := hRam
  obtain rfl : pageTable' = pageTable := hTable
  obtain rfl : pendingNmi' = pendingNmi := hNmi
  obtain rfl : va' = va := hVa
  rfl

theorem opcodeAtPc_flat (h : Paged m.bus.mmu) :
    opcodeAtPc m = m.flat.bus.byteAt m.cpu.pc :=
  (machineRead_flat h m.cpu.pc).1

/-- **Why the kernel is entered**: an interrupt is taken, or the flat machine traps. -/
theorem entersKernel_iff_flat (h : UserMachine m) (hPaged : Paged m.bus.mmu) :
    EntersKernel m ↔ takesIrq m = true ∨ Flat.Traps m.flat := by
  have hOpcode := opcodeAtPc_flat hPaged
  have hPending : m.flat.bus.violation ≠ none ↔ m.bus.mmu.pendingNmi = true := by
    simp [Ctx.flat, Ctx.map, Board.flat]
  have hPc : m.flat.cpu = m.cpu := rfl
  -- a fetch through an invalid entry is caught by the opcode watchdog as well
  have hFault : m.bus.mmu.faults m.cpu.pc → watchedOpcode (m.flat.bus.byteAt m.cpu.pc) = true := by
    intro hFault
    have hNone : m.flat.bus.memory m.cpu.pc = none := flat_memory_eq_none.mpr hFault
    rw [Flat.byteAt, hNone]
    decide
  rw [entersKernel_iff h, Flat.Traps, hPending, hPc, ← hOpcode]
  rw [← hOpcode] at hFault
  have hCount : 0 < blocksFired m ↔
      interceptFires m = true ∨ watchdogFires m = true ∨ violationFires m = true := by
    unfold blocksFired
    cases interceptFires m <;> cases watchdogFires m <;> cases violationFires m <;> simp
  rw [hCount, interceptFires, watchdogFires, violationFires, Bool.or_eq_true, Bool.or_eq_true,
    beq_iff_eq, decide_eq_true_eq]
  constructor
  · rintro ((hIrq | hBrk) | hWatched | hNmi | hFaults)
    · exact .inl hIrq
    · exact .inr (.inr (.inl hBrk))
    · exact .inr (.inr (.inr hWatched))
    · exact .inr (.inl hNmi)
    · exact .inr (.inr (.inr (hFault hFaults)))
  · rintro (hIrq | hNmi | hBrk | hWatched)
    · exact .inl (.inl hIrq)
    · exact .inr (.inr (.inl hNmi))
    · exact .inl (.inr hBrk)
    · exact .inr (.inl hWatched)

/-- The opcode fetch of `MMU_pre_exec` is not seen. -/
theorem preExecFetch_flat (h : UserMachine m) (hStays : ¬ EntersKernel m) :
    (preExecFetch m).flat = m.flat := by
  have hMapped : ¬ m.bus.mmu.faults m.cpu.pc := by
    intro hFault
    refine hStays ((entersKernel_iff h).mpr ?_)
    simp only [blocksFired, violationFires, hFault, decide_true, Bool.or_true, Bool.toNat_true]
    omega
  have hBoard : (preExecFetch m).bus.flat = m.bus.flat := by
    rw [preExecFetch_user h]
    simp only [Ctx.setMmu, mmuTranslate_of_not_faults hMapped]
    exact flat_congr rfl rfl rfl rfl
  show Ctx.mk (preExecFetch m).cpu (preExecFetch m).bus.flat = ⟨m.cpu, m.bus.flat⟩
  rw [preExecFetch_cpu h, hBoard]

/-- **One iteration in user mode is one instruction of the flat machine.** -/
theorem cpuStepIteration_flat (h : UserMachine m) (hPaged : Paged m.bus.mmu)
    (hStays : ¬ EntersKernel m) :
    (cpuStepIteration m).flat = Flat.step m.flat ∧ Paged (cpuStepIteration m).bus.mmu := by
  have hPre := mmuPreExec_of_stays h hStays
  have hFetched : Paged (preExecFetch m).bus.mmu := hPaged.congr (preExecFetch_pageTable h)
  obtain ⟨hFlat, hPaged'⟩ := execNext_flat hFetched
  have hEntries : ∀ s, 0x10 ≤ ((preExecFetch m).bus.mmu.pageTable s).toNat := hFetched.entries
  have hInUser : (execNext (preExecFetch m)).bus.mmu.inUser = true :=
    (keeps_execNext keptByAccess_userAccess (preExecFetch m) hEntries).2.trans
      (inPreExec_fetch h).inUser
  rw [cpuStepIteration, hPre, mmuPostExec_inUser hInUser, hFlat, preExecFetch_flat h hStays]
  exact ⟨rfl, hPaged'⟩

/-- What an event in user mode does to the flat machine. -/
theorem UserStep.flat (hStep : UserStep m e k) (h : UserMachine m) (hPaged : Paged m.bus.mmu) :
    k.flat = (if e = .cpu then Flat.step m.flat else m.flat) ∧ Paged k.bus.mmu := by
  obtain ⟨hPerform, hGuard⟩ := hStep
  have hDevice : (e.onBoard m.bus).map (fun b => (⟨m.cpu, b⟩ : Machine)) = some k →
      k.flat = m.flat ∧ Paged k.bus.mmu := by
    intro hMap
    obtain ⟨c, hEvent, rfl⟩ := Option.map_eq_some_iff.mp hMap
    obtain ⟨hRam, hMmu⟩ := onBoard_frame hEvent
    refine ⟨congrArg (Ctx.mk m.cpu) (flat_congr hRam ?_ ?_ ?_), hPaged.congr ?_⟩ <;> rw [hMmu]
  cases e with
  | uart c => exact hDevice hPerform
  | disk result => exact hDevice hPerform
  | timer => exact hDevice hPerform
  | cpu =>
    -- the core sees the memory through the page table alone
    have hStays := hGuard rfl
    rw [MachineEvent.perform, cpuIteration_of_stays h hStays] at hPerform
    obtain rfl := Option.some.inj hPerform
    exact cpuStepIteration_flat h hPaged hStays

/-- The state behind a run. -/
theorem flat_of_run (h : UserMachine m) (hPaged : Paged m.bus.mmu) (hRun : Run UserStep m es k) :
    UserMachine k ∧ Paged k.bus.mmu ∧ k.flat = Flat.step^[es.count .cpu] m.flat := by
  induction hRun with
  | nil m => exact ⟨h, hPaged, rfl⟩
  | @cons m c k e es hHead _ ih =>
    obtain ⟨hFlat, hPaged'⟩ := hHead.flat h hPaged
    obtain ⟨hUser, -⟩ := hHead.confined h (confined_refl m.bus)
    obtain ⟨hUserLast, hPagedLast, hRest⟩ := ih hUser hPaged'
    refine ⟨hUserLast, hPagedLast, ?_⟩
    rw [hRest, hFlat]
    by_cases hCpu : e = .cpu
    · rw [if_pos hCpu, hCpu, List.count_cons_self]
      rfl
    · rw [if_neg hCpu, List.count_cons_of_ne hCpu]

/-- None of the instructions of a run is one for the kernel. -/
theorem clear_of_run (h : UserMachine m) (hPaged : Paged m.bus.mmu) (hRun : Run UserStep m es k) :
    ∀ i < es.count .cpu, ¬ Flat.Traps (Flat.step^[i] m.flat) := by
  -- on the run; an event of the devices is no step of the flat machine
  induction hRun with
  | nil m => exact fun i hi => absurd hi (Nat.not_lt_zero i)
  | @cons m c k e es hHead _ ih =>
    obtain ⟨hFlat, hPaged'⟩ := hHead.flat h hPaged
    obtain ⟨hUser, -⟩ := hHead.confined h (confined_refl m.bus)
    have hClear := ih hUser hPaged'
    rw [hFlat] at hClear
    by_cases hCpu : e = .cpu
    · subst hCpu
      intro i hi
      rw [if_pos rfl] at hClear
      rw [List.count_cons_self] at hi
      cases i with
      | zero => exact fun hTraps => hHead.2 rfl ((entersKernel_iff_flat h hPaged).mpr (.inr hTraps))
      | succ i => exact hClear i (Nat.lt_of_succ_lt_succ hi)
    · rw [if_neg hCpu] at hClear
      rw [List.count_cons_of_ne hCpu]
      exact hClear

/-- **A run in user mode is a run of the flat machine.** The iterations of the core are its
    instructions, none of which it had to leave to the kernel, and the devices are not seen; behind
    the run the kernel is entered for an interrupt, or because the flat machine traps. -/
theorem user_run_flat (h : UserMachine m) (hPaged : Paged m.bus.mmu) (hRun : Run UserStep m es k) :
    k.flat = Flat.step^[es.count .cpu] m.flat ∧
      (∀ i < es.count .cpu, ¬ Flat.Traps (Flat.step^[i] m.flat)) ∧
      (EntersKernel k ↔ takesIrq k = true ∨ Flat.Traps k.flat) := by
  obtain ⟨hUser, hPaged', hFlat⟩ := flat_of_run h hPaged hRun
  exact ⟨hFlat, clear_of_run h hPaged hRun, entersKernel_iff_flat hUser hPaged'⟩

/-- A `NOP` of the machine, then a key. -/
theorem user_run_flat_nop : nopKeyed.flat = Flat.step nopMachine.flat :=
  (user_run_flat userMachine_nop paged_nop run_nop).1

end Runs

/-! ## §5 Noninterference -/

/-- The machine of `NOP`s in other frames, with zeroes beside them. -/
def nopMoved : Machine :=
  { nopMachine with
    bus := { nopMachine.bus with
      ram := fun addr => if addr < 0x20000 then 0 else 0xea
      mmu := { nopMachine.bus.mmu with pageTable := fun s => 0x20 + BitVec.ofNat 8 s } } }

theorem paged_moved : Paged nopMoved.bus.mmu where
  entries := show ∀ s : Segment, 0x10 ≤ (0x20 + BitVec.ofNat 8 s : Frame).toNat by decide
  injective := show ∀ s t : Segment, (0x20 + BitVec.ofNat 8 s : Frame) ≠ mmuFrameInvalid →
    (0x20 + BitVec.ofNat 8 s : Frame) = 0x20 + BitVec.ofNat 8 t → s = t by decide

theorem flat_moved : nopMachine.flat = nopMoved.flat := by
  have hTable : ∀ s : Segment, (0x10 + BitVec.ofNat 8 s : Frame) ≠ mmuFrameInvalid := by decide
  have hTable' : ∀ s : Segment, (0x20 + BitVec.ofNat 8 s : Frame) ≠ mmuFrameInvalid ∧
      0x20 ≤ (0x20 + BitVec.ofNat 8 s : Frame).toNat := by decide
  have hMapped : ∀ va, ¬ nopMachine.bus.mmu.faults va := fun va => hTable (segmentOf va)
  have hMapped' : ∀ va, ¬ nopMoved.bus.mmu.faults va := fun va => (hTable' (segmentOf va)).1
  have hHigh : ∀ va, ¬ physicalAddress nopMoved.bus.mmu va < 0x20000 := by
    intro va
    have hFrame : 0x20 ≤ (nopMoved.bus.mmu.pageTable (segmentOf va)).toNat :=
      (hTable' (segmentOf va)).2
    rw [physicalAddress_of_mapped (hMapped' va)]
    omega
  have hMemory : nopMachine.bus.flat.memory = nopMoved.bus.flat.memory := by
    funext va
    refine (if_neg (hMapped va)).trans ((if_neg (hMapped' va)).trans ?_).symm
    exact congrArg some (if_neg (hHigh va))
  exact congrArg (fun memory => (⟨nopMachine.cpu, ⟨memory, none⟩⟩ : Ctx Flat)) hMemory

/-- **Noninterference**: two machines that look the same to their programs, with page tables, other
    memory and devices of their own. After the same number of instructions they still look the same,
    whatever the devices have done meanwhile; and where neither takes an interrupt, the one enters
    the kernel if and only if the other does. -/
theorem user_noninterference {m k m' k' : Machine} {es es' : List MachineEvent}
    (h : UserMachine m) (h' : UserMachine m') (hPaged : Paged m.bus.mmu)
    (hPaged' : Paged m'.bus.mmu) (hSame : m.flat = m'.flat) (hRun : Run UserStep m es k)
    (hRun' : Run UserStep m' es' k') (hCount : es.count .cpu = es'.count .cpu) :
    k.flat = k'.flat ∧
      (takesIrq k = false → takesIrq k' = false → (EntersKernel k ↔ EntersKernel k')) := by
  obtain ⟨hUser, hPagedLast, hFlat⟩ := flat_of_run h hPaged hRun
  obtain ⟨hUser', hPagedLast', hFlat'⟩ := flat_of_run h' hPaged' hRun'
  have hLast : k.flat = k'.flat := by rw [hFlat, hFlat', hSame, hCount]
  refine ⟨hLast, fun hIrq hIrq' => ?_⟩
  rw [entersKernel_iff_flat hUser hPagedLast, entersKernel_iff_flat hUser' hPagedLast', hIrq,
    hIrq', hLast]

/-- The one is interrupted by a key and the other one is not. -/
theorem user_noninterference_nop : nopKeyed.flat = (cpuStepIteration nopMoved).flat := by
  have hMoved : UserMachine nopMoved := ⟨paged_moved.entries, by decide, rfl⟩
  have hStays : ¬ EntersKernel nopMoved := by decide +kernel
  have hRun : Run UserStep nopMoved [.cpu] (cpuStepIteration nopMoved) :=
    .cons ⟨cpuIteration_of_stays hMoved hStays, fun _ => hStays⟩ (.nil _)
  exact (user_noninterference userMachine_nop hMoved paged_nop paged_moved flat_moved run_nop
    hRun rfl).1

end Xv6502.Emulator
