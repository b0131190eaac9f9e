import Xv6502.Emulator.TrapEntry
import Xv6502.Lib.Transition

/-!
# Runs of the Machine in User Mode

`Machine_step` makes a step of every device and then a batch of iterations of the core. Here each
of these is an event of its own, in any order, and a run stays in user mode as long as
`MMU_pre_exec` does not map the kernel.

In such a run a program is alone with its frames, however long it lasts and whatever comes in at
the devices (`user_run_contained`): the board is the one that the devices alone would have made,
but for the RAM in the frames of the page table. The program cannot stop the machine, and behind
the last instruction it is the handler of a vector that runs, with everything outside of these
frames still in place.
-/

namespace Xv6502.Emulator

open Xv6502.Lib

/-! ## §1 `Machine_step` -/

/-- `CPU_PER_STEP`. -/
def cpuPerStep : Nat := 100

/-- The steps that `Machine_step` makes. -/
inductive MachineEvent where
  /-- `Uart_step`, with the byte read from the terminal, if any. -/
  | uart (c : Option Byte)
  /-- `Disk_step`, with the number of bytes that `fread` or `fwrite` moves. -/
  | disk (result : Nat)
  /-- `Timer_step`. -/
  | timer
  /-- An iteration of the loop of `CPU_step`. -/
  | cpu
  deriving DecidableEq

/-- An iteration of the loop of `CPU_step`; an invalid opcode ends the machine. -/
def cpuIteration (m : Machine) : Option Machine :=
  if ((mcs6502ExecNext machineBus).run (mmuPreExec m)).1 = .invalidOperation then none
  else some (cpuStepIteration m)

/-- `CPU_step`, with `n` iterations to go. -/
def cpuStep : Nat → Machine → Option Machine
  | 0, m => some m
  | n + 1, m => (cpuIteration m).bind (cpuStep n)

/-- `Machine_step`; `none` is the end of the machine. -/
def machineStep (c : Option Byte) (result : Nat) (m : Machine) : Option Machine :=
  (uartStep c m.bus).bind fun b => cpuStep cpuPerStep ⟨m.cpu, timerStep (diskStep result b)⟩

/-- What the step of a device does to the board. -/
def MachineEvent.onBoard (b : Board) : MachineEvent → Option Board
  | .uart c => uartStep c b
  | .disk result => some (diskStep result b)
  | .timer => some (timerStep b)
  | .cpu => some b

/-- What an event does to the machine. -/
def MachineEvent.perform (m : Machine) : MachineEvent → Option Machine
  | .cpu => cpuIteration m
  | e => (e.onBoard m.bus).map fun b => ⟨m.cpu, b⟩

theorem cpuStep_events (n : Nat) (m : Machine) :
    cpuStep n m = performAll MachineEvent.perform m (List.replicate n .cpu) := by
  induction n generalizing m with
  | zero => rfl
  | succ n ih =>
    rw [List.replicate_succ, performAll, MachineEvent.perform, cpuStep]
    exact Option.bind_congr fun k _ => ih k

/-- `Machine_step` is a run of the events. -/
theorem machineStep_events (c : Option Byte) (result : Nat) (m : Machine) :
    machineStep c result m = performAll MachineEvent.perform m
      (.uart c :: .disk result :: .timer :: List.replicate cpuPerStep .cpu) := by
  rw [machineStep, performAll]
  simp only [MachineEvent.perform, MachineEvent.onBoard, Option.bind_map]
  refine Option.bind_congr fun b _ => ?_
  simp only [Function.comp_apply, performAll, MachineEvent.perform, MachineEvent.onBoard,
    Option.map_some, Option.bind_some]
  exact cpuStep_events _ _

/-! ## §2 The devices -/

/-- The board with its RAM and its MMU replaced. -/
def Board.withMemory (b : Board) (ram : Nat → Byte) (u : Mmu) : Board :=
  { b with ram := ram, mmu := u }

/-- The last statement of `Uart_step`: the display takes the byte. -/
def uartDisplay (b : Board) : Board :=
  if b.uart.status &&& uartStatusTxReady = 0 then
    { b with uart := { b.uart with status := b.uart.status ||| uartStatusTxReady } }
  else b

/-- The first statement of `Uart_step`: a key has been read. -/
def uartKey (c : Byte) (b : Board) : Board :=
  plicRaise { b with uart :=
    { b.uart with rx := c, status := b.uart.status ||| uartStatusRxReady } } plicPinUartRx

theorem uartStep_some (c : Byte) (b : Board) :
    uartStep (some c) b = if c = 0x1B then none else some (uartDisplay (uartKey c b)) := rfl

theorem uartDisplay_withMemory (b : Board) (ram : Nat → Byte) (u : Mmu) :
    uartDisplay (b.withMemory ram u) = (uartDisplay b).withMemory ram u := by
  unfold uartDisplay
  simp only [apply_ite (fun b : Board => b.withMemory ram u)]
  rfl

theorem diskStep_withMemory (result : Nat) (b : Board) (ram : Nat → Byte) (u : Mmu) :
    diskStep result (b.withMemory ram u) = (diskStep result b).withMemory ram u := by
  unfold diskStep
  simp only [apply_ite (fun b : Board => b.withMemory ram u)]
  rfl

theorem timerStep_withMemory (b : Board) (ram : Nat → Byte) (u : Mmu) :
    timerStep (b.withMemory ram u) = (timerStep b).withMemory ram u := by
  unfold timerStep
  simp only [apply_ite (fun b : Board => b.withMemory ram u)]
  rfl

/-- The devices neither look at the RAM and the MMU nor change them. -/
theorem onBoard_withMemory (e : MachineEvent) (b : Board) (ram : Nat → Byte) (u : Mmu) :
    e.onBoard (b.withMemory ram u) = (e.onBoard b).map fun b' => b'.withMemory ram u := by
  -- the key, the disk and the timer work on their own registers
  cases e with
  | cpu => rfl
  | uart c =>
    cases c with
    | none => exact congrArg some (uartDisplay_withMemory b ram u)
    | some c =>
      have hKey : uartKey c (b.withMemory ram u) = (uartKey c b).withMemory ram u := rfl
      simp only [MachineEvent.onBoard, uartStep_some, hKey, uartDisplay_withMemory]
      split
      · rfl
      · rfl
  | disk result => exact congrArg some (diskStep_withMemory result b ram u)
  | timer => exact congrArg some (timerStep_withMemory b ram u)

theorem onBoard_frame {e : MachineEvent} {b b' : Board} (h : e.onBoard b = some b') :
    b'.ram = b.ram ∧ b'.mmu = b.mmu := by
  have hSame := onBoard_withMemory e b b.ram b.mmu
  have hBoard : b.withMemory b.ram b.mmu = b := rfl
  rw [hBoard, h] at hSame
  have hRam := congrArg Board.ram (Option.some.inj hSame)
  have hMmu := congrArg Board.mmu (Option.some.inj hSame)
  exact ⟨hRam, hMmu⟩

/-- A step of a device does the same beside a program that is confined to its frames. -/
theorem Confined.onBoard {b c c' : Board} {e : MachineEvent} (h : Confined b c)
    (hEvent : e.onBoard c = some c') : ∃ b', e.onBoard b = some b' ∧ Confined b' c' := by
  -- the two boards differ in RAM and MMU only
  have hBoard : c = b.withMemory c.ram c.mmu := by
    obtain ⟨ram, rom, uart, disk, mmu, timer, plic⟩ := c
    obtain ⟨rfl, rfl, rfl, rfl, rfl, -, -⟩ := h
    rfl
  rw [hBoard, onBoard_withMemory] at hEvent
  obtain ⟨b', hAlone, rfl⟩ := Option.map_eq_some_iff.mp hEvent
  obtain ⟨hRam, hMmu⟩ := onBoard_frame hAlone
  refine ⟨b', hAlone, rfl, rfl, rfl, rfl, rfl, ?_, fun addr hOut => ?_⟩
  · rw [hMmu]
    exact h.mmu
  · rw [hMmu] at hOut
    rw [hRam]
    exact h.ram addr hOut

/-! ## §3 Invalid opcodes -/

section Opcodes

variable {σ : Type} {bus : DataBus σ}

/-- An instruction of the table is executed, whatever it does. -/
theorem returns_execute (i : Instruction) :
    Returns (fun r => r ≠ .invalidOperation) (execute bus i) := by
  have hEnd : ∀ pc : Word, Returns (fun r => r ≠ ExecResult.invalidOperation) (do
      modifyCpu (Cpu.addTiming i.timing)
      return if pc == (← getCpu).pc then ExecResult.halting else .running : CoreM σ ExecResult) := by
    intro pc
    refine returns_bind fun _ => returns_bind fun c => returns_pure ?_
    split
    · exact ExecResult.noConfusion
    · exact ExecResult.noConfusion
  unfold execute
  refine returns_bind fun c => returns_bind fun doNotUpdatePC => ?_
  exact returns_ite (returns_bind fun _ => hEnd c.pc) (hEnd c.pc)

/-- **The core stops at opcodes that are not in its table only.** -/
theorem execNext_invalid_iff (c : Ctx σ) :
    ((mcs6502ExecNext bus).run c).1 = .invalidOperation ↔
      c.cpu.nmiPending = false ∧ c.cpu.irqPending = false ∧
        opcodeTable (bus.readByte c.cpu.pc c.bus).1 = none := by
  rw [execNext_run]
  -- a queued interrupt is taken before anything is fetched
  cases hNmi : c.cpu.nmiPending with
  | true => simp
  | false =>
    cases hIrq : c.cpu.irqPending with
    | true => simp
    | false =>
      let k : Ctx σ := ⟨{ c.cpu with pendingTiming := 0, timingForLastOperation := 0 }, c.bus⟩
      show ((fetchExecute bus).run k).1 = _ ↔ _
      cases hOpcode : opcodeTable (bus.readByte c.cpu.pc c.bus).1 with
      | none =>
        rw [fetchExecute_invalid (c := k) hOpcode]
        simp
      | some i =>
        have hRun : ((execute bus i).run ⟨k.cpu, (bus.readByte c.cpu.pc c.bus).2⟩).1 ≠
            .invalidOperation := returns_execute i _
        rw [fetchExecute_run (c := k) hOpcode]
        simpa using hRun

end Opcodes

/-- The opcodes of the table, as numbers. -/
def occupiedSlots : List Nat := instructions.map fun i => i.opcode.toNat

theorem opcodeTable_isSome (opcode : Byte) :
    (opcodeTable opcode).isSome = true ↔ opcode.toNat ∈ occupiedSlots := by
  simp [opcodeTable, occupiedSlots, List.find?_isSome, BitVec.toNat_inj]

/-- **The table of the watchdog is the one of the core.** -/
theorem validOpcode_iff (opcode : Byte) :
    validOpcode opcode = true ↔ (opcodeTable opcode).isSome = true := by
  have hTables : validOpcodeRows.flatten =
      (List.range 256).map fun n => (occupiedSlots.any (Nat.beq n)).toNat := by
    decide +kernel
  rw [opcodeTable_isSome, validOpcode, hTables]
  simp [List.getD_eq_getElem?_getD, List.getElem?_range opcode.isLt]

/-! ## §4 Staying in user mode -/

/-- `MMU_pre_exec` maps the kernel. -/
def EntersKernel (m : Machine) : Prop :=
  (mmuPreExec m).bus.mmu.pageTable mmuLastSegment = kernelFrame

instance (m : Machine) : Decidable (EntersKernel m) := inferInstanceAs (Decidable (_ = _))

section User

variable {m k : Machine} {b b' : Board} {e : MachineEvent} {es : List MachineEvent}

/-- The kernel is mapped exactly when one of the blocks of `MMU_pre_exec` fires. -/
theorem entersKernel_iff (h : UserMachine m) : EntersKernel m ↔ 0 < blocksFired m := by
  have hStage := mmuPreExec_stage h
  unfold EntersKernel
  generalize mmuPreExec m = s at hStage
  generalize blocksFired m = n at hStage
  cases hStage with
  | user _ _ =>
    rw [preExecFetch_pageTable h]
    exact ⟨fun hKernel => absurd hKernel.symm (user_frame_ne_kernelFrame h),
      fun hFired => absurd hFired (Nat.lt_irrefl 0)⟩
  | brk _ _ =>
    exact ⟨fun _ => Nat.one_pos,
      fun _ => (switchesToKernel_enterKernel.entryMapped (inPreExec_fetch h).stack).kernel⟩
  | trapped hTrapped => exact ⟨fun _ => hTrapped.fired, fun _ => hTrapped.kernel⟩

/-- If it does not map the kernel, `MMU_pre_exec` has fetched the opcode only. -/
theorem mmuPreExec_of_stays (h : UserMachine m) (hStays : ¬ EntersKernel m) :
    mmuPreExec m = preExecFetch m := by
  have hStage := mmuPreExec_stage h
  rw [entersKernel_iff h, Nat.pos_iff_ne_zero, not_not] at hStays
  rw [hStays] at hStage
  generalize mmuPreExec m = s at hStage
  cases hStage with
  | user _ _ => rfl
  | trapped hTrapped => exact absurd hTrapped.fired (Nat.lt_irrefl 0)

/-- The core fetches the opcode that `MMU_pre_exec` has seen. -/
theorem opcodeAtPc_fetch (h : UserMachine m) : opcodeAtPc (preExecFetch m) = opcodeAtPc m := by
  have hTable := preExecFetch_pageTable h
  have hRam : (preExecFetch m).bus.ram = m.bus.ram := by
    rw [preExecFetch_user h]
    rfl
  have hEntries : ∀ s, 0x10 ≤ ((preExecFetch m).bus.mmu.pageTable s).toNat := by
    rw [hTable]
    exact h.entries
  -- the fetch for the MMU latches and does not remap
  have hPhysical : physicalAddress (preExecFetch m).bus.mmu m.cpu.pc =
      physicalAddress m.bus.mmu m.cpu.pc := by
    rw [physicalAddress, physicalAddress, hTable]
  show readPhysical ((preExecFetch m).bus.translate _)
      (physicalAddress (preExecFetch m).bus.mmu (preExecFetch m).cpu.pc) =
    readPhysical (m.bus.translate _) (physicalAddress m.bus.mmu m.cpu.pc)
  rw [preExecFetch_cpu h, hPhysical,
    readPhysical_of_not_device _ (not_inDevicePage_user h.entries m.cpu.pc),
    readPhysical_of_not_device _ (not_inDevicePage_user h.entries m.cpu.pc)]
  show (if _ then (preExecFetch m).bus.ram _ else _) = if _ then m.bus.ram _ else _
  rw [hRam]

/-- An opcode that gets past the watchdog is in the table of the core. -/
theorem cpuIteration_of_stays (h : UserMachine m) (hStays : ¬ EntersKernel m) :
    cpuIteration m = some (cpuStepIteration m) := by
  have hPre := mmuPreExec_of_stays h hStays
  refine if_neg fun hInvalid => ?_
  obtain ⟨-, -, hNone⟩ := (execNext_invalid_iff _).mp hInvalid
  rw [hPre] at hNone
  have hOpcode : opcodeTable (opcodeAtPc m) = none := by
    rw [← opcodeAtPc_fetch h]
    exact hNone
  have hWatched : watchedOpcode (opcodeAtPc m) = true := by
    have hValid : validOpcode (opcodeAtPc m) = false := by
      rw [← Bool.not_eq_true, validOpcode_iff, hOpcode]
      decide
    simp [watchedOpcode, hValid]
  -- an opcode outside of the table makes the watchdog fire
  have hFired : 0 < blocksFired m := by
    simp only [blocksFired, watchdogFires, hWatched, Bool.toNat_true]
    omega
  exact hStays ((entersKernel_iff h).mpr hFired)

/-- What the core executes in user mode leaves a user machine. -/
theorem UserMachine.iteration (h : UserMachine m) (hStays : ¬ EntersKernel m) :
    UserMachine (cpuStepIteration m) := by
  have hTable := (staysUser_of_fetch h (mmuPreExec_of_stays h hStays)).2.pageTable
  refine ⟨?_, ?_, cpuStepIteration_idle h.idle⟩
  · rw [hTable]
    exact h.entries
  · rw [hTable]
    exact h.stack

/-- An event in user mode. -/
def UserStep : Machine → MachineEvent → Machine → Prop :=
  Guarded (fun m e k => e.perform m = some k) fun m e => e = .cpu → ¬ EntersKernel m

/-- **One event**: what the devices alone have made of the board is what they make of it beside the
    program. -/
theorem UserStep.confined (hStep : UserStep m e k) (h : UserMachine m) (hBoard : Confined b m.bus) :
    UserMachine k ∧ ∃ b', e.onBoard b = some b' ∧ Confined b' k.bus := by
  obtain ⟨hPerform, hGuard⟩ := hStep
  have hDevice : (e.onBoard m.bus).map (fun b => (⟨m.cpu, b⟩ : Machine)) = some k →
      UserMachine k ∧ ∃ b', e.onBoard b = some b' ∧ Confined b' k.bus := by
    intro hMap
    obtain ⟨c, hEvent, rfl⟩ := Option.map_eq_some_iff.mp hMap
    have hMmu := (onBoard_frame hEvent).2
    exact ⟨⟨by rw [hMmu]; exact h.entries, by rw [hMmu]; exact h.stack, h.idle⟩,
      hBoard.onBoard hEvent⟩
  cases e with
  | uart c => exact hDevice hPerform
  | disk result => exact hDevice hPerform
  | timer => exact hDevice hPerform
  | cpu =>
    -- no entry into the kernel: the core's own accesses are those of the program
    have hStays := hGuard rfl
    have hNext : cpuStepIteration m = k := by
      rw [MachineEvent.perform, cpuIteration_of_stays h hStays] at hPerform
      exact Option.some.inj hPerform
    subst hNext
    exact ⟨h.iteration hStays, b, rfl,
      hBoard.trans (staysUser_of_fetch h (mmuPreExec_of_stays h hStays)).2⟩

/-- **A whole run.** -/
theorem user_run_confined (hRun : Run UserStep m es k) (h : UserMachine m)
    (hBoard : Confined b m.bus) :
    UserMachine k ∧ ∃ b', performAll MachineEvent.onBoard b es = some b' ∧ Confined b' k.bus := by
  induction hRun generalizing b with
  | nil m => exact ⟨h, b, rfl, hBoard⟩
  | cons hHead _ ih =>
    obtain ⟨hUser, c, hEvent, hConfined⟩ := hHead.confined h hBoard
    obtain ⟨hLast, b', hTail, hConfined'⟩ := ih hUser hConfined
    refine ⟨hLast, b', ?_, hConfined'⟩
    rw [performAll, hEvent]
    exact hTail

/-! ## §5 The way into the kernel -/

/-- What an entry of the kernel leaves alone: the devices, but for the request that the PLIC has
    had taken, and the RAM outside the frames of the page table. -/
structure EntryConfined (b b' : Board) : Prop where
  rom : b'.rom = b.rom
  uart : b'.uart = b.uart
  disk : b'.disk = b.disk
  timer : b'.timer = b.timer
  lines : b'.plic.interruptsLines = b.plic.interruptsLines
  stack : b'.mmu.pageTable 0 = b.mmu.pageTable 0
  ram : ∀ addr, ¬ InMappedFrame b.mmu addr → b'.ram addr = b.ram addr

/-- The first segment is not the one that is switched. -/
theorem SwitchesToKernel.stack {g : Mmu → Mmu} (hg : SwitchesToKernel g) (u : Mmu) :
    (g u).pageTable 0 = u.pageTable 0 := by
  rw [hg.pageTable]
  exact Function.update_of_ne (by decide) _ _

theorem EntryConfined.setMmu {s : Machine} (h : EntryConfined b s.bus) {g : Mmu → Mmu}
    (hg : SwitchesToKernel g) : EntryConfined b (s.setMmu g).bus :=
  { h with stack := (hg.stack _).trans h.stack }

/-- A byte on the stack goes to a frame of the program. -/
theorem EntryConfined.push (h : EntryConfined b b') (hMapped : b'.mmu.StackMapped)
    (sp byte : Byte) : EntryConfined b (b'.push sp byte) where
  rom := h.rom
  uart := h.uart
  disk := h.disk
  timer := h.timer
  lines := h.lines
  stack := h.stack
  ram addr hOut := by
    refine (Function.update_of_ne ?_ _ _).trans (h.ram addr hOut)
    rintro rfl
    refine hOut ⟨0, h.stack ▸ hMapped.valid, ?_⟩
    rw [← h.stack]
    unfold stackPhysical
    omega

theorem EntryConfined.pushFrame (h : EntryConfined b b') (hMapped : b'.mmu.StackMapped)
    (sp : Byte) (returnPC : Word) (flags : Byte) :
    EntryConfined b (b'.pushFrame sp returnPC flags) := by
  have hFirst := h.push hMapped sp (highByte returnPC)
  have hSecond := hFirst.push hMapped (sp - 1) (lowByte returnPC)
  exact hSecond.push hMapped (sp - 1 - 1) flags

theorem entryConfined_fetch (h : UserMachine m) : EntryConfined m.bus (preExecFetch m).bus := by
  have hFetch := confined_fetch h
  exact ⟨hFetch.rom, hFetch.uart, hFetch.disk, hFetch.timer,
    congrArg Plic.interruptsLines hFetch.plic, congrFun hFetch.pageTable 0, hFetch.ram⟩

/-- A block that calls `MCS6502NMI` pushes a frame, or nothing if one has done so before. -/
theorem entryConfined_nmi {s : Machine} {n : Nat} (hUser : UserMachine m) (hStage : Stage m s n)
    (hOut : EntryConfined m.bus s.bus) {g : Mmu → Mmu} (hg : SwitchesToKernel g) :
    EntryConfined m.bus ((mcs6502NMI machineBus).run (s.setMmu g)).2.bus := by
  have hIn := hStage.inPreExec hUser
  have hMapped := hg.entryMapped hIn.stack
  have hSwitched := hOut.setMmu hg
  have hIdle : (preExecFetch m).cpu.Idle := preExecFetch_cpu hUser ▸ hUser.idle
  -- an entry that has been made already leaves the NMI queued
  cases hStage with
  | user _ _ =>
    rw [mcs6502NMI_run (m := (preExecFetch m).setMmu g) hIdle hMapped]
    exact hSwitched.pushFrame hMapped.stack _ _ _
  | brk _ _ =>
    rw [mcs6502NMI_run (m := ((preExecFetch m).setMmu Mmu.enterKernel).setMmu g) hIdle hMapped]
    exact hSwitched.pushFrame hMapped.stack _ _ _
  | trapped hTrapped =>
    have hPending : 0 < (s.setMmu g).cpu.pendingTiming := by
      show 0 < s.cpu.pendingTiming
      rw [hTrapped.pending]
      decide
    rw [mcs6502NMI_run_pending hPending]
    exact hSwitched

theorem entryConfined_intercept (h : UserMachine m) :
    EntryConfined m.bus (preExecIntercept (preExecFetch m)).bus := by
  have hFetch := entryConfined_fetch h
  have hCpu := preExecFetch_cpu h
  have hIdle : (preExecFetch m).cpu.Idle := hCpu ▸ h.idle
  have hMapped := switchesToKernel_enterKernel.entryMapped (inPreExec_fetch h).stack
  have hSwitched := hFetch.setMmu switchesToKernel_enterKernel
  unfold preExecIntercept
  split
  · next hIrq =>
    have hMask : (preExecFetch m).cpu.isSet statusI = false := by
      simpa [takesIrq] using (Bool.and_eq_true_iff.mp hIrq).2
    let lowered : Machine :=
      ⟨(preExecFetch m).cpu, plicLower ((preExecFetch m).setMmu Mmu.enterKernel).bus⟩
    -- lowering the pin is nothing the program could see
    have hLowered : EntryConfined m.bus lowered.bus := { hSwitched with }
    show EntryConfined m.bus ((mcs6502IRQ machineBus).run lowered).2.bus
    rw [mcs6502IRQ_run (m := lowered) hIdle hMask hMapped]
    exact hLowered.pushFrame hMapped.stack _ _ _
  · split
    · exact hSwitched
    · exact hFetch

/-- **`MMU_pre_exec` pushes into the program's own stack page, whatever blocks fire.** -/
theorem entryConfined_mmuPreExec (h : UserMachine m) : EntryConfined m.bus (mmuPreExec m).bus := by
  have hIntercept := entryConfined_intercept h
  have hWatchdog : EntryConfined m.bus (preExecWatchdog (preExecIntercept (preExecFetch m))).bus := by
    rw [preExecWatchdog_eq]
    split
    · exact entryConfined_nmi h (stage_intercept h).1 hIntercept (switchesToKernel_watchdog _)
    · exact hIntercept
  rw [mmuPreExec, preExecViolation_eq]
  split
  · exact entryConfined_nmi h (stage_watchdog h).1 hWatchdog switchesToKernel_violation
  · exact hWatchdog

/-- The core's own fetch of a `BRK` outside the last segment leaves the board alone. -/
theorem machineRead_brk (h : UserMachine m) (hBrk : opcodeAtPc m = opcodeBrk)
    (hSegment : segmentOf m.cpu.pc ≠ mmuLastSegment) :
    let s := (preExecFetch m).setMmu Mmu.enterKernel
    (machineRead s.cpu.pc s.bus).2 = s.bus := by
  intro s
  have hEntry : s.bus.mmu.pageTable (segmentOf m.cpu.pc) =
      m.bus.mmu.pageTable (segmentOf m.cpu.pc) := by
    rw [← preExecFetch_pageTable h]
    exact Function.update_of_ne hSegment _ _
  have hCpu : s.cpu.pc = m.cpu.pc := by
    rw [← preExecFetch_cpu h]
    rfl
  have hMapped : ¬ s.bus.mmu.faults m.cpu.pc := by
    rw [Mmu.faults, hEntry]
    exact not_faults_of_brk h hBrk
  have hPhysical : physicalAddress s.bus.mmu m.cpu.pc = physicalAddress m.bus.mmu m.cpu.pc := by
    rw [physicalAddress, physicalAddress, hEntry]
  show readEffect (s.bus.translate s.cpu.pc) (physicalAddress s.bus.mmu s.cpu.pc) = s.bus
  rw [hCpu, hPhysical, readEffect_of_not_device _ (not_inDevicePage_user h.entries m.cpu.pc),
    Board.translate, mmuTranslate_of_not_faults hMapped]

/-- A `BRK` outside the last segment pushes a frame as well. -/
theorem entryConfined_brk (h : UserMachine m)
    (hPre : mmuPreExec m = (preExecFetch m).setMmu Mmu.enterKernel)
    (hBrk : opcodeAtPc m = opcodeBrk) (hSegment : segmentOf m.cpu.pc ≠ mmuLastSegment) :
    EntryConfined m.bus (cpuStepIteration m).bus := by
  have hOpcode := (opcodeAtPc_enterKernel h hSegment).trans hBrk
  have hRead := machineRead_brk h hBrk hSegment
  have hIn := inPreExec_setMmu (inPreExec_fetch h) switchesToKernel_enterKernel
  have hOut := (entryConfined_fetch h).setMmu switchesToKernel_enterKernel
  have hMapped : ((preExecFetch m).setMmu Mmu.enterKernel).bus.mmu.EntryMapped :=
    switchesToKernel_enterKernel.entryMapped (inPreExec_fetch h).stack
  have hCpu : ((preExecFetch m).setMmu Mmu.enterKernel).cpu = m.cpu := by
    rw [← preExecFetch_cpu h]
    rfl
  rw [cpuStepIteration, hPre]
  generalize (preExecFetch m).setMmu Mmu.enterKernel = s at *
  have hExec := execNext_brk (m := s) (hCpu ▸ congrArg InterruptQueue.nmiPending h.idle)
    hIn.irqPending hOpcode (hRead.symm ▸ hMapped)
  rw [hExec, mmuPostExec_inUser (by rw [hRead]; exact hIn.inUser), hRead]
  exact hOut.pushFrame hMapped.stack _ _ _

/-- **Entering the kernel**: it is the handler of a vector that runs, and nothing outside the
    frames of the program has changed. -/
theorem handlerEntry_confined (h : UserMachine m) (hEnters : EntersKernel m)
    (hGood : ¬ BrkInLastSegment m) :
    AtHandler m (handlerEntry m) ∧ EntryConfined m.bus (handlerEntry m).bus := by
  have hOut := entryConfined_mmuPreExec h
  have hStage := mmuPreExec_stage h
  have hFired := (entersKernel_iff h).mp hEnters
  -- what the three blocks have done is one of the three stages
  generalize hEq : mmuPreExec m = s at hStage
  generalize hCount : blocksFired m = n at hStage hFired
  cases hStage with
  | user _ _ => exact absurd hFired (Nat.lt_irrefl 0)
  | trapped hTrapped =>
    rw [← hEq] at hTrapped
    unfold handlerEntry
    split
    · exact ⟨⟨hTrapped.vector, hTrapped.masked, ⟨hTrapped.stack, hTrapped.kernel⟩, hTrapped.low⟩,
        hOut⟩
    -- an NMI is queued behind the IRQ: the core takes it instead of an instruction
    · next hQueued =>
      have hNmi : (mmuPreExec m).cpu.nmiPending = true := by
        by_contra hNone
        refine hQueued ⟨?_, Bool.eq_false_of_not_eq_true hNone⟩
        rw [hTrapped.pending]
        decide
      refine ⟨(cpuStepIteration_queued hTrapped hNmi).1, ?_⟩
      rw [cpuStepIteration_nmi hTrapped hNmi]
      exact hOut.pushFrame hTrapped.stack _ _ _
  | brk hIrq hBrk =>
    have hSegment : segmentOf m.cpu.pc ≠ mmuLastSegment :=
      fun hLast => hGood ⟨hBrk, hLast, hIrq, pendingNmi_of_brk_alone hBrk hCount⟩
    -- outside segment 15 the core fetches the `BRK` it has been intercepted for
    have hOpcode := (opcodeAtPc_enterKernel h hSegment).trans hBrk
    have hTiming : ¬ 0 < (mmuPreExec m).cpu.pendingTiming := by
      rw [hEq]
      show ¬ 0 < (preExecFetch m).cpu.pendingTiming
      rw [preExecFetch_cpu h, h.idle.pendingTiming]
      exact Nat.lt_irrefl 0
    rw [handlerEntry, if_neg fun hTaken => hTiming hTaken.1]
    exact ⟨(cpuStepIteration_brk h hEq rfl hOpcode).1, entryConfined_brk h hEq hBrk hSegment⟩

/-- What a run in user mode has to answer for. -/
structure Contained (m : Machine) (es : List MachineEvent) (k : Machine) : Prop where
  /-- The program still runs as it did, with the same page table. -/
  user : UserMachine k
  pageTable : k.bus.mmu.pageTable = m.bus.mmu.pageTable
  /-- The devices, the other registers of the MMU and the RAM outside the frames of the program are
      what the devices alone would have made of them. -/
  alone : ∃ b, performAll MachineEvent.onBoard m.bus es = some b ∧ Confined b k.bus
  /-- The program does not stop the machine. -/
  goesOn : ¬ EntersKernel k → ∃ k', MachineEvent.cpu.perform k = some k'
  /-- The kernel is entered by the handler of a vector, with the devices and everything outside the
      frames of the program as they are. -/
  entry : EntersKernel k → ¬ BrkInLastSegment k →
    AtHandler k (handlerEntry k) ∧ EntryConfined k.bus (handlerEntry k).bus
  /-- In particular the RAM outside these frames is as it was. -/
  outside : ∀ addr, ¬ InMappedFrame m.bus.mmu addr → k.bus.ram addr = m.bus.ram addr

theorem performAll_onBoard_frame {b b' : Board}
    (h : performAll MachineEvent.onBoard b es = some b') :
    b'.ram = b.ram ∧ b'.mmu = b.mmu := by
  have hRun := run_of_performAll h
  refine @Run.invariant _ _ _ _ _ _ (fun c => c.ram = b.ram ∧ c.mmu = b.mmu) ?_ hRun ⟨rfl, rfl⟩
  rintro c e c' ⟨hRam, hMmu⟩ hEvent
  obtain ⟨hRam', hMmu'⟩ := onBoard_frame hEvent
  exact ⟨hRam'.trans hRam, hMmu'.trans hMmu⟩

theorem confined_refl (b : Board) : Confined b b := ⟨rfl, rfl, rfl, rfl, rfl, rfl, fun _ _ => rfl⟩

/-- **A user program is contained**: in every run in user mode, of any length, with any steps of the
    devices in between. -/
theorem user_run_contained (h : UserMachine m) (hRun : Run UserStep m es k) : Contained m es k := by
  obtain ⟨hUser, b, hAlone, hConfined⟩ := user_run_confined hRun h (confined_refl m.bus)
  obtain ⟨hRam, hMmu⟩ := performAll_onBoard_frame hAlone
  refine ⟨hUser, ?_, ⟨b, hAlone, hConfined⟩, fun hStays => ⟨_, cpuIteration_of_stays hUser hStays⟩,
    handlerEntry_confined hUser, fun addr hOut => ?_⟩
  · rw [hConfined.pageTable, hMmu]
  · rw [← hMmu] at hOut
    rw [hConfined.ram addr hOut, hRam]

end User

/-- A machine whose memory holds nothing but `NOP`. -/
def nopMachine : Machine :=
  { zeroedMachine 0x0200 with bus := { (zeroedMachine 0x0200).bus with ram := fun _ => 0xea } }

/-- It behind an instruction, a step of the timer and of the disk, and a key. -/
def nopKeyed : Machine where
  cpu := (cpuStepIteration nopMachine).cpu
  bus := uartDisplay (uartKey 0x41 (diskStep 512 (timerStep (cpuStepIteration nopMachine).bus)))

theorem userMachine_nop : UserMachine nopMachine :=
  ⟨(userMachine_zeroed 0x0200).entries, (userMachine_zeroed 0x0200).stack, rfl⟩

theorem run_nop :
    Run UserStep nopMachine [.cpu, .timer, .disk 512, .uart (some 0x41)] nopKeyed := by
  have hStays : ¬ EntersKernel nopMachine := by decide +kernel
  have hCpu := cpuIteration_of_stays userMachine_nop hStays
  exact .cons ⟨hCpu, fun _ => hStays⟩ (.cons ⟨rfl, fun h => by cases h⟩
    (.cons ⟨rfl, fun h => by cases h⟩ (.cons ⟨rfl, fun h => by cases h⟩ (.nil _))))

/-- The next iteration is that of the interrupt. -/
theorem user_run_contained_nop :
    Contained nopMachine [.cpu, .timer, .disk 512, .uart (some 0x41)] nopKeyed ∧
      EntersKernel nopKeyed :=
  ⟨user_run_contained userMachine_nop run_nop, by decide +kernel⟩

end Xv6502.Emulator
