import Xv6502.Kernel.KernelInterrupts

/-!
# What the Kernel's Handler Works on

The registers, the zero page of the compiled code and the stack above its pointer, as a view of the
machine. An interruption that is transparent does not show in it, so that the handler's instructions
can be followed on views (`Does`), and the stack as a list of bytes (`Pushed`).
-/

namespace Xv6502.Kernel.Vector

open Xv6502.Emulator

/-! ## §1 Views -/

/-- What the code of the handler works on. -/
structure View where
  cpu : Cpu
  zeroPage : Nat → Byte
  stack : Nat → Byte
  frame : Frame

/-- The processor without the bits of its status that are no flags, and without the cycles. -/
def visible (c : Cpu) : Cpu :=
  { c with p := flags c.p, pendingTiming := 0, timingForLastOperation := 0 }

/-- The machine shows the view. -/
structure At (zpsavespace : Byte) (m : Machine) (v : View) : Prop where
  cpu : visible m.cpu = v.cpu
  zeroPage : ∀ i < zpsavespace.toNat, m.bus.low i = v.zeroPage i
  stack : ∀ s : Byte, v.cpu.sp < s → m.bus.low (0x100 + s.toNat) = v.stack s.toNat
  frame : m.bus.mmu.pageTable 0 = v.frame
  inside : Inside m

/-- The view of a machine. -/
def viewOf (m : Machine) : View where
  cpu := visible m.cpu
  zeroPage := m.bus.low
  stack s := m.bus.low (0x100 + s)
  frame := m.bus.mmu.pageTable 0

section Views

variable {n : Byte} {m m' : Machine} {v w : View}

theorem at_viewOf (h : Inside m) : At n m (viewOf m) :=
  ⟨rfl, fun _ _ => rfl, fun _ _ => rfl, rfl, h⟩

/-- The status of a view has flags only. -/
theorem flags_flags (p : Byte) : flags (flags p) = flags p := by
  unfold flags
  rw [BitVec.and_assoc, BitVec.and_self]

theorem At.idle (h : At n m v) : v.cpu.irqPending = false ∧ v.cpu.nmiPending = false := by
  rw [← h.cpu]
  exact ⟨congrArg InterruptQueue.irqPending h.inside.idle,
    congrArg InterruptQueue.nmiPending h.inside.idle⟩

/-- A machine that shows the view of another one is resumed from it. -/
theorem At.resumed (h : At n m' v) (hv : v.cpu.a = m.cpu.a ∧ v.cpu.x = m.cpu.x ∧
      v.cpu.y = m.cpu.y ∧ v.cpu.p = flags m.cpu.p ∧ v.cpu.sp = m.cpu.sp)
    (hZero : ∀ i < n.toNat, v.zeroPage i = m.bus.low i)
    (hStack : ∀ s : Byte, m.cpu.sp < s → v.stack s.toNat = m.bus.low (0x100 + s.toNat))
    (hFrame : v.frame = m.bus.mmu.pageTable 0) : Resumed n m m' v.cpu.pc := by
  obtain ⟨hA, hX, hY, hP, hSp⟩ := hv
  have hCpu := h.cpu
  exact
    { a := (congrArg Cpu.a hCpu).trans hA
      x := (congrArg Cpu.x hCpu).trans hX
      y := (congrArg Cpu.y hCpu).trans hY
      p := (congrArg Cpu.p hCpu).trans hP
      sp := (congrArg Cpu.sp hCpu).trans hSp
      pc := (congrArg Cpu.pc hCpu : (visible m'.cpu).pc = v.cpu.pc)
      zeroPage := fun i hi => (h.zeroPage i hi).trans (hZero i hi)
      stack := fun s hs => (h.stack s (by rw [hSp]; exact hs)).trans (hStack s hs)
      frame := h.frame.trans hFrame
      inside := h.inside }

/-- What is resumed shows the view it had. -/
theorem At.resume (h : At n m v) (hResumed : Resumed n m m' m.cpu.pc) : At n m' v := by
  have hVisible : visible m'.cpu = visible m.cpu := by
    have hQueue := hResumed.inside.idle.trans h.inside.idle.symm
    have hIrq : m'.cpu.irqPending = m.cpu.irqPending := congrArg InterruptQueue.irqPending hQueue
    have hNmi : m'.cpu.nmiPending = m.cpu.nmiPending := congrArg InterruptQueue.nmiPending hQueue
    unfold visible
    rw [hResumed.p, hResumed.a, hResumed.x, hResumed.y, hResumed.sp, hResumed.pc, hIrq, hNmi]
  have hSp : v.cpu.sp = m.cpu.sp := (congrArg Cpu.sp h.cpu).symm
  exact
    { cpu := hVisible.trans h.cpu
      zeroPage := fun i hi => (hResumed.zeroPage i hi).trans (h.zeroPage i hi)
      stack := fun s hs => (hResumed.stack s (by rw [← hSp]; exact hs)).trans (h.stack s hs)
      frame := hResumed.frame.trans h.frame
      inside := hResumed.inside }

/-- A view shows the memory and the mapping of a board. -/
theorem At.board (h : At n m v) {b : Board} (hRam : b.ram = m.bus.ram)
    (hTable : b.mmu.pageTable = m.bus.mmu.pageTable) (hPrev : b.mmu.prev = m.bus.mmu.prev) :
    At n ⟨m.cpu, b⟩ v := by
  have hLow : b.low = m.bus.low := by
    funext offset
    unfold Board.low lowPhysical
    rw [hRam, hTable]
  have hMapped := h.inside.mapped
  exact
    { cpu := h.cpu
      zeroPage := fun i hi => (congrFun hLow i).trans (h.zeroPage i hi)
      stack := fun s hs => (congrFun hLow _).trans (h.stack s hs)
      frame := (congrFun hTable 0).trans h.frame
      inside :=
        { mapped := ⟨(congrFun hTable 0).trans_ne hMapped.low,
            (congrFun hTable 0).trans_ne hMapped.valid, (congrFun hTable _).trans hMapped.kernel⟩
          prev := hPrev.trans h.inside.prev
          idle := h.inside.idle } }

/-- The devices do not show. -/
theorem At.devices (h : At n m v) (hDevices : Devices m m') : At n m' v := by
  obtain ⟨hCpu, hRam, hMmu⟩ := hDevices
  have hBoard := h.board hRam (congrArg Mmu.pageTable hMmu) (congrArg Mmu.prev hMmu)
  rwa [← hCpu] at hBoard

/-- The processor moves, and its stack pointer not downwards. -/
theorem At.processor (h : At n m v) {c w : Cpu} (hVisible : visible c = w) (hIdle : c.Idle)
    (hSp : v.cpu.sp ≤ w.sp) : At n ⟨c, m.bus⟩ { v with cpu := w } where
  cpu := hVisible
  zeroPage := h.zeroPage
  stack s hs := h.stack s (by bv_omega)
  frame := h.frame
  inside := ⟨h.inside.mapped, h.inside.prev, hIdle⟩

end Views

/-! ## §2 Instructions on views -/

section Instructions

variable {n : Byte} {m : Machine} {v : View}

/-- The instruction takes every machine that shows the first view to one that shows the second. -/
def Does (n : Byte) (i : Statement Board) (v w : View) : Prop :=
  ∀ m, At n m v → At n (execInstruction i m) w

/-- An instruction of the processor alone that leaves the stack pointer as it is. -/
structure Local (f : Cpu → Cpu) : Prop where
  visible : ∀ c, visible (f c) = f (visible c)
  queue : ∀ c, (f c).queue = c.queue
  sp : ∀ c, (f c).sp = c.sp

theorem visible_setFlag {flag : Byte} (hFlag : flags flag = flag) (b : Bool) (c : Cpu) :
    visible (c.setFlag flag b) = (visible c).setFlag flag b := by
  have hSet : flags (if b then c.p ||| flag else c.p &&& ~~~flag) =
      if b then flags c.p ||| flag else flags c.p &&& ~~~flag := by
    cases b with
    | true =>
      show flags (c.p ||| flag) = flags c.p ||| flag
      conv_rhs => rw [← hFlag]
      unfold flags
      ext i hi
      simp only [BitVec.getElem_and, BitVec.getElem_or]
      exact Bool.and_or_distrib_right _ _ _
    | false =>
      show (c.p &&& ~~~flag) &&& _ = (c.p &&& _) &&& ~~~flag
      rw [BitVec.and_assoc, BitVec.and_comm (~~~flag), ← BitVec.and_assoc]
  unfold visible Cpu.setFlag
  rw [hSet]

theorem visible_updateZeroNegative (byte : Byte) (c : Cpu) :
    visible (c.updateZeroNegative byte) = (visible c).updateZeroNegative byte := by
  unfold Cpu.updateZeroNegative
  rw [visible_setFlag (by decide), visible_setFlag (by decide)]

/-- A register is loaded with what the processor holds. -/
theorem local_load (set : Byte → Cpu → Cpu) (value : Cpu → Byte)
    (hVisible : ∀ byte c, visible (set byte c) = set byte (visible c))
    (hQueue : ∀ byte c, (set byte c).queue = c.queue) (hSp : ∀ byte c, (set byte c).sp = c.sp)
    (hValue : ∀ c, value (visible c) = value c) :
    Local fun c => (set (value c) c).updateZeroNegative (value c) where
  visible c := by rw [visible_updateZeroNegative, hVisible, hValue]
  queue c := hQueue (value c) c
  sp c := hSp (value c) c

theorem local_compare (operand : Byte) : Local fun c => c.compare c.x operand where
  visible c := by
    unfold Cpu.compare
    rw [visible_updateZeroNegative, visible_setFlag (by decide)]
    rfl
  queue _ := rfl
  sp _ := rfl

/-- The processor as an instruction finds it. -/
def begun (c : Cpu) : Cpu := { c with pendingTiming := 0, timingForLastOperation := 0 }

theorem idle_begun {c : Cpu} (h : c.Idle) : (begun c).Idle := by
  have hIrq : c.irqPending = false := congrArg InterruptQueue.irqPending h
  have hNmi : c.nmiPending = false := congrArg InterruptQueue.nmiPending h
  unfold Cpu.Idle Cpu.queue begun
  rw [hIrq, hNmi]

theorem At.registers (h : At n m v) :
    m.cpu.a = v.cpu.a ∧ m.cpu.x = v.cpu.x ∧ m.cpu.sp = v.cpu.sp := by
  rw [← h.cpu]
  exact ⟨rfl, rfl, rfl⟩

theorem At.local {f : Cpu → Cpu} (hf : Local f) (h : At n m v) :
    At n ⟨f (begun m.cpu), m.bus⟩ { v with cpu := f v.cpu } := by
  have hVisible : visible (f (begun m.cpu)) = f v.cpu := (hf.visible _).trans (congrArg f h.cpu)
  have hIdle : (f (begun m.cpu)).Idle := (hf.queue _).trans (idle_begun h.inside.idle)
  apply h.processor hVisible hIdle
  rw [hf.sp]
  exact BitVec.le_refl _

theorem does_local {i : Statement Board} {f : Cpu → Cpu} (hf : Local f)
    (hExec : ∀ m, execInstruction i m = ⟨f (begun m.cpu), m.bus⟩) :
    Does n i v { v with cpu := f v.cpu } := by
  intro m h
  rw [hExec]
  exact h.local hf

/-- A byte goes to the stack. -/
def View.push (v : View) (byte : Byte) : View where
  cpu := { v.cpu with sp := v.cpu.sp - 1 }
  zeroPage := v.zeroPage
  stack := Function.update v.stack v.cpu.sp.toNat byte
  frame := v.frame

theorem At.push (h : At n m v) (byte : Byte) :
    At n ⟨{ m.cpu with sp := m.cpu.sp - 1 }, m.bus.push m.cpu.sp byte⟩ (v.push byte) := by
  obtain ⟨-, -, hM⟩ := h.registers
  refine
    { cpu := ?_
      zeroPage := fun i hi => ?_
      stack := fun s hs => ?_
      frame := h.frame
      inside := ⟨h.inside.mapped, h.inside.prev, h.inside.idle⟩ }
  · show { visible m.cpu with sp := m.cpu.sp - 1 } = { v.cpu with sp := v.cpu.sp - 1 }
    rw [h.cpu, hM]
  · have hN := n.isLt
    show (m.bus.push m.cpu.sp byte).low i = _
    rw [push_eq_setLow, low_setLow, if_neg (by omega)]
    exact h.zeroPage i hi
  · show (m.bus.push m.cpu.sp byte).low (0x100 + s.toNat) =
      Function.update v.stack v.cpu.sp.toNat byte s.toNat
    change v.cpu.sp - 1 < s at hs
    rw [push_eq_setLow, low_setLow, hM, Function.update_apply]
    by_cases hEq : s = v.cpu.sp
    · rw [hEq, if_pos rfl, if_pos rfl]
    · rw [if_neg (by bv_omega), if_neg (by bv_omega)]
      exact h.stack s (by bv_omega)

theorem does_pha : Does n (.pha, implied) v (v.push v.cpu.a) := by
  intro m h
  obtain ⟨hA, -, -⟩ := h.registers
  have hExec : execInstruction (.pha, implied) m =
      ⟨{ begun m.cpu with sp := m.cpu.sp - 1 }, m.bus.push m.cpu.sp m.cpu.a⟩ :=
    congrArg Prod.snd (pushByte_kernel (m := beginExec m) h.inside.mapped m.cpu.a)
  have hPush := h.push m.cpu.a
  have hIdle : (begun m.cpu).Idle := idle_begun h.inside.idle
  rw [hExec, ← hA]
  exact hPush.processor hPush.cpu hIdle (BitVec.le_refl _)

/-- What a load from segment 0 does to the processor. -/
def loadA (byte : Byte) (c : Cpu) : Cpu := ({ c with a := byte } : Cpu).updateZeroNegative byte

theorem local_loadA (byte : Byte) : Local (loadA byte) :=
  local_load (fun b c => { c with a := b }) (fun _ => byte) (fun _ _ => rfl) (fun _ _ => rfl)
    (fun _ _ => rfl) fun _ => rfl

/-- A load from a fixed place of segment 0 and `x`. -/
theorem does_lda {base : Word} (offset : Nat) {byte : Byte} (hOffset : offset < 0x1000)
    (hAddr : (base + v.cpu.x.setWidth 16).toNat = offset)
    (hByte : ∀ m, At n m v → m.bus.low offset = byte) :
    Does n (.lda, indexedX machineBus base) v { v with cpu := loadA byte v.cpu } := by
  intro m h
  obtain ⟨-, hX, -⟩ := h.registers
  have hRead : machineRead (base + m.cpu.x.setWidth 16) m.bus = (byte, m.bus) := by
    rw [hX, machineRead_low h.inside.mapped (by omega), hAddr, hByte m h]
  have hExec : execInstruction (.lda, indexedX machineBus base) m =
      ⟨loadA byte (begun m.cpu), m.bus⟩ := by
    have hRun : execInstruction (.lda, indexedX machineBus base) m =
        ⟨loadA (machineRead (base + m.cpu.x.setWidth 16) m.bus).1 (begun m.cpu),
          (machineRead (base + m.cpu.x.setWidth 16) m.bus).2⟩ := rfl
    rw [hRun, hRead]
  rw [hExec]
  exact h.local (local_loadA byte)

/-- A byte comes from the stack. -/
def View.pull (v : View) : View :=
  { v with cpu := loadA (v.stack (v.cpu.sp + 1).toNat) { v.cpu with sp := v.cpu.sp + 1 } }

theorem does_pla (hSp : v.cpu.sp ≠ 0xFF) : Does n (.pla, implied) v v.pull := by
  intro m h
  obtain ⟨-, -, hM⟩ := h.registers
  have hAbove : v.cpu.sp < v.cpu.sp + 1 := by bv_omega
  have hRead : machineRead (stackAddress (m.cpu.sp + 1)) m.bus =
      (v.stack (v.cpu.sp + 1).toNat, m.bus) := by
    rw [hM, machineRead_low h.inside.mapped (stackAddress_low _), stackAddress_toNat,
      h.stack _ hAbove]
  have hExec : execInstruction (.pla, implied) m =
      ⟨loadA (v.stack (v.cpu.sp + 1).toNat) { begun m.cpu with sp := m.cpu.sp + 1 }, m.bus⟩ := by
    have hRun : execInstruction (.pla, implied) m =
        ⟨loadA (machineRead (stackAddress (m.cpu.sp + 1)) m.bus).1
          { begun m.cpu with sp := m.cpu.sp + 1 },
          (machineRead (stackAddress (m.cpu.sp + 1)) m.bus).2⟩ := rfl
    rw [hRun, hRead]
  -- the pointer moves first, then it is a load
  have hVisible : visible { m.cpu with sp := m.cpu.sp + 1 } = { v.cpu with sp := v.cpu.sp + 1 } := by
    show { visible m.cpu with sp := m.cpu.sp + 1 } = _
    rw [h.cpu, hM]
  rw [hExec]
  exact (h.processor hVisible h.inside.idle (BitVec.le_of_lt hAbove)).local (local_loadA _)

/-- A store to the zero page of the compiled code. -/
theorem does_sta (hx : v.cpu.x.toNat < n.toNat) :
    Does n (.sta, indexedX machineBus 0) v
      { v with zeroPage := Function.update v.zeroPage v.cpu.x.toNat v.cpu.a } := by
  intro m h
  obtain ⟨hA, hX, -⟩ := h.registers
  have hN := n.isLt
  have hAddr : ((0 : Word) + v.cpu.x.setWidth 16).toNat = v.cpu.x.toNat := by
    show (0#16 + v.cpu.x.setWidth 16).toNat = _
    rw [BitVec.zero_add, BitVec.toNat_setWidth]
    omega
  -- the address is in segment 0, so the store goes to the frame of the process
  have hWrite : machineWrite ((0 : Word) + m.cpu.x.setWidth 16) m.cpu.a m.bus =
      m.bus.setLow v.cpu.x.toNat v.cpu.a := by
    rw [hX, machineWrite_low h.inside.mapped (by omega), hAddr, hA]
  have hExec : execInstruction (.sta, indexedX machineBus 0) m =
      ⟨begun m.cpu, machineWrite ((0 : Word) + m.cpu.x.setWidth 16) m.cpu.a m.bus⟩ := rfl
  rw [hExec, hWrite]
  refine
    { cpu := h.cpu
      zeroPage := fun i hi => ?_
      stack := fun s hs => ?_
      frame := h.frame
      inside := ⟨h.inside.mapped, h.inside.prev, idle_begun h.inside.idle⟩ }
  · show _ = Function.update v.zeroPage v.cpu.x.toNat v.cpu.a i
    rw [low_setLow, Function.update_apply]
    exact if_congr Iff.rfl rfl (h.zeroPage i hi)
  · rw [low_setLow, if_neg (by omega)]
    exact h.stack s hs

/-- The status and the program counter come from the stack. -/
def View.return (v : View) : View :=
  { v with cpu := { v.cpu with
      sp := v.cpu.sp + 3
      p := flags (v.stack (v.cpu.sp + 1).toNat)
      pc := wordOf (v.stack (v.cpu.sp + 2).toNat) (v.stack (v.cpu.sp + 3).toNat) } }

theorem does_rti (hSp : v.cpu.sp.toNat + 3 ≤ 0xFF) : Does n (.rti, implied) v v.return := by
  intro m h
  obtain ⟨-, -, hM⟩ := h.registers
  have hMapped : (latch opcodeRti m).bus.mmu.KernelMapped :=
    ⟨h.inside.mapped.low, h.inside.mapped.valid, h.inside.mapped.kernel⟩
  have hRead : ∀ k : Byte, v.cpu.sp < v.cpu.sp + k →
      machineBus.readByte (stackAddress (v.cpu.sp + k)) (latch opcodeRti m).bus =
        (v.stack (v.cpu.sp + k).toNat, (latch opcodeRti m).bus) := by
    intro k hk
    refine (machineRead_low hMapped (stackAddress_low _)).trans ?_
    rw [stackAddress_toNat]
    exact congrArg (fun byte => (byte, (latch opcodeRti m).bus)) (h.stack _ hk)
  have hTwo : v.cpu.sp + 1 + 1 = v.cpu.sp + 2 := by bv_omega
  have hThree : v.cpu.sp + 2 + 1 = v.cpu.sp + 3 := by bv_omega
  have hSpM : (beginExec (latch opcodeRti m)).cpu.sp = v.cpu.sp := hM
  have hBusM : (beginExec (latch opcodeRti m)).bus = (latch opcodeRti m).bus := rfl
  have hExec : exec machineBus (.rti, implied) (beginExec (latch opcodeRti m)) =
      ⟨{ begun m.cpu with
          sp := v.cpu.sp + 3
          p := flags (v.stack (v.cpu.sp + 1).toNat)
          pc := wordOf (v.stack (v.cpu.sp + 2).toNat) (v.stack (v.cpu.sp + 3).toNat) },
        (latch opcodeRti m).bus⟩ := by
    rw [exec_rti, hSpM, hBusM, hTwo, hThree]
    simp only [hRead 1 (by bv_omega), hRead 2 (by bv_omega), hRead 3 (by bv_omega)]
    rfl
  have hKernel := h.inside.mapped.kernel
  -- the MMU maps `prev`, which is the kernel
  have hPost : execInstruction (.rti, implied) m =
      (exec machineBus (.rti, implied) (beginExec (latch opcodeRti m))).setMmu fun u =>
        { u with pageTable := Function.update u.pageTable mmuLastSegment u.prev } := by
    have hInUser : (m.bus.mmu.pageTable mmuLastSegment != kernelFrame) = false := by
      rw [hKernel]
      rfl
    rw [execInstruction, if_pos rfl, mmuPostExec, hExec]
    exact if_pos ⟨rfl, hInUser⟩
  rw [hPost, hExec]
  have hTable : Function.update m.bus.mmu.pageTable mmuLastSegment m.bus.mmu.prev =
      m.bus.mmu.pageTable := by
    rw [h.inside.prev, ← hKernel]
    exact Function.update_eq_self _ _
  have hVisible : visible { begun m.cpu with
      sp := v.cpu.sp + 3
      p := flags (v.stack (v.cpu.sp + 1).toNat)
      pc := wordOf (v.stack (v.cpu.sp + 2).toNat) (v.stack (v.cpu.sp + 3).toNat) } =
      v.return.cpu := by
    show { visible m.cpu with
      sp := v.cpu.sp + 3
      p := flags (flags (v.stack (v.cpu.sp + 1).toNat))
      pc := wordOf (v.stack (v.cpu.sp + 2).toNat) (v.stack (v.cpu.sp + 3).toNat) } = v.return.cpu
    rw [h.cpu, flags_flags]
    rfl
  have hBoard := h.board (b := ((latch opcodeRti m).setMmu fun u =>
    { u with pageTable := Function.update u.pageTable mmuLastSegment u.prev }).bus) rfl hTable rfl
  have hIdle : (begun m.cpu).Idle := idle_begun h.inside.idle
  refine hBoard.processor hVisible hIdle ?_
  show v.cpu.sp ≤ v.cpu.sp + 3
  bv_omega

/-! The instructions of the processor alone. -/

theorem does_txa : Does n (.txa, implied) v { v with cpu := loadA v.cpu.x v.cpu } :=
  does_local (f := fun c => loadA c.x c) (local_load (fun b c => { c with a := b }) Cpu.x
    (fun _ _ => rfl) (fun _ _ => rfl) (fun _ _ => rfl) fun _ => rfl) fun _ => rfl

theorem does_tya : Does n (.tya, implied) v { v with cpu := loadA v.cpu.y v.cpu } :=
  does_local (f := fun c => loadA c.y c) (local_load (fun b c => { c with a := b }) Cpu.y
    (fun _ _ => rfl) (fun _ _ => rfl) (fun _ _ => rfl) fun _ => rfl) fun _ => rfl

theorem does_and (value : Byte) :
    Does n (.and, immediate value) v { v with cpu := loadA (v.cpu.a &&& value) v.cpu } :=
  does_local (f := fun c => loadA (c.a &&& value) c) (local_load (fun b c => { c with a := b })
    (fun c => c.a &&& value) (fun _ _ => rfl) (fun _ _ => rfl) (fun _ _ => rfl) fun _ => rfl)
    fun _ => rfl

/-- `x` is set. -/
def loadX (byte : Byte) (c : Cpu) : Cpu := ({ c with x := byte } : Cpu).updateZeroNegative byte

/-- `x` is set to what the processor holds. -/
theorem does_loadX {i : Statement Board} (value : Cpu → Byte)
    (hValue : ∀ c, value (visible c) = value c)
    (hExec : ∀ m, execInstruction i m = ⟨loadX (value (begun m.cpu)) (begun m.cpu), m.bus⟩) :
    Does n i v { v with cpu := loadX (value v.cpu) v.cpu } :=
  does_local (f := fun c => loadX (value c) c) (local_load (fun b c => { c with x := b }) value
    (fun _ _ => rfl) (fun _ _ => rfl) (fun _ _ => rfl) hValue) hExec

theorem does_ldx (value : Byte) :
    Does n (.ldx, immediate value) v { v with cpu := loadX value v.cpu } :=
  does_loadX (fun _ => value) (fun _ => rfl) fun _ => rfl

theorem does_tsx : Does n (.tsx, implied) v { v with cpu := loadX v.cpu.sp v.cpu } :=
  does_loadX Cpu.sp (fun _ => rfl) fun _ => rfl

theorem does_tax : Does n (.tax, implied) v { v with cpu := loadX v.cpu.a v.cpu } :=
  does_loadX Cpu.a (fun _ => rfl) fun _ => rfl

theorem does_inx : Does n (.inx, implied) v { v with cpu := loadX (v.cpu.x + 1) v.cpu } :=
  does_loadX (fun c => c.x + 1) (fun _ => rfl) fun _ => rfl

theorem does_dex : Does n (.dex, implied) v { v with cpu := loadX (v.cpu.x - 1) v.cpu } :=
  does_loadX (fun c => c.x - 1) (fun _ => rfl) fun _ => rfl

/-- `y` is set. -/
def loadY (byte : Byte) (c : Cpu) : Cpu := ({ c with y := byte } : Cpu).updateZeroNegative byte

theorem does_tay : Does n (.tay, implied) v { v with cpu := loadY v.cpu.a v.cpu } :=
  does_local (f := fun c => loadY c.a c) (local_load (fun b c => { c with y := b }) Cpu.a
    (fun _ _ => rfl) (fun _ _ => rfl) (fun _ _ => rfl) fun _ => rfl) fun _ => rfl

theorem does_cpx (operand : Byte) :
    Does n (.cpx, immediate operand) v { v with cpu := v.cpu.compare v.cpu.x operand } :=
  does_local (f := fun c => c.compare c.x operand) (local_compare operand) fun _ => rfl

/-! The flags that the tests look at. -/

theorem isSet_setFlag {flag : Byte} (hFlag : flag ≠ 0) (b : Bool) (c : Cpu) :
    (c.setFlag flag b).isSet flag = b := by
  unfold Cpu.isSet Cpu.setFlag
  cases b with
  | true =>
    have hBits : (c.p ||| flag) &&& flag = flag := by
      ext i hi
      simp only [BitVec.getElem_and, BitVec.getElem_or]
      cases flag[i] <;> simp
    show ((c.p ||| flag) &&& flag != 0) = true
    rw [hBits]
    exact bne_iff_ne.mpr hFlag
  | false =>
    have hBits : (c.p &&& ~~~flag) &&& flag = 0 := by
      ext i hi
      simp only [BitVec.getElem_and, BitVec.getElem_not]
      cases flag[i] <;> simp
    show ((c.p &&& ~~~flag) &&& flag != 0) = false
    rw [hBits]
    rfl

theorem isSet_negative (byte : Byte) (c : Cpu) :
    (c.updateZeroNegative byte).isSet statusN = (byte &&& 0x80 != 0) :=
  isSet_setFlag (by decide) _ _

theorem isSet_zero (byte : Byte) (c : Cpu) :
    (c.updateZeroNegative byte).isSet statusZ = (byte == 0) := by
  have hOther : ∀ b : Bool, ((c.setFlag statusZ (byte == 0)).setFlag statusN b).isSet statusZ =
      (c.setFlag statusZ (byte == 0)).isSet statusZ := by
    intro b
    generalize c.setFlag statusZ (byte == 0) = c'
    unfold Cpu.isSet Cpu.setFlag
    cases b with
    | true =>
      show ((c'.p ||| statusN) &&& statusZ != 0) = _
      rw [BitVec.and_comm, BitVec.and_or_distrib_left, BitVec.and_comm _ c'.p]
      exact congrArg (· != 0) (BitVec.or_zero)
    | false =>
      show ((c'.p &&& ~~~statusN) &&& statusZ != 0) = _
      rw [BitVec.and_assoc]
      rfl
  exact (hOther _).trans (isSet_setFlag (by decide) _ _)

/-- The flags of a machine and of its view are the same. -/
theorem At.isSet (h : At n m v) {flag : Byte} (hFlag : flags flag = flag) :
    m.cpu.isSet flag = v.cpu.isSet flag := by
  have hP : flags m.cpu.p = v.cpu.p := congrArg Cpu.p h.cpu
  unfold Cpu.isSet
  rw [← hP]
  conv_lhs => rw [← hFlag]
  unfold flags
  rw [BitVec.and_assoc, BitVec.and_comm flag]

end Instructions

/-! ## §3 The entry -/

section Entry

variable {n : Byte} {k : Interruption} {m : Machine}

/-- The view behind the entry. -/
def entryView (k : Interruption) (m : Machine) : View :=
  let v := (((viewOf m).push (highByte (resumesAt k m.cpu.pc))).push
    (lowByte (resumesAt k m.cpu.pc))).push (pushedFlags (k == .brk) m.cpu.p)
  { v with cpu := { v.cpu with p := flags (m.cpu.p ||| statusI), pc := vectorAt m.bus irqVectorAddress } }

/-- The entry of the core shows it, once the MMU has entered the kernel. -/
theorem entered_at {m₁ : Machine} (h : At n m₁ (viewOf m)) (hP : m₁.cpu.p = m.cpu.p)
    (hVector : vectorAt m₁.bus irqVectorAddress = vectorAt m.bus irqVectorAddress) {c : Cpu}
    (hCpu : visible c = visible (entered m₁ (resumesAt k m.cpu.pc) (k == .brk) irqVectorAddress).cpu)
    (hIdle : c.Idle) :
    At n ⟨c, (entered m₁ (resumesAt k m.cpu.pc) (k == .brk) irqVectorAddress).bus⟩
      (entryView k m) := by
  have hPushed := ((h.push (highByte (resumesAt k m.cpu.pc))).push
    (lowByte (resumesAt k m.cpu.pc))).push (pushedFlags (k == .brk) m₁.cpu.p)
  rw [hP] at hPushed
  have hBus : (entered m₁ (resumesAt k m.cpu.pc) (k == .brk) irqVectorAddress).bus =
      m₁.bus.pushFrame m₁.cpu.sp (resumesAt k m.cpu.pc) (pushedFlags (k == .brk) m.cpu.p) := by
    rw [← hP]
    rfl
  rw [hBus]
  refine hPushed.processor (hCpu.trans ?_) hIdle (BitVec.le_refl _)
  have hVisible := hPushed.cpu
  show { visible { m₁.cpu with sp := m₁.cpu.sp - 1 - 1 - 1 } with
    p := flags (m₁.cpu.p ||| statusI), pc := vectorAt m₁.bus irqVectorAddress } = _
  rw [hP, hVector]
  exact congrArg (fun c : Cpu => { c with
    p := flags (m.cpu.p ||| statusI), pc := vectorAt m.bus irqVectorAddress }) hVisible

/-- The kernel enters itself. -/
theorem enterKernel_at (h : m.bus.mmu.KernelMapped) (hIdle : m.cpu.Idle) {b : Board}
    (hRam : b.ram = m.bus.ram) (hMmu : b.mmu.pageTable = m.bus.mmu.enterKernel.pageTable)
    (hPrev : b.mmu.prev = m.bus.mmu.enterKernel.prev) : At n ⟨m.cpu, b⟩ (viewOf m) := by
  have hTable : b.mmu.pageTable = m.bus.mmu.pageTable := by
    rw [hMmu]
    show Function.update m.bus.mmu.pageTable mmuLastSegment kernelFrame = _
    rw [← h.kernel]
    exact Function.update_eq_self _ _
  have hLow : b.low = m.bus.low := by
    funext offset
    unfold Board.low lowPhysical
    rw [hRam, hTable]
  exact
    { cpu := rfl
      zeroPage := fun i _ => congrFun hLow i
      stack := fun s _ => congrFun hLow _
      frame := congrFun hTable 0
      inside :=
        { mapped := ⟨(congrFun hTable 0).trans_ne h.low, (congrFun hTable 0).trans_ne h.valid,
            (congrFun hTable _).trans h.kernel⟩
          prev := hPrev.trans h.kernel
          idle := hIdle } }

theorem enter_at (h : Interruptible k m) : At n (enter k m) (entryView k m) := by
  cases k with
  | irq =>
    have hTakes : takesIrq m = true := h.takes
    have hMask : m.cpu.isSet statusI = false := by
      unfold takesIrq at hTakes
      rw [Bool.and_eq_true] at hTakes
      simpa using hTakes.2
    -- the pin is lowered before the core is interrupted
    let m₁ : Machine := ⟨m.cpu, plicLower (m.setMmu Mmu.enterKernel).bus⟩
    have hAt : At n m₁ (viewOf m) := enterKernel_at h.mapped h.idle rfl rfl rfl
    have hEnter : preExecIntercept m = interrupted m₁ irqVectorAddress := by
      have hRun : preExecIntercept m = ((mcs6502IRQ machineBus).run m₁).2 := if_pos hTakes
      rw [hRun]
      exact mcs6502IRQ_kernel (m := m₁) h.idle hMask hAt.inside.mapped
    have hIdle : (begun m.cpu).Idle := idle_begun h.idle
    show At n (beginExec (preExecIntercept m)) _
    rw [hEnter]
    exact entered_at (k := .irq) hAt rfl rfl rfl hIdle
  | brk =>
    have hTakes : ¬ takesIrq (latch opcodeBrk m) = true := by
      have hNot : takesIrq m = false := h.takes
      exact ne_true_of_eq_false hNot
    let m₁ : Machine := beginExec ((latch opcodeBrk m).setMmu Mmu.enterKernel)
    have hIdle : (begun m.cpu).Idle := idle_begun h.idle
    have hAt : At n m₁ (viewOf m) :=
      enterKernel_at (m := ⟨begun m.cpu, m.bus⟩) h.mapped hIdle rfl rfl rfl
    have hEnter : enter .brk m = entered m₁ (m.cpu.pc + 2) true irqVectorAddress := by
      -- a `BRK` is intercepted before it is executed, with no interrupt to take
      have hIntercept : preExecIntercept (latch opcodeBrk m) =
          (latch opcodeBrk m).setMmu Mmu.enterKernel :=
        (if_neg hTakes).trans (if_pos rfl)
      rw [enter, hIntercept]
      exact exec_brk_kernel (m := m₁) hAt.inside.mapped
    rw [hEnter]
    exact entered_at (k := .brk) hAt rfl rfl rfl hIdle

end Entry

/-! ## §4 The stack as a list -/

/-- The bytes are on the stack above the pointer, the next one to be pulled first. -/
def OnTop (stack : Nat → Byte) : Nat → List Byte → Prop
  | _, [] => True
  | sp, byte :: bytes => stack (sp + 1) = byte ∧ OnTop stack (sp + 1) bytes

/-- The bytes have been pushed since the first view, and what was on the stack before is there. -/
structure Pushed (v₀ : View) (bytes : List Byte) (v : View) : Prop where
  depth : v.cpu.sp.toNat + bytes.length = v₀.cpu.sp.toNat
  onTop : OnTop v.stack v.cpu.sp.toNat bytes
  below : ∀ s < 0x100, v₀.cpu.sp.toNat < s → v.stack s = v₀.stack s
  frame : v.frame = v₀.frame

section Stack

variable {v₀ v w : View} {byte : Byte} {bytes : List Byte}

theorem OnTop.congr {stack stack' : Nat → Byte} {sp : Nat} (h : OnTop stack sp bytes)
    (hEq : ∀ s, sp < s → s ≤ sp + bytes.length → stack' s = stack s) : OnTop stack' sp bytes := by
  induction bytes generalizing sp with
  | nil => trivial
  | cons byte bytes ih =>
    rw [List.length_cons] at hEq
    refine ⟨(hEq _ (by omega) (by omega)).trans h.1, ih h.2 fun s hLo hHi => ?_⟩
    exact hEq s (by omega) (by omega)

/-- A byte deeper in the stack. -/
theorem OnTop.get {stack : Nat → Byte} {sp : Nat} {rest : List Byte}
    (h : OnTop stack sp (bytes ++ byte :: rest)) : stack (sp + 1 + bytes.length) = byte := by
  induction bytes generalizing sp with
  | nil => exact h.1
  | cons b bytes ih =>
    have hDeeper := ih h.2
    rw [List.length_cons]
    rwa [show sp + 1 + (bytes.length + 1) = sp + 1 + 1 + bytes.length by omega]

theorem pushed_nil (v : View) : Pushed v [] v := ⟨rfl, trivial, fun _ _ _ => rfl, rfl⟩

/-- What does not touch the stack keeps what has been pushed. -/
theorem Pushed.keep (h : Pushed v₀ bytes v) (hSp : w.cpu.sp = v.cpu.sp)
    (hStack : ∀ s : Byte, v.cpu.sp < s → w.stack s.toNat = v.stack s.toNat)
    (hFrame : w.frame = v.frame) : Pushed v₀ bytes w := by
  have hDepth := h.depth
  have hTop := v₀.cpu.sp.isLt
  have hEq : ∀ s < 0x100, v.cpu.sp.toNat < s → w.stack s = v.stack s := by
    intro s hLt hAbove
    have hNat : (BitVec.ofNat 8 s).toNat = s := by
      rw [BitVec.toNat_ofNat]
      exact Nat.mod_eq_of_lt hLt
    have hByte := hStack (BitVec.ofNat 8 s) (by rw [BitVec.lt_def, hNat]; exact hAbove)
    rwa [hNat] at hByte
  refine ⟨by rw [hSp]; exact hDepth, ?_, fun s hLt hAbove => ?_, hFrame.trans h.frame⟩
  · rw [hSp]
    exact h.onTop.congr fun s hLo hHi => hEq s (by omega) hLo
  · exact (hEq s hLt (by omega)).trans (h.below s hLt hAbove)

theorem Pushed.cpu (h : Pushed v₀ bytes v) {c : Cpu} (hSp : c.sp = v.cpu.sp) :
    Pushed v₀ bytes { v with cpu := c } := h.keep hSp (fun _ _ => rfl) rfl

theorem Pushed.push (h : Pushed v₀ bytes v) (hRoom : bytes.length < v₀.cpu.sp.toNat) (byte : Byte) :
    Pushed v₀ (byte :: bytes) (v.push byte) := by
  have hDepth := h.depth
  have hSp : (v.cpu.sp - 1).toNat = v.cpu.sp.toNat - 1 := by bv_omega
  have hKept : ∀ s, v.cpu.sp.toNat < s → (v.push byte).stack s = v.stack s :=
    fun s hs => Function.update_of_ne (by omega) _ _
  refine ⟨?_, ⟨?_, ?_⟩, fun s hLt hAbove => ?_, h.frame⟩
  · show (v.cpu.sp - 1).toNat + (bytes.length + 1) = _
    omega
  · show Function.update v.stack v.cpu.sp.toNat byte ((v.cpu.sp - 1).toNat + 1) = byte
    rw [show (v.cpu.sp - 1).toNat + 1 = v.cpu.sp.toNat by omega, Function.update_self]
  · show OnTop (v.push byte).stack ((v.cpu.sp - 1).toNat + 1) bytes
    rw [show (v.cpu.sp - 1).toNat + 1 = v.cpu.sp.toNat by omega]
    exact h.onTop.congr fun s hLo _ => hKept s hLo
  · exact (hKept s (by omega)).trans (h.below s hLt hAbove)

theorem Pushed.pull (h : Pushed v₀ (byte :: bytes) v) :
    v.cpu.sp ≠ 0xFF ∧ v.pull.cpu.a = byte ∧ Pushed v₀ bytes v.pull := by
  have hDepth := h.depth
  rw [List.length_cons] at hDepth
  have hTop := v₀.cpu.sp.isLt
  have hSp : (v.cpu.sp + 1).toNat = v.cpu.sp.toNat + 1 := by bv_omega
  refine ⟨by bv_omega, ?_, ⟨?_, ?_, h.below, h.frame⟩⟩
  · show v.stack (v.cpu.sp + 1).toNat = byte
    rw [hSp]
    exact h.onTop.1
  · show (v.cpu.sp + 1).toNat + bytes.length = _
    omega
  · show OnTop v.stack (v.cpu.sp + 1).toNat bytes
    rw [hSp]
    exact h.onTop.2

/-- The bytes that `RTI` pulls. -/
theorem Pushed.return {status lo hi : Byte} (h : Pushed v₀ [status, lo, hi] v) :
    v.cpu.sp.toNat + 3 ≤ 0xFF ∧ v.return.cpu.sp = v₀.cpu.sp ∧
      v.return.cpu.p = flags status ∧ v.return.cpu.pc = wordOf lo hi := by
  have hDepth := h.depth
  have hTop := v₀.cpu.sp.isLt
  simp only [List.length_cons, List.length_nil] at hDepth
  obtain ⟨h₁, h₂, h₃, -⟩ := h.onTop
  have hSum₁ : (v.cpu.sp + 1).toNat = v.cpu.sp.toNat + 1 := by bv_omega
  have hSum₂ : (v.cpu.sp + 2).toNat = v.cpu.sp.toNat + 1 + 1 := by bv_omega
  have hSum₃ : (v.cpu.sp + 3).toNat = v.cpu.sp.toNat + 1 + 1 + 1 := by bv_omega
  refine ⟨by omega, ?_, ?_, ?_⟩
  · show v.cpu.sp + 3 = v₀.cpu.sp
    bv_omega
  · show flags (v.stack (v.cpu.sp + 1).toNat) = _
    rw [hSum₁, h₁]
  · show wordOf (v.stack (v.cpu.sp + 2).toNat) (v.stack (v.cpu.sp + 3).toNat) = _
    rw [hSum₂, hSum₃, h₂, h₃]

end Stack

end Xv6502.Kernel.Vector
