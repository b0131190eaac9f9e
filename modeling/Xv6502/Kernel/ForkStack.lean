import Xv6502.Kernel.KernelStack
import Xv6502.Kernel.ProcessBlock
import Xv6502.Kernel.StateMachine
import Xv6502.Kernel.ProcessRuns

/-!
# The C Stack of a Forked Process

The process table together with the kernel stack frames of the processes and the calls of C
functions that are active on them. A call moves the software stack pointer in the frame of its
process down, and its return moves it up again, so that a process that comes back to user mode has
the pointer with which it has left it.

`sys_fork` copies the frame of its process in the middle of a system call (`copyPages`). The child
does not return through the calls it has copied: `_first_context_switch` calls `kernel_epilogue` and
leaves for user mode. So the bytes that were in use when the frame was copied stay on the child's
stack for good, and each generation loses as many again (`Creeps`).

Each process has its frame to itself. A call is a step as long as it has room above the `PCB`, which
lies in the same frame: the kernel has no check, and from the first call without room on the `PCB`
is overwritten.
-/

namespace Xv6502.Kernel

open Xv6502.Emulator Xv6502.Lib CStack

/-! ## §1 The frames and the calls -/

/-- What cc65 and the linker have made of the kernel. -/
structure Build where
  zeroPage : ZeroPage
  /-- The bytes that `kernel_brk` and `sys_fork` have on the C stack while `sys_fork` runs. -/
  locals : Nat
  locals_pos : 0 < locals

/-- The process table with the kernel stack frames of the processes. -/
structure Stacks where
  table : Table
  frame : Slot → Page
  /-- The C functions that are active, the innermost first, each with the bytes that its arguments
      and locals take up on the C stack. -/
  calls : Slot → List Nat
  /-- How many forks lead from "init" to the process. -/
  generation : Slot → Nat

/-- The end of the `PCB`, and the lowest address for the C stack. -/
def stackEnd : Nat := pcbOffset + Pcb.size

namespace Stacks

/-- The software stack pointer in the zero page of the kernel stack frame of a process. -/
def cSp (b : Build) (s : Stacks) (i : Slot) : Word := CStack.cSp b.zeroPage (s.frame i)

/-- What can happen next. -/
inductive Event (b : Build) where
  /-- An event of the process table. If it is a `sys_fork` that builds a child, `fresh` is what the
      frame holds that `kalloc()` gives, and `work` is what `memmove` does on the way to the frame
      that it runs on. -/
  | table (e : Table.Event) (fresh : Page) (work : Work b.zeroPage)
  /-- The running process calls a C function in the kernel. -/
  | call (bytes : Nat)
  /-- The innermost C function returns. -/
  | ret
  /-- Another store to the frame of the running process: a local, a temporary of the zero page, the
      hardware stack. -/
  | store (offset : Nat) (byte : Byte)
  /-- The kernel stores to the `PCB` of a process. -/
  | storePcb (p : Slot) (field : Nat) (byte : Byte)

/-- The running process is in the kernel. -/
def inKernel (s : Stacks) : Bool := s.table.running && !s.table.inUser

/-- The frame of a process changes. -/
def setFrame (s : Stacks) (p : Slot) (frame : Page) : Stacks :=
  { s with frame := Function.update s.frame p frame }

/-- The software stack pointer of the running process moves, and another list of calls is active. -/
def setCalls (b : Build) (s : Stacks) (value : Word) (calls : List Nat) : Stacks :=
  { s with
    frame := Function.update s.frame s.table.current
      (setCSp b.zeroPage value (s.frame s.table.current))
    calls := Function.update s.calls s.table.current calls }

/-- The table moves on. A child that has been built in the step gets the second of the frames and
    has no C function active; the first is that of the process that has copied it. -/
def moved (s : Stacks) (t : Table) (frames : Page × Page) : Stacks where
  table := t
  frame := fun i =>
    if s.table.Taken t i then frames.2
    else if i = s.table.current ∧ ∃ child, s.table.Taken t child then frames.1
    else s.frame i
  calls := fun i => if s.table.Taken t i then [] else s.calls i
  generation := fun i =>
    if s.table.Taken t i then s.generation s.table.current + 1 else s.generation i

/-- One event; `none` if it cannot happen. -/
def perform (b : Build) (s : Stacks) : Event b → Option Stacks
  | .table e fresh work =>
    (s.table.perform e).bind fun t =>
      -- all C functions have returned when a process comes to user mode
      if t.inUser = true ∧ s.calls t.current ≠ [] then none
      -- `sys_fork` and `kernel_brk` are active when a child is built
      else if (∃ child, s.table.Taken t child) ∧ (s.calls s.table.current).sum < b.locals then none
      else
        -- `make_kernel_stack` of `proc_alloc`, and the `memcpy` of `sys_fork`
        let child := setCSp b.zeroPage stackStart fresh
        some (s.moved t (copyPages work 0x1000 (s.frame s.table.current, child)))
  | .call bytes =>
    if s.inKernel = true ∧ stackEnd + bytes ≤ (s.cSp b s.table.current).toNat then
      some (s.setCalls b (s.cSp b s.table.current - BitVec.ofNat 16 bytes)
        (bytes :: s.calls s.table.current))
    else none
  | .ret =>
    if s.inKernel = true then
      match s.calls s.table.current with
      | [] => none
      | bytes :: rest =>
        some (s.setCalls b (s.cSp b s.table.current + BitVec.ofNat 16 bytes) rest)
    else none
  | .store offset byte =>
    if s.table.inUser = false ∧ offset ≠ b.zeroPage.sp.toNat ∧
        offset ≠ b.zeroPage.sp.toNat + 1 then
      some (s.setFrame s.table.current (Function.update (s.frame s.table.current) offset byte))
    else none
  | .storePcb p field byte =>
    if s.table.inUser = false ∧ field < Pcb.size then
      some (s.setFrame p (Function.update (s.frame p) (pcbOffset + field) byte))
    else none

/-- The step relation of the events. -/
def Step (b : Build) (s : Stacks) (e : Event b) (t : Stacks) : Prop := s.perform b e = some t

/-- The first call of `scheduler()`: `make_kernel_stack` has emptied the stack of "init". -/
def boot (b : Build) (frames : Slot → Page) (code : Page) (top : Word) : Stacks where
  table := Table.boot code top
  frame := Function.update frames initProcess
    (setCSp b.zeroPage stackStart (frames initProcess))
  calls := fun _ => []
  generation := fun _ => 0

/-! ## §2 What a step does -/

section Steps

variable {b : Build} {s t : Stacks}

theorem table_cases {e : Table.Event} {fresh : Page} {work : Work b.zeroPage}
    (h : Step b s (.table e fresh work) t) :
    ∃ t', Table.Step s.table e t' ∧ (t'.inUser = true → s.calls t'.current = []) ∧
      ((∃ child, s.table.Taken t' child) → b.locals ≤ (s.calls s.table.current).sum) ∧
      t = s.moved t' (copyPages work 0x1000
        (s.frame s.table.current, setCSp b.zeroPage stackStart fresh)) := by
  obtain ⟨t', hTable, hRest⟩ := Option.bind_eq_some_iff.mp h
  obtain ⟨hUser, hRest⟩ := Option.ite_none_left_eq_some.mp hRest
  obtain ⟨hLocals, hRest⟩ := Option.ite_none_left_eq_some.mp hRest
  refine ⟨t', hTable, ?_, ?_, (Option.some.inj hRest).symm⟩
  · intro hIn
    by_contra hActive
    exact hUser ⟨hIn, hActive⟩
  · intro hTaken
    by_contra hFew
    exact hLocals ⟨hTaken, Nat.lt_of_not_le hFew⟩

theorem call_cases {bytes : Nat} (h : Step b s (.call bytes) t) :
    s.inKernel = true ∧ stackEnd + bytes ≤ (s.cSp b s.table.current).toNat ∧
      t = s.setCalls b (s.cSp b s.table.current - BitVec.ofNat 16 bytes)
        (bytes :: s.calls s.table.current) := by
  obtain ⟨⟨hKernel, hRoom⟩, hRest⟩ := Option.ite_none_right_eq_some.mp h
  exact ⟨hKernel, hRoom, (Option.some.inj hRest).symm⟩

theorem ret_cases (h : Step b s .ret t) :
    s.inKernel = true ∧ ∃ bytes rest, s.calls s.table.current = bytes :: rest ∧
      t = s.setCalls b (s.cSp b s.table.current + BitVec.ofNat 16 bytes) rest := by
  obtain ⟨hKernel, hRest⟩ := Option.ite_none_right_eq_some.mp h
  refine ⟨hKernel, ?_⟩
  cases hCalls : s.calls s.table.current with
  | nil =>
    rw [hCalls] at hRest
    cases hRest
  | cons bytes rest =>
    rw [hCalls] at hRest
    exact ⟨bytes, rest, rfl, (Option.some.inj hRest).symm⟩

theorem store_cases {offset : Nat} {byte : Byte} (h : Step b s (.store offset byte) t) :
    (offset ≠ b.zeroPage.sp.toNat ∧ offset ≠ b.zeroPage.sp.toNat + 1) ∧
      t = s.setFrame s.table.current
        (Function.update (s.frame s.table.current) offset byte) := by
  obtain ⟨⟨-, hApart⟩, hRest⟩ := Option.ite_none_right_eq_some.mp h
  exact ⟨hApart, (Option.some.inj hRest).symm⟩

theorem storePcb_cases {p : Slot} {field : Nat} {byte : Byte}
    (h : Step b s (.storePcb p field byte) t) :
    t = s.setFrame p (Function.update (s.frame p) (pcbOffset + field) byte) := by
  obtain ⟨-, hRest⟩ := Option.ite_none_right_eq_some.mp h
  exact (Option.some.inj hRest).symm

end Steps

/-! ## §3 The bytes that are left behind -/

/-- The stack of each process: what the active calls have in use, and what the forks before it have
    left behind, is missing from `__STACK_START__`. Only "init" has nothing left behind. -/
structure Creeps (b : Build) (s : Stacks) : Prop where
  bound : ∀ i, (s.table.procs i).state ≠ .unused →
    (s.cSp b i).toNat + (s.calls i).sum + b.locals * s.generation i ≤ stackStart.toNat
  exact : ∀ i, (s.table.procs i).state ≠ .unused → s.generation i = 0 →
    (s.cSp b i).toNat + (s.calls i).sum = stackStart.toNat
  room : ∀ i, (s.table.procs i).state ≠ .unused → stackEnd ≤ (s.cSp b i).toNat
  first : ∀ i, (s.table.procs i).state ≠ .unused → (s.generation i = 0 ↔ i = initProcess)
  user : s.table.inUser = true → s.calls s.table.current = []

section Creep

variable {b : Build} {s t : Stacks}

theorem cSp_setFrame (s : Stacks) (p i : Slot) (frame : Page) :
    (s.setFrame p frame).cSp b i =
      if i = p then CStack.cSp b.zeroPage frame else s.cSp b i := by
  show CStack.cSp b.zeroPage (Function.update s.frame p frame i) = _
  rw [Function.update_apply]
  split
  · rfl
  · rfl

theorem cSp_setCalls (s : Stacks) (value : Word) (calls : List Nat) (i : Slot) :
    (s.setCalls b value calls).cSp b i = if i = s.table.current then value else s.cSp b i := by
  show CStack.cSp b.zeroPage (Function.update s.frame s.table.current _ i) = _
  rw [Function.update_apply]
  split
  · exact cSp_setCSp _ _
  · rfl

theorem calls_setCalls (s : Stacks) (value : Word) (calls : List Nat) (i : Slot) :
    (s.setCalls b value calls).calls i = if i = s.table.current then calls else s.calls i := by
  show Function.update s.calls s.table.current calls i = _
  rw [Function.update_apply]

/-- A step that changes no pointer, no call and no process. -/
theorem Creeps.congr (h : Creeps b s) (hTable : t.table = s.table) (hCalls : t.calls = s.calls)
    (hGeneration : t.generation = s.generation) (hSp : ∀ i, t.cSp b i = s.cSp b i) :
    Creeps b t := by
  constructor
  · intro i
    rw [hTable, hCalls, hGeneration, hSp]
    exact h.bound i
  · intro i
    rw [hTable, hCalls, hGeneration, hSp]
    exact h.exact i
  · intro i
    rw [hTable, hSp]
    exact h.room i
  · intro i
    rw [hTable, hGeneration]
    exact h.first i
  · rw [hTable, hCalls]
    exact h.user

/-- A store elsewhere than to the pointer. -/
theorem Creeps.setFrame (h : Creeps b s) {p : Slot} {frame : Page}
    (hSp : CStack.cSp b.zeroPage frame = s.cSp b p) : Creeps b (s.setFrame p frame) := by
  have hAll : ∀ i, (s.setFrame p frame).cSp b i = s.cSp b i := by
    intro i
    rw [cSp_setFrame]
    split
    · next hi => rw [hSp, hi]
    · rfl
  exact Creeps.congr h rfl rfl rfl hAll

/-- A call and its return move the pointer of the running process against what is in use. -/
theorem Creeps.setCalls (h : Creeps b s) (hKernel : s.inKernel = true) {value : Word}
    {calls : List Nat}
    (hSum : value.toNat + calls.sum = (s.cSp b s.table.current).toNat +
      (s.calls s.table.current).sum)
    (hRoom : stackEnd ≤ value.toNat) : Creeps b (s.setCalls b value calls) := by
  -- the pointer goes down by what the call takes, so the sum stays
  have hSame : ∀ i, ((s.setCalls b value calls).cSp b i).toNat +
      ((s.setCalls b value calls).calls i).sum = (s.cSp b i).toNat + (s.calls i).sum := by
    intro i
    rw [cSp_setCalls, calls_setCalls]
    split
    · next hi => rw [hSum, hi]
    · rfl
  refine
    { bound := fun i hUsed => ?_
      exact := fun i hUsed hZero => ?_
      room := fun i hUsed => ?_
      first := h.first
      user := fun hUser => ?_ }
  · rw [hSame]
    exact h.bound i hUsed
  · rw [hSame]
    exact h.exact i hUsed hZero
  · rw [cSp_setCalls]
    split
    · exact hRoom
    · exact h.room i hUsed
  · -- the process is in the kernel
    have hIn : s.table.inUser = true := hUser
    unfold inKernel at hKernel
    rw [hIn] at hKernel
    simp at hKernel

/-- The processes behind an event of the table have the pointers they had, and a child has that of
    the process that has built it. -/
theorem cSp_moved {t' : Table} {work : Work b.zeroPage} {child : Page} (i : Slot) :
    (s.moved t' (copyPages work 0x1000 (s.frame s.table.current, child))).cSp b i =
      if s.table.Taken t' i then s.cSp b s.table.current else s.cSp b i := by
  unfold cSp moved
  dsimp only
  by_cases hTaken : s.table.Taken t' i
  · rw [if_pos hTaken, if_pos hTaken, cSp_copyPages]
  · rw [if_neg hTaken, if_neg hTaken]
    split
    · next hBuilds => rw [cSp_copyPages_own, hBuilds.1]
    · rfl

/-- An event of the table: what the parent has in use, its child loses for good. -/
theorem Creeps.moved (h : Creeps b s) (hLife : s.table.Life) (hPids : s.table.Pids)
    {e : Table.Event} {t' : Table} (hTable : Table.Step s.table e t')
    (hUser : t'.inUser = true → s.calls t'.current = [])
    (hLocals : (∃ child, s.table.Taken t' child) → b.locals ≤ (s.calls s.table.current).sum)
    (work : Work b.zeroPage) (child : Page) :
    Creeps b (s.moved t' (copyPages work 0x1000 (s.frame s.table.current, child))) := by
  -- only a slot that the event has taken has a new stack
  have hBefore : ∀ i, (t'.procs i).state ≠ .unused → ¬ s.table.Taken t' i →
      (s.table.procs i).state ≠ .unused := fun i hUsed hNot hUnused => hNot ⟨hUnused, hUsed⟩
  refine
    { bound := fun i hUsed => ?_
      exact := fun i hUsed hZero => ?_
      room := fun i hUsed => ?_
      first := fun i hUsed => ?_
      user := fun hIn => ?_ }
  · rw [cSp_moved]
    show _ + (if s.table.Taken t' i then ([] : List Nat) else s.calls i).sum + b.locals *
      (if s.table.Taken t' i then s.generation s.table.current + 1 else s.generation i) ≤ _
    by_cases hTaken : s.table.Taken t' i
    -- the child starts with the pointer of the parent inside `sys_fork`, but with no call to
    -- return from
    · have hParent := h.bound _ (hTaken.current_used hTable hLife)
      have hUse := hLocals ⟨i, hTaken⟩
      rw [if_pos hTaken, if_pos hTaken, if_pos hTaken, Nat.mul_succ, List.sum_nil]
      omega
    · rw [if_neg hTaken, if_neg hTaken, if_neg hTaken]
      exact h.bound i (hBefore i hUsed hTaken)
  · have hGeneration : (if s.table.Taken t' i then s.generation s.table.current + 1
        else s.generation i) = 0 := hZero
    rw [cSp_moved]
    show _ + (if s.table.Taken t' i then ([] : List Nat) else s.calls i).sum = _
    by_cases hTaken : s.table.Taken t' i
    · rw [if_pos hTaken] at hGeneration
      cases hGeneration
    · rw [if_neg hTaken] at hGeneration ⊢
      rw [if_neg hTaken]
      exact h.exact i (hBefore i hUsed hTaken) hGeneration
  · rw [cSp_moved]
    by_cases hTaken : s.table.Taken t' i
    · rw [if_pos hTaken]
      exact h.room _ (hTaken.current_used hTable hLife)
    · rw [if_neg hTaken]
      exact h.room i (hBefore i hUsed hTaken)
  · show (if s.table.Taken t' i then s.generation s.table.current + 1 else s.generation i) = 0 ↔ _
    by_cases hTaken : s.table.Taken t' i
    -- "init" is the first generation and is never a child
    · have hNotInit : i ≠ initProcess := by
        rintro rfl
        exact hPids.init.1 hTaken.1
      rw [if_pos hTaken]
      simp [hNotInit]
    · rw [if_neg hTaken]
      exact h.first i (hBefore i hUsed hTaken)
  · have hNone := hUser hIn
    show (if s.table.Taken t' t'.current then [] else s.calls t'.current) = []
    rw [hNone, ite_self]

/-- **Step lemma**: the stacks creep in every event. -/
theorem Creeps.step {e : Event b} (h : Creeps b s) (hLife : s.table.Life) (hPids : s.table.Pids)
    (hStep : Step b s e t) : Creeps b t := by
  cases e with
  | table e fresh work =>
    obtain ⟨t', hTable, hUser, hLocals, rfl⟩ := table_cases hStep
    exact h.moved hLife hPids hTable hUser hLocals work _
  | call bytes =>
    obtain ⟨hKernel, hRoom, rfl⟩ := call_cases hStep
    have hValue : (s.cSp b s.table.current - BitVec.ofNat 16 bytes).toNat =
        (s.cSp b s.table.current).toNat - bytes := by
      have hLt := (s.cSp b s.table.current).isLt
      rw [BitVec.toNat_sub, BitVec.toNat_ofNat]
      omega
    apply h.setCalls hKernel
    · rw [hValue, List.sum_cons]
      omega
    · rw [hValue]
      omega
  | ret =>
    obtain ⟨hKernel, bytes, rest, hCalls, rfl⟩ := ret_cases hStep
    have hRunning : s.table.running = true := by
      unfold inKernel at hKernel
      exact (Bool.and_eq_true_iff.mp hKernel).1
    have hUsed : (s.table.procs s.table.current).state ≠ .unused := by
      have hState := hLife.turn hRunning
      rw [Table.self] at hState
      simp [hState]
    -- the bytes were taken from the stack
    have hBound := h.bound _ hUsed
    have hStart : stackStart.toNat = 0x1000 := rfl
    rw [hCalls, List.sum_cons] at hBound
    have hValue : (s.cSp b s.table.current + BitVec.ofNat 16 bytes).toNat =
        (s.cSp b s.table.current).toNat + bytes := by
      rw [BitVec.toNat_add, BitVec.toNat_ofNat]
      omega
    apply h.setCalls hKernel
    · rw [hValue, hCalls, List.sum_cons]
      omega
    · have hRoom := h.room _ hUsed
      rw [hValue]
      omega
  | store offset byte =>
    obtain ⟨⟨hLow, hHigh⟩, rfl⟩ := store_cases hStep
    exact h.setFrame (cSp_update hLow hHigh byte)
  | storePcb p field byte =>
    obtain rfl := storePcb_cases hStep
    have hSp := b.zeroPage.sp_lt
    refine h.setFrame (cSp_update ?_ ?_ byte)
    · unfold pcbOffset
      omega
    · unfold pcbOffset
      omega

end Creep

/-! ## §4 The stack at a trap -/

section Traps

variable {b : Build} {s t : Stacks} {frames : Slot → Page} {code : Page} {top : Word}

theorem Creeps.boot (b : Build) (frames : Slot → Page) (code : Page) (top : Word) :
    Creeps b (boot b frames code top) := by
  have hOnly : ∀ i, ((Stacks.boot b frames code top).table.procs i).state ≠ .unused →
      i = initProcess := by
    intro i hUsed
    by_contra hNot
    simp [Stacks.boot, Table.boot, hNot, Table.emptySlot] at hUsed
  -- "init" starts with an empty stack
  have hEmpty : (Stacks.boot b frames code top).cSp b initProcess = stackStart := by
    show CStack.cSp b.zeroPage (Function.update frames initProcess _ initProcess) = _
    rw [Function.update_self]
    exact cSp_setCSp _ _
  constructor
  · intro i hUsed
    rw [hOnly i hUsed, hEmpty]
    exact Nat.le_refl _
  · intro i hUsed _
    rw [hOnly i hUsed, hEmpty]
    rfl
  · intro i hUsed
    rw [hOnly i hUsed, hEmpty]
    decide
  · intro i hUsed
    rw [hOnly i hUsed]
    exact iff_of_true rfl rfl
  · exact fun _ => rfl

/-- An event of the table is the only one that changes it. -/
theorem Step.table {e : Event b} (h : Step b s e t) :
    t.table = s.table ∨ ∃ e', Table.Step s.table e' t.table := by
  cases e with
  | table e fresh work =>
    obtain ⟨t', hTable, -, -, rfl⟩ := table_cases h
    exact .inr ⟨e, hTable⟩
  | call bytes =>
    obtain ⟨-, -, rfl⟩ := call_cases h
    exact .inl rfl
  | ret =>
    obtain ⟨-, bytes, rest, -, rfl⟩ := ret_cases h
    exact .inl rfl
  | store offset byte =>
    obtain ⟨-, rfl⟩ := store_cases h
    exact .inl rfl
  | storePcb p field byte =>
    obtain rfl := storePcb_cases h
    exact .inl rfl

/-- **Run lemma**: in every run from the boot on the stacks creep. -/
theorem run_creeps {es : List (Event b)} (hRun : Run (Step b) (boot b frames code top) es s) :
    Creeps b s ∧ s.table.Life := by
  have hMove : ∀ s t, Table.Life s → Table.Pids s → Table.Move s t → Table.Pids t :=
    fun _ _ hLife hPids hMove => hPids.move hLife hMove
  have hStep : ∀ s e t, ((s.table.Life ∧ s.table.Pids) ∧ Creeps b s) → Step b s e t →
      (t.table.Life ∧ t.table.Pids) ∧ Creeps b t := by
    rintro s e t ⟨⟨hLife, hPids⟩, hCreeps⟩ hStep
    refine ⟨?_, hCreeps.step hLife hPids hStep⟩
    rcases hStep.table with hSame | ⟨e', hTable⟩
    · rw [hSame]
      exact ⟨hLife, hPids⟩
    · exact Table.invariant_of_moves hMove (.cons hTable (.nil _)) hLife hPids
  have hAll := @Run.invariant _ _ _ _ _ _
    (fun s : Stacks => (s.table.Life ∧ s.table.Pids) ∧ Creeps b s) hStep hRun
    ⟨⟨Table.Life.boot code top, Table.Pids.boot code top⟩, Creeps.boot b frames code top⟩
  exact ⟨hAll.2, hAll.1.1⟩

/-- A chain of forks comes to an end: what each of them leaves behind is missing from the room above
    the `PCB`. -/
theorem generation_bounded {es : List (Event b)}
    (hRun : Run (Step b) (boot b frames code top) es s) {i : Slot}
    (hUsed : (s.table.procs i).state ≠ .unused) :
    b.locals * s.generation i ≤ stackStart.toNat - stackEnd := by
  obtain ⟨hCreeps, -⟩ := run_creeps hRun
  have hBound := hCreeps.bound i hUsed
  have hRoom := hCreeps.room i hUsed
  omega

/-- At a trap no C function is active, and the pointer tells what the forks have left behind. -/
theorem Creeps.trap (h : Creeps b s) (hLife : s.table.Life) {trap : Trap} {ax : Word} {t' : Table}
    (hTable : Table.Step s.table (.trap trap ax) t') :
    (s.cSp b s.table.current = stackStart ↔ s.table.current = initProcess) ∧
      (s.cSp b s.table.current).toNat + b.locals * s.generation s.table.current ≤
        stackStart.toNat := by
  obtain ⟨hRunning, hAct⟩ := Option.ite_none_right_eq_some.mp hTable
  obtain ⟨hUser, -⟩ := Option.ite_none_right_eq_some.mp hAct
  have hIn : s.table.inUser = true := by
    unfold Table.inUser
    rw [hRunning, hUser]
    rfl
  have hUsed : (s.table.procs s.table.current).state ≠ .unused := by
    rw [← Table.self, hLife.turn hRunning]
    simp
  have hBound := h.bound _ hUsed
  have hExact := h.exact _ hUsed
  have hPos := b.locals_pos
  rw [h.user hIn, List.sum_nil, Nat.add_zero] at hBound hExact
  refine ⟨?_, hBound⟩
  rw [← h.first _ hUsed]
  -- the pointer is at the top if and only if no fork lies between "init" and the process
  constructor
  · intro hEmpty
    rw [hEmpty] at hBound
    have hNothing : b.locals * s.generation s.table.current = 0 := by omega
    exact (Nat.mul_eq_zero.mp hNothing).resolve_left (Nat.ne_of_gt hPos)
  · exact fun hFirst => BitVec.eq_of_toNat_eq (hExact hFirst)

/-- **A process traps on an empty C stack if and only if it is "init"**: the pointer in the frame
    of any other one is lower by what the forks that lead to it had on the stack. `sys_fork`
    copies the frame in the middle of its own call, pointer included, and the child never returns
    from that call: by induction on the run, each generation has lost what its parent had in use.
    -/
theorem trap_stack_iff {es : List (Event b)} {trap : Trap} {ax : Word} {fresh : Page}
    {work : Work b.zeroPage} (hRun : Run (Step b) (boot b frames code top) es s)
    (hTrap : Step b s (.table (.trap trap ax) fresh work) t) :
    (s.cSp b s.table.current = stackStart ↔ s.table.current = initProcess) ∧
      (s.cSp b s.table.current).toNat + b.locals * s.generation s.table.current ≤
        stackStart.toNat := by
  obtain ⟨hCreeps, hLife⟩ := run_creeps hRun
  obtain ⟨t', hTable, -, -, -⟩ := table_cases hTrap
  exact hCreeps.trap hLife hTable

end Traps

/-! ## §5 A child of "init" -/

section Child

open Table

/-- The pointer at address 2, and 36 bytes of locals. -/
def smallBuild : Build where
  zeroPage :=
    { sp := 0x02
      ptr1 := 0x0A
      tmp1 := 0x10
      sp_lt := by decide
      ptr1_lt := by decide
      tmp1_lt := by decide
      sp_ptr1 := by decide
      sp_tmp1 := by decide
      ptr1_tmp1 := by decide }
  locals := 36
  locals_pos := by decide

/-- `memmove` with nothing else to do. -/
def idleWork : Work smallBuild.zeroPage := ⟨fun _ frame => frame, fun _ _ => rfl⟩

/-- All frames hold zeros when the system is booted. -/
def zeroBoot : Stacks := boot smallBuild (fun _ _ => 0) (fun _ => 0) 0x800

/-- A run leads to the table, with calls that are active. -/
def Reached (τ : Table) (calls : Slot → List Nat) : Prop :=
  ∃ es s, Run (Step smallBuild) zeroBoot es s ∧ s.table = τ ∧ s.calls = calls

/-- No slot is taken between two tables of two processes. -/
theorem pair_not_taken {a a' c c' : Proc} {current current' : Slot} {running running' : Bool}
    {index index' : Slot} {nextPid nextPid' : Word} {mounted mounted' : Bool}
    {log log' : List Notice} (ha : (a.state == .unused) = false)
    (hc : (c.state == .unused) = false ∨ c'.state = .unused) (i : Slot) :
    ¬ (pair a c current running index nextPid mounted log).Taken
      (pair a' c' current' running' index' nextPid' mounted' log') i := by
  rintro ⟨hBefore, hAfter⟩
  by_cases hZero : i = 0
  · subst hZero
    rw [pair_procs_zero] at hBefore
    rw [hBefore] at ha
    cases ha
  · by_cases hOne : i = 1
    · subst hOne
      rw [pair_procs_one] at hBefore hAfter
      rcases hc with hUsed | hFree
      · rw [hBefore] at hUsed
        cases hUsed
      · exact hAfter hFree
    · simp [pair, hZero, hOne, emptySlot] at hAfter

/-- A table in which the processor is not in user mode. -/
theorem not_user {τ : Table} {claim : Prop} (h : τ.inUser = false) (hUser : τ.inUser = true) :
    claim := by
  rw [h] at hUser
  cases hUser

/-- A step of the table in which no child is built. -/
theorem step_table {s : Stacks} {τ' : Table} {e : Table.Event} (hStep : Table.Step s.table e τ')
    (hNone : ∀ i, ¬ s.table.Taken τ' i) (hUser : τ'.inUser = true → s.calls τ'.current = []) :
    Step smallBuild s (.table e (fun _ => 0) idleWork) (s.moved τ'
      (copyPages idleWork 0x1000 (s.frame s.table.current,
        setCSp smallBuild.zeroPage stackStart fun _ => 0))) := by
  refine Option.bind_eq_some_iff.mpr ⟨τ', hStep, ?_⟩
  rw [if_neg fun hIn => hIn.2 (hUser hIn.1), if_neg fun hTaken => hTaken.1.elim hNone]

theorem Reached.table {τ τ' : Table} {calls : Slot → List Nat} {e : Table.Event}
    (h : Reached τ calls) (hStep : Table.Step τ e τ') (hNone : ∀ i, ¬ τ.Taken τ' i)
    (hUser : τ'.inUser = true → calls τ'.current = []) : Reached τ' calls := by
  obtain ⟨es, s, hRun, rfl, rfl⟩ := h
  refine ⟨_, _, hRun.append (.cons (step_table hStep hNone hUser) (.nil _)), rfl, ?_⟩
  funext i
  exact if_neg (hNone i)

/-- `sys_fork` builds a child, with its locals on the stack. -/
theorem Reached.fork {τ τ' : Table} {calls : Slot → List Nat} {e : Table.Event}
    (h : Reached τ calls) (hStep : Table.Step τ e τ') (hUser : τ'.inUser = false)
    (hLocals : 36 ≤ (calls τ.current).sum) :
    Reached τ' fun i => if τ.Taken τ' i then [] else calls i := by
  obtain ⟨es, s, hRun, rfl, rfl⟩ := h
  have hNext : Step smallBuild s (.table e (fun _ => 0) idleWork) (s.moved τ'
      (copyPages idleWork 0x1000 (s.frame s.table.current,
        setCSp smallBuild.zeroPage stackStart fun _ => 0))) := by
    refine Option.bind_eq_some_iff.mpr ⟨τ', hStep, ?_⟩
    rw [if_neg fun hIn => not_user hUser hIn.1,
      if_neg fun hTaken => absurd hLocals (Nat.not_le.mpr hTaken.2)]
  exact ⟨_, _, hRun.append (.cons hNext (.nil _)), rfl, rfl⟩

/-- "init" calls `kernel_brk` and `sys_fork`. -/
theorem Reached.call {τ : Table} (h : Reached τ fun _ => []) (hRunning : τ.running = true)
    (hKernel : τ.inUser = false) (hInit : τ.current = initProcess) :
    Reached τ (Function.update (fun _ => []) initProcess [36]) := by
  obtain ⟨es, s, hRun, rfl, hCalls⟩ := h
  obtain ⟨hCreeps, hLife⟩ := run_creeps hRun
  have hUsed : (s.table.procs s.table.current).state ≠ .unused := by
    rw [← Table.self, hLife.turn hRunning]
    simp
  have hFull := hCreeps.exact _ hUsed ((hCreeps.first _ hUsed).mpr hInit)
  have hStart : stackStart.toNat = 0x1000 := rfl
  have hEnd : stackEnd = 0x259 := rfl
  rw [hCalls, List.sum_nil] at hFull
  have hNext : Step smallBuild s (.call 36) (s.setCalls smallBuild
      (s.cSp smallBuild s.table.current - BitVec.ofNat 16 36) (36 :: s.calls s.table.current)) := by
    refine if_pos ⟨?_, by omega⟩
    unfold inKernel
    rw [hRunning, hKernel]
    rfl
  refine ⟨_, _, hRun.append (.cons hNext (.nil _)), rfl, ?_⟩
  show Function.update s.calls s.table.current (36 :: s.calls s.table.current) = _
  rw [hCalls, hInit]

/-- They return. -/
theorem Reached.ret {τ : Table} {calls : Slot → List Nat} {bytes : Nat} (h : Reached τ calls)
    (hRunning : τ.running = true) (hKernel : τ.inUser = false)
    (hCalls : calls τ.current = [bytes]) :
    Reached τ (Function.update calls τ.current []) := by
  obtain ⟨es, s, hRun, rfl, rfl⟩ := h
  have hNext : Step smallBuild s .ret (s.setCalls smallBuild
      (s.cSp smallBuild s.table.current + BitVec.ofNat 16 bytes) []) := by
    have hIn : s.inKernel = true := by
      unfold inKernel
      rw [hRunning, hKernel]
      rfl
    show (if s.inKernel = true then _ else none) = _
    rw [if_pos hIn, hCalls]
  exact ⟨_, _, hRun.append (.cons hNext (.nil _)), rfl, rfl⟩

/-- "init" has come to user mode for the second time. -/
theorem reached_resting :
    Reached (resting (fun _ => 0) 0x800 0 emptySlot 1 2 []) fun _ => [] := by
  have hBoot : Reached (pair (parentAt (fun _ => 0) 0x800 .new 0 .null .fresh) emptySlot 0 false 0 2
      false []) fun _ => [] := ⟨[], zeroBoot, .nil _, boot_eq_pair _ _, rfl⟩
  have hDispatched := hBoot.table pair_first_dispatch (pair_not_taken rfl (.inr rfl)) fun _ => rfl
  have hEntered := hDispatched.table pair_first_enter (pair_not_taken rfl (.inr rfl)) fun _ => rfl
  have hTrapped := hEntered.table pair_first_trap (pair_not_taken rfl (.inr rfl)) fun _ => rfl
  have hMounted := hTrapped.table pair_first_mounted (pair_not_taken rfl (.inr rfl)) fun _ => rfl
  exact hMounted.table pair_first_return (pair_not_taken rfl (.inr rfl)) fun _ => rfl

/-- "init" has forked and waits, and its child is in user mode. -/
theorem reached_child : Reached
    (pair (parentAt (fun _ => 0) 0x800 .sleeping 0 (.proc 0) (.waiting 0))
      (childAt 0x800 .running 2 0 0 (childPages fun _ => 0) .user) 1 true 2 3 true [.forked 1 2])
    fun _ => [] := by
  have hTrap := reached_resting.table (pair_trap (.brk 0x46) 0) (pair_not_taken rfl (.inr rfl))
    fun _ => rfl
  have hFork := (hTrap.call rfl rfl rfl).fork (pair_fork rfl (by decide)) rfl (Nat.le_refl 36)
  -- no C function is active for the child, nor for the slots that are free
  have hCalls : ∀ {taken : Slot → Prop} [DecidablePred taken], ¬ taken initProcess →
      (fun i => if taken i then [] else Function.update (fun _ => []) initProcess [36] i) =
        Function.update (fun _ => ([] : List Nat)) initProcess [36] := by
    intro taken _ hInit
    funext i
    by_cases hi : i = initProcess
    · subst hi
      rw [if_neg hInit]
    · rw [Function.update_of_ne hi, ite_self]
  rw [hCalls fun hTaken => absurd hTaken.1 (by decide)] at hFork
  have hAgain := hFork.table (pair_again rfl) (pair_not_taken rfl (.inl rfl)) (not_user rfl)
  have hClone := hAgain.table pair_clone (pair_not_taken rfl (.inl rfl)) (not_user rfl)
  have hOnce := hClone.table (pair_again rfl) (pair_not_taken rfl (.inl rfl)) (not_user rfl)
  have hPublish := hOnce.table pair_publish (pair_not_taken rfl (.inl rfl)) (not_user rfl)
  have hRet := hPublish.ret rfl rfl (Function.update_self ..)
  have hNone : Function.update (Function.update (fun _ => ([] : List Nat)) initProcess [36])
      initProcess [] = fun _ => [] := by
    rw [Function.update_idem]
    exact Function.update_eq_self _ _
  have hEmpty : Reached _ fun _ => [] := hNone ▸ hRet
  have hReturn := hEmpty.table (pair_return 2) (pair_not_taken rfl (.inl rfl)) fun _ => rfl
  have hWaits := hReturn.table (pair_trap (.brk 0x57) 0) (pair_not_taken rfl (.inl rfl))
    fun _ => rfl
  have hSleeps := hWaits.table pair_wait (pair_not_taken rfl (.inl rfl)) fun _ => rfl
  have hStart := hSleeps.table pair_start (pair_not_taken rfl (.inl rfl)) fun _ => rfl
  exact hStart.table pair_enter (pair_not_taken rfl (.inl rfl)) fun _ => rfl

/-- The first child of "init" enters the kernel on a stack that is not empty. -/
theorem first_child_traps_low :
    ∃ es s t, Run (Step smallBuild) zeroBoot es s ∧
      Step smallBuild s (.table (.trap (.brk 0x45) 7) (fun _ => 0) idleWork) t ∧
      s.cSp smallBuild s.table.current ≠ stackStart := by
  obtain ⟨es, s, hRun, hTable, hCalls⟩ := reached_child
  obtain ⟨hCreeps, hLife⟩ := run_creeps hRun
  obtain ⟨τ', hStep, hKernel, hNone⟩ : ∃ τ', Table.Step s.table (.trap (.brk 0x45) 7) τ' ∧
      τ'.inUser = false ∧ ∀ i, ¬ s.table.Taken τ' i := by
    rw [hTable]
    exact ⟨_, pair_call 0x45 7, rfl, pair_not_taken rfl (.inl rfl)⟩
  refine ⟨es, s, _, hRun, step_table hStep hNone (not_user hKernel), fun hEmpty => ?_⟩
  have hInit := (hCreeps.trap hLife hStep).1.mp hEmpty
  rw [hTable] at hInit
  exact absurd hInit (by decide)

/-- "init" itself traps on an empty stack. -/
theorem init_traps_empty :
    ∃ es s t, Run (Step smallBuild) zeroBoot es s ∧
      Step smallBuild s (.table (.trap (.brk 0x46) 0) (fun _ => 0) idleWork) t ∧
      s.cSp smallBuild s.table.current = stackStart := by
  obtain ⟨es, s, hRun, hTable, hCalls⟩ := reached_resting
  obtain ⟨τ', hStep, hKernel, hNone⟩ : ∃ τ', Table.Step s.table (.trap (.brk 0x46) 0) τ' ∧
      τ'.inUser = false ∧ ∀ i, ¬ s.table.Taken τ' i := by
    rw [hTable]
    exact ⟨_, pair_trap (.brk 0x46) 0, rfl, pair_not_taken rfl (.inr rfl)⟩
  have hTrap := step_table hStep hNone (not_user hKernel)
  refine ⟨es, s, _, hRun, hTrap, (trap_stack_iff hRun hTrap).1.mpr ?_⟩
  rw [hTable]
  rfl

end Child

end Stacks

end Xv6502.Kernel
