import Xv6502.Kernel.Window
import Xv6502.Kernel.ProcessLife
import Xv6502.Kernel.ProcessRuns

/-!
# The Windows of a Suspended Process

`context_switch` saves segments 0 to 2 of the kernel page table for the process that is left and
loads those of the process that is resumed. But `scheduler()` has made the next process the current
one before it sets the ticks in its PCB, and the PCB is reached through window 2: when the window
is unmapped again, `mmu_unmap_window` notes the frame of the process that is left in the
`kernel_low_memory` of the process that is about to be resumed.
-/

namespace Xv6502.Kernel

open Xv6502.Emulator Xv6502.Lib

/-! ## §1 The low memory of the processes -/

/-- Segments 0 to 2 of a kernel page table: the kernel stack frame and the windows. -/
structure LowMemory where
  stack : Frame
  windows : Window → Frame

/-- The windows in their default state. -/
def defaultWindows : Window → Frame
  | .window1 => 1
  | .window2 => 2

/-- What happens to the windows of the running process between two steps of the process table. -/
inductive Act where
  | interrupt (hs : List Handler)
  /-- `mmu_map_window`, with the handlers that interrupt it. -/
  | map (w : Window) (f : Frame) (hs : StorePoint → List Handler)
  /-- `mmu_unmap_window`. -/
  | unmap (w : Window) (oldFrame : Frame) (hs : StorePoint → List Handler)

namespace Act

def run : Act → WindowState → WindowState
  | .interrupt hs, v => runHandlers hs v
  | .map w f hs, v => (mmuMapWindow (irqAt true hs) w f v).2
  | .unmap w oldFrame hs, v => mmuUnmapWindow (irqAt true hs) w oldFrame v

/-- In the idle loop of `scheduler()` there are only interrupts. -/
def isInterrupt : Act → Bool
  | .interrupt _ => true
  | _ => false

end Act

/-- The process table with the memory windows of the kernel. In user mode the MMU holds the page
    table of the user, which is left out: `irq_handler` loads the kernel's at the next trap. -/
structure Windows where
  table : Table
  /-- `current_process` is not `NULL`. -/
  started : Bool
  mmuPageTable : LowMemory
  kernelPageTable : LowMemory
  kernelLowMemory : Slot → LowMemory
  /-- The frame that `proc_alloc` has given to the process for its kernel stack. -/
  stackFrame : Slot → Frame

namespace Windows

/-- The three copies of the windows, as `mmu_map_window` sees them. -/
def view (s : Windows) : WindowState where
  mmuPageTable := s.mmuPageTable.windows
  kernelPageTable := s.kernelPageTable.windows
  kernelLowMemory := some (s.kernelLowMemory s.table.current).windows

/-- Store the three copies of the windows. -/
def setView (s : Windows) (v : WindowState) : Windows :=
  { s with
    mmuPageTable := { s.mmuPageTable with windows := v.mmuPageTable }
    kernelPageTable := { s.kernelPageTable with windows := v.kernelPageTable }
    kernelLowMemory := Function.update s.kernelLowMemory s.table.current
      { s.kernelLowMemory s.table.current with
        windows := v.kernelLowMemory.getD (s.kernelLowMemory s.table.current).windows } }

/-- `proc_set_ticks`: `MAP_PCB` and `UNMAP_PCB` around a store to the PCB. Interrupts are masked. -/
def setTicks (s : Windows) (p : Slot) : Windows :=
  let (oldFrame, v) := mmuMapWindow (fun _ => id) .window2 (s.kernelLowMemory p).stack s.view
  s.setView (mmuUnmapWindow (fun _ => id) .window2 oldFrame v)

/-- `context_switch` and the same part of `first_context_switch`. -/
def contextSwitch (s : Windows) (old new : Slot) : Windows :=
  let s := { s with kernelLowMemory := Function.update s.kernelLowMemory old s.kernelPageTable }
  { s with mmuPageTable := s.kernelLowMemory new, kernelPageTable := s.kernelLowMemory new }

/-- `kernel_epilogue`. -/
def epilogue (s : Windows) : Windows :=
  { s with kernelPageTable := s.kernelLowMemory s.table.current }

/-- `scheduler()` from its choice of `p` on; `t` is the process table with `p` running. The first
    time there is no process to save. -/
def schedule (s : Windows) (t : Table) (p : Slot) : Windows :=
  let old := s.table.current
  let s' := { s with table := t, started := true }.setTicks p
  if s.started then s'.contextSwitch old p else s'.epilogue

/-- `irq_handler` or `nmi_handler`, and `kernel_prologue` unless it ends the process. -/
def enter (s : Windows) : Windows :=
  let s := { s with mmuPageTable := s.kernelPageTable }
  if s.table.self.doomed then s
  else
    { s with
      kernelLowMemory :=
        Function.update s.kernelLowMemory s.table.current s.kernelPageTable }

/-- `proc_alloc`, if the step has taken a slot. -/
def allocate (s : Windows) (t : Table) (frame : Frame) : Windows :=
  { s with
    kernelLowMemory := fun i =>
      if s.table.Taken t i then ⟨frame, defaultWindows⟩ else s.kernelLowMemory i
    stackFrame := fun i => if s.table.Taken t i then frame else s.stackFrame i }

/-- `kernel_epilogue`, if the step returns to user mode. -/
def leave (s : Windows) (t : Table) : Windows :=
  if t.inUser && !s.table.inUser then s.epilogue else s

/-- What can happen next. -/
inductive Event where
  | act (a : Act)
  /-- A step of the process table; `frame` is what `kalloc()` gives `proc_alloc`. -/
  | table (e : Table.Event) (frame : Frame)

/-- The windows behind a step of the process table. -/
def follow (s : Windows) (e : Table.Event) (frame : Frame) (t : Table) : Windows :=
  match e with
  | .dispatch p => s.schedule t p
  | .trap _ _ => { s.enter.allocate t frame with table := t }
  | _ => { (s.allocate t frame).leave t with table := t }

/-- One event; `none` if it cannot happen. -/
def perform (s : Windows) : Event → Option Windows
  | .act a =>
    if s.started = true ∧ s.table.inUser = false ∧ (s.table.running = true ∨ a.isInterrupt = true) then
      some (s.setView (a.run s.view))
    else none
  | .table e frame => (s.table.perform e).map (s.follow e frame)

/-- The step relation of the events. -/
def Step (s : Windows) (e : Event) (t : Windows) : Prop := s.perform e = some t

/-- `mmu_init` and `run_init_process`: "init" has a frame for its kernel stack. -/
def boot (code : Page) (top : Word) (frame : Frame) : Windows where
  table := Table.boot code top
  started := false
  mmuPageTable := ⟨0, defaultWindows⟩
  kernelPageTable := ⟨0, defaultWindows⟩
  kernelLowMemory := fun i => if i = initProcess then ⟨frame, defaultWindows⟩ else ⟨0, fun _ => 0⟩
  stackFrame := fun i => if i = initProcess then frame else 0

/-! ## §2 What the operations change -/

variable {s t u v : Windows}

theorem Step.table {e : Table.Event} {frame : Frame} (h : Step s (.table e frame) t) :
    Table.Step s.table e t.table := by
  obtain ⟨t', hStep, rfl⟩ := Option.map_eq_some_iff.mp h
  have hTable : (s.follow e frame t').table = t' := by
    unfold follow
    split
    · simp only [schedule]
      split
      · rfl
      · rfl
    · rfl
    · rfl
  rw [hTable]
  exact hStep

/-- Window calls are about the windows of the running process. -/
theorem setView_low (s : Windows) (v : WindowState) (i : Slot) (h : i ≠ s.table.current) :
    (s.setView v).kernelLowMemory i = s.kernelLowMemory i :=
  Function.update_of_ne h ..

theorem setView_stack (s : Windows) (v : WindowState) (i : Slot) :
    ((s.setView v).kernelLowMemory i).stack = (s.kernelLowMemory i).stack := by
  by_cases h : i = s.table.current
  · simp [setView, h]
  · rw [setView_low s v i h]

/-- `MAP_PCB` and `UNMAP_PCB` leave window 2 as the shadow table has it, in the copy of the current
    process too. -/
theorem setTicks_eq (s : Windows) (p : Slot) :
    s.setTicks p = s.setView (s.view.resync fun w => w == .window2) := by
  have hRun := Handler.run_spec (.nest .window2 (s.kernelLowMemory p).stack .done .done) s.view
  have hTouches : (Handler.nest .window2 (s.kernelLowMemory p).stack .done .done).touches =
      fun w => w == .window2 := by
    funext w
    simp [Handler.touches]
  rw [hTouches] at hRun
  rw [← hRun]
  rfl

/-- What `scheduler()` leaves for the process that it resumes. -/
def handover (s : Windows) (p : Slot) : LowMemory :=
  if p = s.table.current then s.kernelPageTable
  else
    ⟨(s.kernelLowMemory p).stack,
      Function.update (s.kernelLowMemory p).windows .window2 (s.kernelPageTable.windows .window2)⟩

theorem schedule_started (t' : Table) (p : Slot) (hStarted : s.started = true)
    (hCurrent : t'.current = p) :
    (s.schedule t' p).mmuPageTable = s.handover p ∧
      (s.schedule t' p).kernelPageTable = s.handover p ∧
      (s.schedule t' p).kernelLowMemory p = s.handover p ∧
      ∀ q, q ≠ p → (s.schedule t' p).kernelLowMemory q =
        if q = s.table.current then s.kernelPageTable else s.kernelLowMemory q := by
  -- the windows of the next process, behind the store to its PCB
  have hTicks : ({ s with table := t', started := true }.setTicks p).kernelLowMemory p =
      ⟨(s.kernelLowMemory p).stack,
        Function.update (s.kernelLowMemory p).windows .window2
          (s.kernelPageTable.windows .window2)⟩ := by
    rw [setTicks_eq]
    simp only [setView, view, WindowState.resync, hCurrent, Function.update_self, Option.map_some,
      Option.getD_some, LowMemory.mk.injEq, true_and]
    funext w
    by_cases hw : w = .window2
    · simp [hw]
    · simp [hw]
  have hOthers : ∀ q, q ≠ p → ({ s with table := t', started := true }.setTicks p).kernelLowMemory q =
      s.kernelLowMemory q := by
    intro q hq
    rw [setTicks_eq, setView_low]
    rw [hCurrent]
    exact hq
  have hShadow : ({ s with table := t', started := true }.setTicks p).kernelPageTable =
      s.kernelPageTable := by
    rw [setTicks_eq]
    rfl
  have hLow : ∀ q, (s.schedule t' p).kernelLowMemory q = if q = s.table.current then s.kernelPageTable
      else ({ s with table := t', started := true }.setTicks p).kernelLowMemory q := by
    intro q
    simp only [schedule, hStarted, if_true, contextSwitch, hShadow, Function.update_apply]
  have hNext : (s.schedule t' p).kernelLowMemory p = s.handover p := by
    rw [hLow, hTicks, handover]
  refine ⟨?_, ?_, hNext, ?_⟩
  · rw [← hNext]
    simp only [schedule, hStarted, if_true, contextSwitch]
  · rw [← hNext]
    simp only [schedule, hStarted, if_true, contextSwitch]
  · intro q hq
    rw [hLow, hOthers q hq]

theorem schedule_first (t' : Table) (p : Slot) (hStarted : s.started = false)
    (hCurrent : t'.current = p) :
    (s.schedule t' p).kernelPageTable.stack = (s.kernelLowMemory p).stack ∧
      ∀ q, ((s.schedule t' p).kernelLowMemory q).stack = (s.kernelLowMemory q).stack := by
  have hStack : ∀ q, ((s.schedule t' p).kernelLowMemory q).stack = (s.kernelLowMemory q).stack := by
    intro q
    simp only [schedule, hStarted, Bool.false_eq_true, if_false, epilogue]
    rw [setTicks_eq, setView_stack]
  refine ⟨?_, hStack⟩
  rw [← hStack p]
  simp only [schedule, hStarted, Bool.false_eq_true, if_false, epilogue, setTicks_eq]
  simp only [setView, hCurrent]

theorem schedule_table (s : Windows) (t' : Table) (p : Slot) :
    (s.schedule t' p).table = t' ∧ (s.schedule t' p).started = true ∧
      (s.schedule t' p).stackFrame = s.stackFrame := by
  simp only [schedule]
  split
  · exact ⟨rfl, rfl, rfl⟩
  · exact ⟨rfl, rfl, rfl⟩

theorem allocate_of_used (t' : Table) (frame : Frame) {i : Slot}
    (h : (s.table.procs i).state ≠ .unused) :
    (s.allocate t' frame).kernelLowMemory i = s.kernelLowMemory i ∧
      (s.allocate t' frame).stackFrame i = s.stackFrame i := by
  have hNot : ¬ s.table.Taken t' i := fun hTaken => h hTaken.1
  simp only [allocate, if_neg hNot, and_self]

theorem enter_table (s : Windows) : s.enter.table = s.table := by
  simp only [enter]
  split
  · rfl
  · rfl

theorem enter_low (s : Windows) (i : Slot) (h : i ≠ s.table.current) :
    s.enter.kernelLowMemory i = s.kernelLowMemory i := by
  simp only [enter]
  split
  · rfl
  · exact Function.update_of_ne h ..

/-- A step of the process table is a dispatch, a trap or neither. -/
theorem step_cases {e : Table.Event} {frame : Frame} (h : Step s (.table e frame) t) :
    Table.Step s.table e t.table ∧
      ((∃ p, e = .dispatch p ∧ t = s.schedule (s.table.dispatch p) p) ∨
        (∀ p, e ≠ .dispatch p) ∧
          (s.table.running = true ∧ t = { s.enter.allocate t.table frame with table := t.table } ∨
            t = { (s.allocate t.table frame).leave t.table with table := t.table })) := by
  have hTable := h.table
  obtain ⟨t', hStep, rfl⟩ := Option.map_eq_some_iff.mp h
  refine ⟨hTable, ?_⟩
  cases e with
  | dispatch p =>
    obtain ⟨-, hEq⟩ := Option.ite_none_right_eq_some.mp hStep
    obtain rfl := Option.some.inj hEq
    exact .inl ⟨p, rfl, rfl⟩
  | trap trap ax => exact .inr ⟨nofun, .inl ⟨(Option.ite_none_right_eq_some.mp hStep).1, rfl⟩⟩
  | _ => exact .inr ⟨nofun, .inr rfl⟩

/-! ## §3 The kernel stack frames -/

/-- Segment 0 is the kernel stack frame of the current process, and every process has its own in its
    low memory. -/
structure Owned (s : Windows) : Prop where
  life : s.table.Life
  begun : s.table.running = true → s.started = true
  own : ∀ i, (s.table.procs i).state ≠ .unused → (s.kernelLowMemory i).stack = s.stackFrame i
  mapped : s.started = true → s.kernelPageTable.stack = s.stackFrame s.table.current

namespace Owned

theorem act (h : Owned s) {a : Act} (hStep : Step s (.act a) t) : Owned t := by
  obtain ⟨-, hEq⟩ := Option.ite_none_right_eq_some.mp hStep
  obtain rfl := Option.some.inj hEq
  refine ⟨h.life, h.begun, fun i hUsed => ?_, h.mapped⟩
  rw [setView_stack]
  exact h.own i hUsed

theorem schedule (h : Owned s) {p : Slot} (hStep : Table.Step s.table (.dispatch p) (s.table.dispatch p)) :
    Owned (s.schedule (s.table.dispatch p) p) := by
  obtain ⟨⟨hIdle, hSearch⟩, -⟩ := Option.ite_none_right_eq_some.mp hStep
  have hState := search_some hSearch
  have hUsed : (s.table.procs p).state ≠ .unused := by
    intro hUnused
    simp [Table.runnable, hUnused, ProcState.runnable] at hState
  have hBefore : ∀ i, ((s.table.dispatch p).procs i).state ≠ .unused →
      (s.table.procs i).state ≠ .unused := by
    intro i hAfter hUnused
    exact hAfter (((Table.Steady.dispatch hState).keeps i).unused.mpr hUnused)
  obtain ⟨hTable, hBegun, hFrames⟩ := schedule_table s (s.table.dispatch p) p
  have hLife : (s.table.dispatch p).Life := h.life.dispatch hIdle hState
  -- the first dispatch of all is to a stack never left; later ones come from another stack
  cases hStarted : s.started with
  | true =>
    obtain ⟨-, hShadow, hNext, hOthers⟩ :=
      schedule_started (s.table.dispatch p) p hStarted rfl
    -- what is handed over is the frame of `p`, also when `p` follows itself
    have hStack : (s.handover p).stack = s.stackFrame p := by
      rw [handover]
      split
      · next hEq => rw [h.mapped hStarted, hEq]
      · exact h.own p hUsed
    refine ⟨by rw [hTable]; exact hLife, fun _ => hBegun, fun i hi => ?_, fun _ => ?_⟩
    · rw [hFrames]
      rw [hTable] at hi
      by_cases hp : i = p
      · rw [hp, hNext, hStack]
      · rw [hOthers i hp]
        split
        · next hEq => rw [h.mapped hStarted, hEq]
        · exact h.own i (hBefore i hi)
    · rw [hFrames, hTable, hShadow, hStack]
      rfl
  | false =>
    obtain ⟨hShadow, hOthers⟩ := schedule_first (s.table.dispatch p) p hStarted rfl
    refine ⟨by rw [hTable]; exact hLife, fun _ => hBegun, fun i hi => ?_, fun _ => ?_⟩
    · rw [hFrames, hOthers]
      rw [hTable] at hi
      exact h.own i (hBefore i hi)
    · rw [hFrames, hTable, hShadow, h.own p hUsed]
      rfl

/-- Behind a step other than a dispatch the new processes have frames of their own. -/
theorem allocate_own (h : Owned s) {t' : Table} (frame : Frame) (i : Slot)
    (hUsed : (t'.procs i).state ≠ .unused) :
    ((s.allocate t' frame).kernelLowMemory i).stack = (s.allocate t' frame).stackFrame i := by
  by_cases hTaken : s.table.Taken t' i
  · simp only [allocate, if_pos hTaken]
  · have hBefore : (s.table.procs i).state ≠ .unused := fun hUnused => hTaken ⟨hUnused, hUsed⟩
    obtain ⟨hLow, hFrame⟩ := allocate_of_used t' frame hBefore
    rw [hLow, hFrame]
    exact h.own i hBefore

theorem allocate (h : Owned s) {e : Table.Event} {t' : Table} (frame : Frame)
    (hStep : Table.Step s.table e t') (hEvent : ∀ p, e ≠ .dispatch p) :
    Owned { s.allocate t' frame with table := t' } := by
  obtain ⟨hCurrent, hIdle⟩ := Table.Step.turn hStep hEvent
  have hLife : t'.Life := Table.Moves.invariant (fun _ _ hBefore => hBefore.move)
    (Table.Step.moves hStep) h.life
  -- the current process keeps its frame
  have hFrame : (s.allocate t' frame).stackFrame s.table.current = s.stackFrame s.table.current := by
    by_cases hTaken : s.table.Taken t' s.table.current
    · exact absurd hTaken.1 (hTaken.current_used hStep h.life)
    · simp only [Windows.allocate, if_neg hTaken]
  refine ⟨hLife, fun hRunning => h.begun (by grind), h.allocate_own frame, fun hStarted => ?_⟩
  dsimp only
  rw [hCurrent, hFrame]
  exact h.mapped hStarted

theorem enter (h : Owned s) (hRunning : s.table.running = true) : Owned s.enter := by
  have hStarted := h.begun hRunning
  simp only [Windows.enter]
  split
  · exact ⟨h.life, h.begun, h.own, h.mapped⟩
  · refine ⟨h.life, h.begun, fun i hUsed => ?_, h.mapped⟩
    by_cases hi : i = s.table.current
    · simp only [hi, Function.update_self]
      exact h.mapped hStarted
    · simp only [Function.update_of_ne hi]
      exact h.own i hUsed

theorem leave (h : Owned s) {e : Table.Event} {t' : Table} (frame : Frame)
    (hStep : Table.Step s.table e t') (hEvent : ∀ p, e ≠ .dispatch p) :
    Owned { (s.allocate t' frame).leave t' with table := t' } := by
  have hBoth := h.allocate frame hStep hEvent
  obtain ⟨hCurrent, -⟩ := Table.Step.turn hStep hEvent
  rw [Windows.leave]
  split
  · next hUser =>
    refine ⟨hBoth.life, hBoth.begun, hBoth.own, fun _ => ?_⟩
    have hRunning : t'.running = true := by
      simp only [Table.inUser, Bool.and_eq_true] at hUser
      exact hUser.1.1
    have hUsed : (t'.procs t'.current).state ≠ .unused := by
      rw [← Table.self, hBoth.life.turn hRunning]
      simp
    have hOwn := hBoth.own t'.current hUsed
    rw [hCurrent] at hOwn ⊢
    exact hOwn
  · exact hBoth

theorem step (h : Owned s) {e : Event} (hStep : Step s e t) : Owned t := by
  cases e with
  | act a => exact h.act hStep
  | table e frame =>
    obtain ⟨hTable, ⟨p, rfl, rfl⟩ | ⟨hEvent, ⟨hRunning, hEq⟩ | hEq⟩⟩ := step_cases hStep
    · rw [(schedule_table s _ p).1] at hTable
      exact h.schedule hTable
    · rw [hEq]
      rw [← enter_table s] at hTable
      exact (h.enter hRunning).allocate frame hTable hEvent
    · rw [hEq]
      exact h.leave frame hTable hEvent

theorem boot (code : Page) (top : Word) (frame : Frame) : Owned (boot code top frame) := by
  refine ⟨Table.Life.boot code top, nofun, fun i hUsed => ?_, nofun⟩
  simp only [Windows.boot]
  split
  · rfl
  · rfl

end Owned

/-! ## §4 A suspended process -/

/-- A process that has called `scheduler()` with its segments mapped as in `f`. They are in the
    kernel page table until another process is dispatched, and then in its low memory. -/
structure Waits (p : Slot) (f : LowMemory) (s : Windows) : Prop where
  alive : Table.Alive (s.table.procs p)
  away : s.table.running = true → s.table.current ≠ p
  started : s.started = true
  saved : if s.table.current = p then s.kernelPageTable = f else s.kernelLowMemory p = f

namespace Waits

variable {p : Slot} {f : LowMemory}

theorem act (h : Waits p f s) {a : Act} (hStep : Step s (.act a) t) : Waits p f t := by
  obtain ⟨⟨-, -, hWho⟩, hEq⟩ := Option.ite_none_right_eq_some.mp hStep
  obtain rfl := Option.some.inj hEq
  refine ⟨h.alive, h.away, h.started, ?_⟩
  have hSaved := h.saved
  show if s.table.current = p then _ else _
  split
  · next hIs =>
    -- the idle loop: the handlers leave the shadow table alone
    rw [if_pos hIs] at hSaved
    have hIdle : ¬ s.table.running = true := fun hRunning => h.away hRunning hIs
    obtain ⟨hs, rfl⟩ : ∃ hs, a = .interrupt hs := by
      cases a with
      | interrupt hs => exact ⟨hs, rfl⟩
      | _ => exact absurd (hWho.resolve_left hIdle) (by simp [Act.isInterrupt])
    rw [← hSaved]
    simp only [setView, Act.run, runHandlers_spec]
    rfl
  · next hNot =>
    rw [if_neg hNot] at hSaved
    rw [setView_low _ _ _ fun hIs => hNot hIs.symm]
    exact hSaved

theorem table (h : Waits p f s) (hOwned : Owned s) {e : Table.Event} {frame : Frame}
    (hOther : e ≠ .dispatch p) (hStep : Step s (.table e frame) t) : Waits p f t := by
  obtain ⟨hTable, hCases⟩ := step_cases hStep
  have hAlive := Table.Step.alive hOwned.life hTable h.alive h.away
  have hSaved := h.saved
  rcases hCases with ⟨q, rfl, rfl⟩ | ⟨hEvent, hEq⟩
  · have hNe : p ≠ q := fun hEq => hOther (hEq ▸ rfl)
    obtain ⟨hAfter, hStarted, -⟩ := schedule_table s (s.table.dispatch q) q
    obtain ⟨-, -, -, hOthers⟩ :=
      schedule_started (s.table.dispatch q) q h.started rfl
    have hCurrent : (s.schedule (s.table.dispatch q) q).table.current = q := by
      rw [hAfter]
      rfl
    refine ⟨hAlive, fun _ => ?_, hStarted, ?_⟩
    · rw [hCurrent]
      exact hNe.symm
    · rw [hCurrent, if_neg hNe.symm, hOthers p hNe]
      split
      · next hIs => rwa [if_pos hIs.symm] at hSaved
      · next hNot => rwa [if_neg fun hIs => hNot hIs.symm] at hSaved
  · obtain ⟨hCurrent, hIdle⟩ := Table.Step.turn hTable hEvent
    have hAway : t.table.running = true → t.table.current ≠ p := by
      rw [hCurrent]
      exact fun hRunning => h.away (by grind)
    rcases hEq with ⟨hRunning, hEq⟩ | hEq
    · -- a trap is made by another process
      have hNot := h.away hRunning
      have hUsed : (s.enter.table.procs p).state ≠ .unused := by
        rw [enter_table]
        exact h.alive.1
      rw [if_neg hNot] at hSaved
      refine ⟨hAlive, hAway, ?_, ?_⟩
      · rw [hEq]
        exact (hOwned.enter hRunning).begun (by rw [enter_table]; exact hRunning)
      · rw [if_neg (hCurrent ▸ hNot), hEq, ← hSaved, ← enter_low s p hNot.symm]
        exact (allocate_of_used _ _ hUsed).1
    · have hLow := (allocate_of_used t.table frame h.alive.1).1
      refine ⟨hAlive, hAway, ?_, ?_⟩
      · rw [hEq, leave]
        split
        · exact h.started
        · exact h.started
      · rw [hCurrent]
        split
        · next hIs =>
          -- while it is still the current process, nobody returns to user mode
          have hNoUser : t.table.inUser = false := by
            rw [Table.inUser, Bool.and_eq_false_iff]
            exact .inl (Bool.eq_false_iff.mpr fun hRunning => hAway hRunning (hCurrent.trans hIs))
          rw [if_pos hIs] at hSaved
          rw [hEq, leave, hNoUser]
          exact hSaved
        · next hNot =>
          rw [if_neg hNot, ← hLow] at hSaved
          rw [hEq, leave]
          split
          · exact hSaved
          · exact hSaved

theorem step (h : Waits p f s) (hOwned : Owned s) {e : Event}
    (hOther : ∀ frame, e ≠ .table (.dispatch p) frame) (hStep : Step s e t) : Waits p f t := by
  cases e with
  | act a => exact h.act hStep
  | table e frame =>
    refine h.table hOwned ?_ hStep
    rintro rfl
    exact hOther frame rfl

theorem run (h : Waits p f s) (hOwned : Owned s) {es : List Event}
    (hOther : ∀ e ∈ es, ∀ frame, e ≠ .table (.dispatch p) frame) (hRun : Run Step s es t) :
    Waits p f t := by
  induction hRun with
  | nil s => exact h
  | cons head _ ih =>
    have hNext := h.step hOwned (hOther _ List.mem_cons_self) head
    exact ih hNext (hOwned.step head) fun e hMem => hOther e (List.mem_cons_of_mem _ hMem)

/-- The process is resumed with the window 2 of whoever called `scheduler()`. -/
theorem resumed (h : Waits p f s) {frame : Frame} (hStep : Step s (.table (.dispatch p) frame) t) :
    t.mmuPageTable = s.handover p ∧ t.kernelPageTable = s.handover p ∧
      t.kernelLowMemory p = s.handover p ∧
      s.handover p =
        ⟨f.stack, Function.update f.windows .window2 (s.kernelPageTable.windows .window2)⟩ := by
  obtain ⟨-, ⟨q, hEvent, rfl⟩ | ⟨hEvent, -⟩⟩ := step_cases hStep
  · obtain rfl : p = q := by cases hEvent; rfl
    obtain ⟨hMmu, hShadow, hLow, -⟩ :=
      schedule_started (s.table.dispatch p) p h.started rfl
    refine ⟨hMmu, hShadow, hLow, ?_⟩
    have hSaved := h.saved
    rw [handover]
    by_cases hIs : p = s.table.current
    · rw [if_pos hIs]
      rw [if_pos hIs.symm] at hSaved
      rw [← hSaved, Function.update_eq_self]
    · rw [if_neg hIs]
      rw [if_neg fun hEq => hIs hEq.symm] at hSaved
      rw [hSaved]
  · exact absurd rfl (hEvent p)

end Waits

/-- A process that calls `scheduler()` is the current one until the switch. -/
theorem call_current {e : Event} (hRunning : s.table.running = true) (hStep : Step s e t)
    (hIdle : t.table.running = false) :
    t.table.current = s.table.current ∧ t.started = s.started := by
  cases e with
  | act a =>
    obtain ⟨-, hEq⟩ := Option.ite_none_right_eq_some.mp hStep
    obtain rfl := Option.some.inj hEq
    exact ⟨rfl, rfl⟩
  | table e frame =>
    obtain ⟨hTable, ⟨p, rfl, -⟩ | ⟨hEvent, hEq⟩⟩ := step_cases hStep
    · obtain ⟨⟨hNot, -⟩, -⟩ := Option.ite_none_right_eq_some.mp hTable
      rw [hRunning] at hNot
      cases hNot
    · refine ⟨(Table.Step.turn hTable hEvent).1, ?_⟩
      rcases hEq with ⟨-, hEq⟩ | hEq
      · rw [hEq, enter]
        split
        · rfl
        · rfl
      · rw [hEq, leave]
        split
        · rfl
        · rfl

theorem Waits.of_call {e : Event} (h : Owned s) (hRunning : s.table.running = true)
    (hStep : Step s e t) (hIdle : t.table.running = false)
    (hState : (t.table.procs s.table.current).state = .ready ∨
      (t.table.procs s.table.current).state = .sleeping) :
    Waits s.table.current t.kernelPageTable t ∧
      t.kernelPageTable.stack = t.stackFrame s.table.current := by
  obtain ⟨hCurrent, hStarted⟩ := call_current hRunning hStep hIdle
  have hBegun : t.started = true := hStarted.trans (h.begun hRunning)
  have hStack := (h.step hStep).mapped hBegun
  rw [hCurrent] at hStack
  refine ⟨⟨?_, fun hRuns => ?_, hBegun, by rw [if_pos hCurrent]⟩, hStack⟩
  · rcases hState with h | h
    · simp [Table.Alive, h]
    · simp [Table.Alive, h]
  · rw [hIdle] at hRuns
    cases hRuns

theorem run_owned {code : Page} {top : Word} {frame : Frame} {es : List Event}
    (hRun : Run Step (boot code top frame) es s) : Owned s :=
  @Run.invariant _ _ _ _ _ _ Owned (fun _ _ _ h => h.step) hRun (Owned.boot code top frame)

/-- Segments 0 to 2 of the process are mapped as in `f`, in all three copies. -/
def Mapped (s : Windows) (p : Slot) (f : LowMemory) : Prop :=
  s.mmuPageTable = f ∧ s.kernelPageTable = f ∧ s.kernelLowMemory p = f

/-- **A suspended process keeps its windows exactly if whoever resumes it has its window 2.** The
    kernel stack frame and window 1 are always its own. The switch loads what has been saved for
    the process, but its ticks are set in between, through window 2, and `mmu_unmap_window` notes
    there what window 2 shows of the process that is left. -/
theorem suspended_windows_iff {code : Page} {top : Word} {frame frame' : Frame}
    {es es' : List Event} {e : Event} (hRun : Run Step (boot code top frame) es s)
    (hRunning : s.table.running = true) (hCall : Step s e t) (hIdle : t.table.running = false)
    (hState : (t.table.procs s.table.current).state = .ready ∨
      (t.table.procs s.table.current).state = .sleeping)
    (hWait : Run Step t es' u)
    (hOther : ∀ e ∈ es', ∀ frame, e ≠ .table (.dispatch s.table.current) frame)
    (hBack : Step u (.table (.dispatch s.table.current) frame') v) :
    v.Mapped s.table.current ⟨t.stackFrame s.table.current, t.kernelPageTable.windows⟩ ↔
      u.kernelPageTable.windows .window2 = t.kernelPageTable.windows .window2 := by
  have hOwned := run_owned hRun
  obtain ⟨hWaits, hStack⟩ := Waits.of_call hOwned hRunning hCall hIdle hState
  obtain ⟨hMmu, hShadow, hLow, hFrames⟩ :=
    (hWaits.run (hOwned.step hCall) hOther hWait).resumed hBack
  rw [Mapped, hMmu, hShadow, hLow, hFrames, ← hStack]
  constructor
  · rintro ⟨hEq, -⟩
    have hWindow := congrFun (congrArg LowMemory.windows hEq) .window2
    simpa using hWindow
  · intro hSame
    rw [hSame, Function.update_eq_self]
    exact ⟨rfl, rfl, rfl⟩

/-! ## §5 A parent and its child -/

theorem step_of_table {e : Table.Event} {t' : Table} (frame : Frame)
    (h : Table.Step s.table e t') : ∃ t, Step s (.table e frame) t ∧ t.table = t' := by
  have hStep : Step s (.table e frame) (s.follow e frame t') :=
    Option.map_eq_some_iff.mpr ⟨t', h, rfl⟩
  refine ⟨_, hStep, ?_⟩
  exact Option.some.inj (hStep.table.symm.trans h)

/-- A run of the process table is a run of the windows. -/
theorem run_of_table {es : List Table.Event} {t' : Table} (frame : Frame)
    (h : Run Table.Step s.table es t') :
    ∃ t, Run Step s (es.map fun e => .table e frame) t ∧ t.table = t' := by
  generalize hs : s.table = s' at h
  induction h generalizing s with
  | nil s' => exact ⟨s, .nil s, hs⟩
  | cons head _ ih =>
    subst hs
    obtain ⟨s₁, hStep, hTable⟩ := step_of_table frame head
    obtain ⟨t, hRun, hEq⟩ := ih hTable
    exact ⟨t, .cons hStep hRun, hEq⟩

/-- A process in the kernel maps a window. -/
theorem step_map (hStarted : s.started = true) (hKernel : s.table.inUser = false)
    (hRunning : s.table.running = true) (w : Window) (f : Frame) :
    ∃ t, Step s (.act (.map w f fun _ => [])) t ∧ t.table = s.table ∧
      t.kernelPageTable.windows w = f := by
  refine ⟨_, if_pos ⟨hStarted, hKernel, .inl hRunning⟩, rfl, ?_⟩
  simp [setView, Act.run, mmuMapWindow, irqAt, runHandlers, view, WindowState.storeMmu,
    WindowState.storeShadow, WindowState.storeTracking]

/-- A call of `scheduler()` leaves the kernel page table to the switch. -/
theorem call_shadow {e : Table.Event} {frame : Frame} (hStep : Step s (.table e frame) t)
    (hEvent : ∀ p, e ≠ .dispatch p) (hIdle : t.table.running = false) :
    t.kernelPageTable = s.kernelPageTable := by
  have hNoUser : t.table.inUser = false := by simp [Table.inUser, hIdle]
  obtain ⟨-, ⟨p, hIs, -⟩ | ⟨-, ⟨-, hEq⟩ | hEq⟩⟩ := step_cases hStep
  · exact absurd hIs (hEvent p)
  · rw [hEq, enter]
    split
    · rfl
    · rfl
  · rw [hEq, leave, hNoUser]
    rfl

open Table in
/-- "init" yields in `sys_fork` and is the only process to be resumed. -/
theorem init_keeps_windows :
    ∃ es s t v, Run Step (boot (fun _ => 0) 0x800 16) es s ∧ s.table.current = 0 ∧
      Step s (.table (.fork true) 17) t ∧ Step t (.table (.dispatch 0) 0) v ∧
      v.Mapped 0 ⟨t.stackFrame 0, t.kernelPageTable.windows⟩ := by
  obtain ⟨s, hRun, hTable⟩ := run_of_table (s := boot (fun _ => 0) 0x800 16) 0
    ((boot_resting (fun _ => 0) 0x800).append (.cons (pair_trap (.brk 0x46) 0) (.nil _)))
  obtain ⟨t, hFork, hForked⟩ := step_of_table (s := s) 17 (hTable ▸ pair_fork rfl (by decide))
  obtain ⟨v, hBack, -⟩ := step_of_table (s := t) 0 (hForked ▸ pair_again rfl)
  have hCurrent : s.table.current = 0 := by rw [hTable, pair_current]
  have hIff := suspended_windows_iff hRun (by rw [hTable, pair_running]) hFork
    (by rw [hForked, pair_running]) (.inl (by rw [hCurrent, hForked, pair_procs_zero]; rfl)) (.nil t)
    nofun (hCurrent.symm ▸ hBack)
  rw [hCurrent] at hIff
  exact ⟨_, s, t, v, hRun, hCurrent, hFork, hBack, hIff.mpr rfl⟩

open Table in
/-- The child of a sleeping parent runs until it calls `sys_exit`. -/
theorem child_calls_exit {pid nextPid : Word} {log : List Notice} (pages : Segment → Option Page) :
    Run Table.Step
      (pair (parentAt (fun _ => 0) 0x800 .sleeping 0 (.proc 0) (.waiting 0))
        (childAt 0x800 .new pid 0 0 pages .fresh) 0 false 1 nextPid true log)
      [.dispatch 1, .proceed, .trap (.brk 0x45) 7]
      (pair (parentAt (fun _ => 0) 0x800 .sleeping 0 (.proc 0) (.waiting 0))
        (childAt 0x800 .running pid 7 0 pages (.trapped (.brk 0x45))) 1 true 2 nextPid true log) :=
  .cons pair_start (.cons pair_enter (.cons (pair_call 0x45 7) (.nil _)))

open Table in
/-- "init" sleeps in `sys_wait` with window 2 mapped to frame 32; its child maps window 2 to frame 33
    and exits. "init" is resumed with the frame of its child. -/
theorem child_takes_window :
    ∃ es s t u v es', Run Step (boot (fun _ => 0) 0x800 16) es s ∧ s.table.current = 0 ∧
      Step s (.table .proceed 0) t ∧ (t.table.procs 0).state = .sleeping ∧ Run Step t es' u ∧
      (∀ e ∈ es', ∀ frame, e ≠ .table (.dispatch 0) frame) ∧
      Step u (.table (.dispatch 0) 0) v ∧
      ¬ v.Mapped 0 ⟨t.stackFrame 0, t.kernelPageTable.windows⟩ := by
  obtain ⟨s₀, hBoot, hCalled⟩ := run_of_table (s := boot (fun _ => 0) 0x800 16) 17
    ((boot_forked (fun _ => 0) 0x800).append (.cons (pair_trap (.brk 0x57) 0) (.nil _)))
  have hInit : s₀.table.running = true ∧ s₀.table.inUser = false := by
    rw [hCalled]
    exact ⟨rfl, rfl⟩
  obtain ⟨s, hMap, hTable, hWindow⟩ :=
    step_map ((run_owned hBoot).begun hInit.1) hInit.2 hInit.1 .window2 32
  have hRun := hBoot.append (.cons hMap (.nil _))
  rw [hCalled] at hTable
  obtain ⟨t, hSleep, hSlept⟩ := step_of_table (s := s) 0 (hTable ▸ pair_wait)
  -- the child runs, maps the window and exits
  obtain ⟨w₀, hChild, hExiting⟩ := run_of_table (s := t) 0 (hSlept ▸ child_calls_exit _)
  have hTraps : w₀.table.running = true ∧ w₀.table.inUser = false := by
    rw [hExiting]
    exact ⟨rfl, rfl⟩
  have hOwned := (run_owned hRun).step hSleep
  have hOwned' : Owned w₀ := @Run.invariant _ _ _ _ _ _ Owned (fun _ _ _ h => h.step) hChild hOwned
  obtain ⟨w, hMap', hSame, hWindow'⟩ :=
    step_map (hOwned'.begun hTraps.1) hTraps.2 hTraps.1 .window2 33
  rw [hExiting] at hSame
  obtain ⟨u, hExit, hExited⟩ := step_of_table (s := w) 0 (hSame ▸ pair_exit 7)
  obtain ⟨v, hBack, -⟩ := step_of_table (s := u) 0 (hExited ▸ pair_again rfl)
  have hCurrent : s.table.current = 0 := by rw [hTable, pair_current]
  have hState : (t.table.procs 0).state = .sleeping := by
    rw [hSlept, pair_procs_zero]
    rfl
  have hAway := hChild.append (.cons hMap' (.cons hExit (.nil _)))
  refine ⟨_, s, t, u, v, _, hRun, hCurrent, hSleep, hState, hAway, by simp, hBack, ?_⟩
  obtain ⟨hWaits, -⟩ := Waits.of_call (run_owned hRun) (by rw [hTable, pair_running]) hSleep
    (by rw [hSlept, pair_running]) (.inr (hCurrent ▸ hState))
  rw [hCurrent] at hWaits
  obtain ⟨-, hShadow, -, hFrames⟩ := (hWaits.run hOwned (by simp) hAway).resumed hBack
  rintro ⟨-, hMapped, -⟩
  -- the window of the child against the window of "init"
  have hBefore : t.kernelPageTable.windows .window2 = 32 := by
    rw [call_shadow hSleep nofun (by rw [hSlept, pair_running])]
    exact hWindow
  have hAfter : u.kernelPageTable.windows .window2 = 33 := by
    rw [call_shadow hExit nofun (by rw [hExited, pair_running])]
    exact hWindow'
  rw [hShadow, hFrames] at hMapped
  have hEq := congrFun (congrArg LowMemory.windows hMapped) .window2
  dsimp only at hEq
  rw [Function.update_self, hBefore, hAfter] at hEq
  exact absurd hEq (by decide)

end Windows

end Xv6502.Kernel
