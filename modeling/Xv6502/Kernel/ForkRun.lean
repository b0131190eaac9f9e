import Xv6502.Kernel.Bystanders

/-!
# Runs of `sys_fork`

A call of `sys_fork` runs from one point where the kernel may switch to the next, and other
processes run in between (`ForkRun`). As long as their steps are clean, the call keeps what it
needs (`Forking`): the parent's page table, pages and context are as they were at the call, and the
child owns exactly the frames that the call has got from `kalloc`.
-/

namespace Xv6502.Kernel

open Xv6502.Emulator

/-! ## §1 Calls -/

/-- -1 as an `int`. -/
def minusOne : Word := 0xFFFF

namespace ProcKernel

/-- What `sys_fork` of `current_process` returns with an event; `none` if it goes on. -/
def forkResult (s : ProcKernel) : ProcEvent → Option Word
  | .fork =>
    -- no slot, or no frame for the kernel stack: the call fails before it has built anything
    if s.kernel.firstUnused = none ∨ s.kernel.pool.kalloc.1 = frameUnused then some minusOne
    else none
  | .act .proceed =>
    match s.kernel.self.task with
    | .fork _ segment table =>
      -- behind the last segment it returns the pid of the child, and at a mapped one without
      -- memory -1
      if pageTableSize ≤ segment then some (s.childPid s.kernel.current)
      else if table segment ≠ frameUnused ∧ s.kernel.pool.kalloc.1 = frameUnused then
        some minusOne
      else none
    | _ => none
  | _ => none

/-- The frame that `sys_fork` of `current_process` gets from `kalloc` in an event. -/
def obtains (s : ProcKernel) : ProcEvent → List Frame
  | .fork => if s.forkResult .fork = none then [s.kernel.pool.kalloc.1] else []
  | .act .proceed =>
    match s.kernel.self.task with
    | .fork _ segment table =>
      if segment < pageTableSize ∧ table segment ≠ frameUnused ∧
          s.kernel.pool.kalloc.1 ≠ frameUnused then [s.kernel.pool.kalloc.1]
      else []
    | _ => []
  | _ => []

end ProcKernel

/-- An event and the states around it. -/
structure ProcStep where
  before : ProcKernel
  event : ProcEvent
  after : ProcKernel

namespace ProcStep

/-- The step is one of the `sys_fork` of a process. -/
def OfFork (t : ProcStep) (p : Slot) : Prop :=
  t.before.kernel.current = p ∧ (t.event = .fork ∨ t.event = .act .proceed)

/-- The frame that the `sys_fork` of a process gets in the step. -/
def obtains (t : ProcStep) (p : Slot) : List Frame :=
  if t.before.kernel.current = p then t.before.obtains t.event else []

end ProcStep

/-- The frames that the `sys_fork` of a process gets on the way. -/
def obtained (p : Slot) (ts : List ProcStep) : List Frame := ts.flatMap fun t => t.obtains p

/-- `p` has called `sys_fork` in `s₀`, and the call has not returned yet. -/
inductive ForkRun (address : Slot → Word) (p : Slot) (s₀ : ProcKernel) :
    List ProcStep → ProcKernel → Prop where
  | call {s : ProcKernel} (hCurrent : s₀.kernel.current = p)
      (hStep : s₀.perform address .fork = some s) (hOpen : s₀.forkResult .fork = none) :
      ForkRun address p s₀ [⟨s₀, .fork, s⟩] s
  | step {ts : List ProcStep} {s s' : ProcKernel} {e : ProcEvent}
      (h : ForkRun address p s₀ ts s) (hStep : s.perform address e = some s')
      (hClean : s.Clean e) (hOpen : s.kernel.current = p → s.forkResult e = none) :
      ForkRun address p s₀ (ts ++ [⟨s, e, s'⟩]) s'

/-- The call returns a value with a step, behind others. -/
inductive ForkReturns (address : Slot → Word) (p : Slot) (s₀ : ProcKernel) :
    List ProcStep → ProcStep → Word → Prop where
  | atOnce {s : ProcKernel} {w : Word} (hCurrent : s₀.kernel.current = p)
      (hStep : s₀.perform address .fork = some s) (hResult : s₀.forkResult .fork = some w) :
      ForkReturns address p s₀ [] ⟨s₀, .fork, s⟩ w
  | later {ts : List ProcStep} {s s' : ProcKernel} {w : Word}
      (h : ForkRun address p s₀ ts s) (hCurrent : s.kernel.current = p)
      (hStep : s.perform address (.act .proceed) = some s')
      (hResult : s.forkResult (.act .proceed) = some w) :
      ForkReturns address p s₀ ts ⟨s, .act .proceed, s'⟩ w

/-! ## §2 What the call keeps -/

/-- The page loop has come to a segment, and holds a frame if it has got one for it. -/
inductive AtSegment (child : Slot) (table : Nat → Frame) : Task → Nat → Option Frame → Prop where
  | ahead (segment : Nat) : AtSegment child table (.fork child segment table) segment none
  | holding (segment : Fin pageTableSize) (frame : Frame) (hMapped : table segment ≠ frameUnused)
      (hUsable : Usable frame) :
      AtSegment child table (.forkHolding child segment table frame) segment (some frame)

/-- The page table and the context, at the front of the `PCB`. -/
def InFront (offset : Nat) : Prop := pcbOffset ≤ offset ∧ offset < pcbOffset + Pcb.top

/-- The page table lies at the front. -/
theorem inTable_inFront (offset : Nat) (h : InTable offset) : ¬ ¬ InFront offset := by
  obtain ⟨hLow, hHigh⟩ := h
  simp only [pageTableSize] at hHigh
  intro hNot
  apply hNot
  constructor
  · exact hLow
  · simp only [Pcb.top]
    omega

namespace ProcKernel

/-- The page table of a process. -/
def tableOf (s : ProcKernel) (p : Slot) : Nat → Frame :=
  s.kernel.pool.entry (s.kernel.procs p).kernelFrame

end ProcKernel

/-- The invariant of a call in `s₀`: `p` builds `child` and has come to `segment`. -/
structure Forking (p : Slot) (s₀ : ProcKernel) (child : Slot) (ts : List ProcStep) (segment : Nat)
    (held : Option Frame) (s : ProcKernel) : Prop where
  owned : s.kernel.Owned
  task : AtSegment child (s₀.tableOf p) (s.kernel.procs p).task segment held
  current : s.kernel.current ≠ child
  bound : segment ≤ pageTableSize
  /-- The parent has kept its page table, its pages and its context. -/
  parent : LeftAlone s₀.kernel s.kernel p fun offset => ¬ InFront offset
  /-- The child has a frame for a segment if the parent has. -/
  mapped : ∀ m < segment, s.tableOf child m = frameUnused ↔ s₀.tableOf p m = frameUnused
  usable : ∀ m < pageTableSize, s.tableOf child m ≠ frameUnused → Usable (s.tableOf child m)
  /-- The frames that the call has got are those of the child and the one it holds. -/
  frames : ∀ frame, Usable frame →
    (obtained p ts).count frame = (if (s.kernel.procs child).kernelFrame = frame then 1 else 0) +
      mappings (s.tableOf child) frame 0 pageTableSize + if held = some frame then 1 else 0

section Invariant

variable {address : Slot → Word} {p child : Slot} {s₀ s s' : ProcKernel} {ts : List ProcStep}
  {segment : Nat} {held : Option Frame} {e : ProcEvent} {table : Nat → Frame} {task : Task}

theorem AtSegment.forking (h : AtSegment child table task segment held) :
    task.forking = some (child, segment) := by
  cases h <;> rfl

theorem AtSegment.holds (h : AtSegment child table task segment held) : task.held = held := by
  cases h <;> rfl

namespace Forking

theorem building (h : Forking p s₀ child ts segment held s) :
    ((s.kernel.procs p).state = .ready ∨ (s.kernel.procs p).state = .running) ∧
      (s.kernel.procs child).state = .building :=
  have hForking := h.owned.forking p child segment h.task.forking
  ⟨hForking.1, hForking.2.1⟩

theorem live (h : Forking p s₀ child ts segment held s) : s.kernel.Live p := by
  unfold KernelState.Live
  rcases h.building.1 with hReady | hRunning
  · simp [hReady]
  · simp [hRunning]

theorem live_child (h : Forking p s₀ child ts segment held s) : s.kernel.Live child := by
  unfold KernelState.Live
  simp [h.building.2]

theorem ne (h : Forking p s₀ child ts segment held s) : child ≠ p := by
  rintro rfl
  have hBuilding := h.building.2
  rcases h.building.1 with hReady | hRunning
  · simp [hBuilding] at hReady
  · simp [hBuilding] at hRunning

end Forking

/-! ## §3 The call -/

/-- A call that goes on has got a slot, a frame and a pid. -/
theorem fork_open (hStep : s₀.perform address .fork = some s) (hOpen : s₀.forkResult .fork = none) :
    ∃ child, s₀.kernel.firstUnused = some child ∧ s₀.kernel.pool.kalloc.1 ≠ frameUnused ∧
      s₀.nextPid ≠ 0 ∧ s =
        { kernel := ProcKernel.patchChild (s₀.kernel.forkInto child) child s₀.nextPid
            (address s₀.kernel.current)
          nextPid := s₀.nextPid + 1
          childPid := Function.update s₀.childPid s₀.kernel.current s₀.nextPid } := by
  obtain ⟨-, hStart⟩ := Option.ite_none_right_eq_some.mp hStep
  unfold ProcKernel.forkResult at hOpen
  have hBoth : ¬ (s₀.kernel.firstUnused = none ∨ s₀.kernel.pool.kalloc.1 = frameUnused) := by
    intro hEither
    rw [if_pos hEither] at hOpen
    cases hOpen
  push Not at hBoth
  obtain ⟨child, hChild⟩ := Option.ne_none_iff_exists'.mp hBoth.1
  unfold ProcKernel.forkStart at hStart
  rw [hChild] at hStart
  dsimp only at hStart
  rw [if_neg hBoth.2] at hStart
  obtain ⟨hPid, hSome⟩ := Option.ite_none_left_eq_some.mp hStart
  exact ⟨child, hChild, hBoth.2, hPid, (Option.some.inj hSome).symm⟩

/-- The call writes to the frame it has got alone. -/
theorem fork_mem (hOwned : s₀.kernel.Owned) (hStep : s₀.perform address .fork = some s)
    (hOpen : s₀.forkResult .fork = none) {frame : Frame}
    (hFrame : frame ≠ s₀.kernel.pool.kalloc.1) :
    s.kernel.pool.mem frame = s₀.kernel.pool.mem frame := by
  obtain ⟨child, hChild, hSome, -, rfl⟩ := fork_open hStep hOpen
  obtain ⟨⟨hRunning, -⟩, -⟩ := Option.ite_none_right_eq_some.mp hStep
  have hNe : child ≠ s₀.kernel.current := by
    rintro rfl
    have hUnused := KernelState.firstUnused_unused hChild
    have hState : (s₀.kernel.procs s₀.kernel.current).state = .running := hOwned.current hRunning
    rw [hState] at hUnused
    cases hUnused
  have hStack := KernelState.forkInto_child hSome hNe
  have hPatched := ProcKernel.patchChild_stored (s₀.kernel.forkInto child) child s₀.nextPid
    (address s₀.kernel.current)
  -- the kernel frame of the child is the one frame the call has taken
  have hInto : (s₀.kernel.forkInto child).pool.mem frame = s₀.kernel.pool.mem frame := by
    rw [KernelState.forkInto_pool hSome hNe]
    refine (Pool.setTable_mem_of_ne hFrame).trans ?_
    refine (Function.update_of_ne hFrame _ _).trans ?_
    rw [Pool.kalloc_mem]
  rw [← hInto]
  funext offset
  by_contra hByte
  obtain ⟨q, hq, hEq⟩ := hPatched.mem frame offset hByte
  rw [hq.1, hStack] at hEq
  exact hFrame hEq.symm

/-- The processes behind the call. -/
theorem fork_procs (hStep : s₀.perform address .fork = some s)
    (hChild : s₀.kernel.firstUnused = some child)
    (hSome : s₀.kernel.pool.kalloc.1 ≠ frameUnused) :
    s.kernel.procs = (s₀.kernel.forkInto child).procs ∧ s.kernel.current = s₀.kernel.current := by
  have hOpen : s₀.forkResult .fork = none := by
    unfold ProcKernel.forkResult
    rw [if_neg]
    simp [hChild, hSome]
  obtain ⟨c, hc, -, -, rfl⟩ := fork_open hStep hOpen
  obtain rfl := Option.some.inj (hChild.symm.trans hc)
  have hPatched := ProcKernel.patchChild_stored (s₀.kernel.forkInto child) child s₀.nextPid
    (address s₀.kernel.current)
  refine ⟨hPatched.procs, ?_⟩
  rw [hPatched.rest]
  show (s₀.kernel.forkInto child).current = _
  simp only [KernelState.forkInto, hSome, if_false]
  rfl

/-- A process that is in use and its pages have nothing to do with a frame from `kalloc`. -/
theorem owned_leftAlone {k k' : KernelState} (h : k.Owned) (hSome : k.pool.kalloc.1 ≠ frameUnused)
    (hLive : k.Live p) (hFrame : (k'.procs p).kernelFrame = (k.procs p).kernelFrame)
    (hMem : ∀ frame, frame ≠ k.pool.kalloc.1 → k'.pool.mem frame = k.pool.mem frame)
    (except : Nat → Prop) : LeftAlone k k' p except := by
  have hFree := Pool.kalloc_mem_free hSome
  have hUsable : Usable k.pool.kalloc.1 := ⟨h.free _ hFree, hSome⟩
  constructor
  · constructor
    · exact hFrame
    · intro offset _
      apply congrFun (hMem _ _)
      intro hEq
      exact h.stack_not_free hLive.1 (hEq ▸ hFree)
  · intro m hm _
    apply hMem
    intro hEq
    have hMapped := mappings_pos (Nat.zero_le m) hm hEq
    have hPlaces := h.free_alone hUsable hFree p
    rw [KernelState.places_live hLive.1 hLive.2] at hPlaces
    omega

theorem Forking.call (hOwned : s₀.kernel.Owned) (hCurrent : s₀.kernel.current = p)
    (hStep : s₀.perform address .fork = some s) (hOpen : s₀.forkResult .fork = none)
    (hChild : s₀.kernel.firstUnused = some child) :
    Forking p s₀ child [⟨s₀, .fork, s⟩] 0 none s := by
  obtain ⟨⟨hRunning, -⟩, -⟩ := Option.ite_none_right_eq_some.mp hStep
  obtain ⟨c, hc, hSome, -, hEq⟩ := fork_open hStep hOpen
  obtain rfl := Option.some.inj (hChild.symm.trans hc)
  obtain ⟨hProcs, hSelf⟩ := fork_procs hStep hChild hSome
  have hState : (s₀.kernel.procs p).state = .running := hCurrent ▸ hOwned.current hRunning
  have hNe : child ≠ s₀.kernel.current := by
    rintro rfl
    have hUnused := KernelState.firstUnused_unused hChild
    rw [hCurrent, hState] at hUnused
    cases hUnused
  have hParent := KernelState.forkInto_self hSome hNe
  have hNew := KernelState.forkInto_child hSome hNe
  rw [← hProcs] at hParent hNew
  rw [hCurrent] at hParent hSelf hNe
  -- the table of the child is empty
  have hEmpty : ∀ m < pageTableSize, s.tableOf child m = frameUnused := by
    intro m hm
    unfold ProcKernel.tableOf Pool.entry
    rw [hNew]
    have hPatched := ProcKernel.patchChild_stored (s₀.kernel.forkInto child) child s₀.nextPid
      (address s₀.kernel.current)
    have hSame : s.kernel.pool.mem s₀.kernel.pool.kalloc.1 (pcbOffset + m) =
        (s₀.kernel.forkInto child).pool.mem s₀.kernel.pool.kalloc.1 (pcbOffset + m) := by
      by_contra hByte
      rw [hEq] at hByte
      obtain ⟨q, ⟨-, hHigh⟩, -⟩ := hPatched.mem _ _ hByte
      omega
    rw [hSame, KernelState.forkInto_pool hSome (hCurrent ▸ hNe)]
    exact Pool.entry_setTable hm
  constructor
  · exact ProcKernel.owned_performs hOwned hStep trivial
  · rw [hParent]
    have hTable : s₀.kernel.pool.entry s₀.kernel.self.kernelFrame = s₀.tableOf p := by
      rw [KernelState.self, hCurrent]
      rfl
    rw [hTable]
    exact .ahead 0
  · rw [hSelf]
    exact hNe.symm
  · exact Nat.zero_le _
  · apply owned_leftAlone hOwned hSome
    · simp [KernelState.Live, hState]
    · rw [hParent]
    · intro frame hFrame
      exact fork_mem hOwned hStep hOpen hFrame
  · intro m hm
    exact absurd hm (Nat.not_lt_zero m)
  · intro m hm hUsed
    exact absurd (hEmpty m hm) hUsed
  · intro frame hf
    have hObtained : obtained p [⟨s₀, .fork, s⟩] = [s₀.kernel.pool.kalloc.1] := by
      simp [obtained, ProcStep.obtains, ProcKernel.obtains, hCurrent, hOpen]
    have hNone : mappings (s.tableOf child) frame 0 pageTableSize = 0 := by
      apply mappings_eq_zero
      intro m _ hm
      rw [hEmpty m hm]
      exact hf.2.symm
    rw [hObtained, hNone, hNew, List.count_singleton]
    simp

/-! ## §4 Events of others -/

/-- In its page loop a process can only go on with it. -/
theorem act_forking {k k' : KernelState} {action : KernelState.Action} {c : Slot} {n : Nat}
    (hForking : k.self.task.forking = some (c, n)) (hAct : k.act action = some k') :
    action = .proceed := by
  unfold KernelState.act at hAct
  cases hTask : k.self.task with
  | user =>
    rw [hTask] at hForking
    cases hForking
  | wait =>
    rw [hTask] at hForking
    cases hForking
  | fork _ _ _ =>
    rw [hTask] at hAct
    cases action with
    | proceed => rfl
    | _ => cases hAct
  | forkHolding _ _ _ _ =>
    rw [hTask] at hAct
    cases action with
    | proceed => rfl
    | _ => cases hAct

/-- Only a dispatch changes `current_process`. -/
theorem perform_current (hStep : s.perform address e = some s') :
    s'.kernel.current = s.kernel.current ∨
      ∃ q, e = .dispatch q ∧ (s.kernel.procs q).state.runnable = true ∧
        s'.kernel.current = q := by
  obtain ⟨k, hNone, hSome, hStored⟩ := ProcKernel.perform_stored hStep
  rw [hStored.rest]
  show k.current = _ ∨ ∃ q, _ ∧ _ ∧ k.current = q
  -- only the scheduler writes `current_process`
  cases hOccurrence : s.occurrence e with
  | none =>
    rw [hNone hOccurrence]
    exact .inl rfl
  | some o =>
    have hDo := hSome o hOccurrence
    cases o with
    | dispatch q =>
      obtain ⟨⟨-, hRunnable⟩, hK⟩ := Option.ite_none_right_eq_some.mp hDo
      obtain rfl := Option.some.inj hK
      refine .inr ⟨q, ?_, hRunnable, rfl⟩
      cases e with
      | dispatch r =>
        cases hOccurrence
        rfl
      | kill pid =>
        obtain ⟨-, hBind⟩ := Option.ite_none_left_eq_some.mp hOccurrence
        obtain ⟨r, -, hr⟩ := Option.bind_eq_some_iff.mp hBind
        obtain ⟨-, hWake⟩ := Option.ite_none_right_eq_some.mp hr
        cases hWake
      | _ => cases hOccurrence
    | wakeup q =>
      obtain ⟨-, hK⟩ := Option.ite_none_right_eq_some.mp hDo
      obtain rfl := Option.some.inj hK
      exact .inl rfl
    | kernelStore q offset byte =>
      exact absurd rfl (ProcKernel.occurrence_ne_kernelStore hOccurrence q offset byte)
    | act action =>
      obtain ⟨-, hAct⟩ := Option.ite_none_right_eq_some.mp hDo
      exact .inl (KernelState.act_current hAct)

namespace Forking

/-- The event is not one of the call. -/
def Other (p : Slot) (s : ProcKernel) (e : ProcEvent) : Prop :=
  ¬ (s.kernel.current = p ∧ e = .act .proceed)

/-- Nobody else acts for the parent or builds the child. -/
theorem acts (h : Forking p s₀ child ts segment held s) (hStep : s.perform address e = some s')
    (hOther : Other p s e) {action : KernelState.Action}
    (hAct : s.occurrence e = some (.act action)) :
    s.kernel.current ≠ p ∧ ∀ c n, s.kernel.self.task.forking = some (c, n) → c ≠ p ∧ c ≠ child := by
  -- an event in which `p` acts is a turn of its own call, which is shut out
  have hNot : s.kernel.current ≠ p := by
    rintro rfl
    have hForking : s.kernel.self.task.forking = some (child, segment) := h.task.forking
    obtain ⟨k, -, hSome, -⟩ := ProcKernel.perform_stored hStep
    obtain ⟨-, hDo⟩ := Option.ite_none_right_eq_some.mp (hSome _ hAct)
    have hProceed := act_forking hForking hDo
    subst hProceed
    apply hOther ⟨rfl, ?_⟩
    cases e with
    | act action =>
      cases hAct
      rfl
    | kill pid =>
      obtain ⟨-, hBind⟩ := Option.ite_none_left_eq_some.mp hAct
      obtain ⟨r, -, hr⟩ := Option.bind_eq_some_iff.mp hBind
      obtain ⟨-, hWake⟩ := Option.ite_none_right_eq_some.mp hr
      cases hWake
    | _ => cases hAct
  refine ⟨hNot, fun c n hForking => ⟨?_, ?_⟩⟩
  -- a child is being built by one process only, and the parent is not a child
  · rintro rfl
    have hBuilding := (h.owned.forking s.kernel.current c n hForking).2.1
    rcases h.building.1 with hReady | hRunning
    · simp [hBuilding] at hReady
    · simp [hBuilding] at hRunning
  · rintro rfl
    exact hNot (h.owned.distinct s.kernel.current p c n segment hForking h.task.forking)

/-- The two entries of the process table are kept but for the parent's state. -/
theorem entries (h : Forking p s₀ child ts segment held s) (hStep : s.perform address e = some s')
    (hOther : Other p s e) :
    KernelState.EntryKept s.kernel (s.kernel.procs p) (s'.kernel.procs p) ∧
      KernelState.EntryKept s.kernel (s.kernel.procs child) (s'.kernel.procs child) := by
  constructor
  · apply ProcKernel.perform_entry hStep h.live.1
    intro action hAct
    exact (h.acts hStep hOther hAct).1.symm
  · apply ProcKernel.perform_entry hStep h.live_child.1
    intro action _
    exact h.current.symm

/-- What an event of another one leaves of the parent and of the child. -/
theorem leftAlone (h : Forking p s₀ child ts segment held s)
    (hStep : s.perform address e = some s') (hClean : s.Clean e) (hOther : Other p s e) :
    s'.kernel.Live p ∧ (s'.kernel.procs child).state = .building ∧
      LeftAlone s.kernel s'.kernel p (s.Stores e p) ∧
      LeftAlone s.kernel s'.kernel child (s.Stores e child) := by
  have hOwned := ProcKernel.owned_performs h.owned hStep hClean
  -- the parent is still at its fork, so both live and the child is still being built
  have hTask : (s'.kernel.procs p).task.forking = some (child, segment) := by
    rw [(h.entries hStep hOther).1.task]
    exact h.task.forking
  obtain ⟨hState, hBuilding, -⟩ := hOwned.forking p child segment hTask
  have hLive : s'.kernel.Live p := by
    unfold KernelState.Live
    rcases hState with hReady | hRunning
    · simp [hReady]
    · simp [hRunning]
  refine ⟨hLive, hBuilding, ?_, ?_⟩
  · apply ProcKernel.perform_leftAlone h.owned hStep hClean h.live hLive
    intro action hAct
    obtain ⟨hSelf, hBuilt⟩ := h.acts hStep hOther hAct
    exact ⟨hSelf.symm, fun c n hForking => (hBuilt c n hForking).1.symm⟩
  · apply ProcKernel.perform_leftAlone h.owned hStep hClean h.live_child
    · unfold KernelState.Live
      simp [hBuilding]
    · intro action hAct
      obtain ⟨-, hBuilt⟩ := h.acts hStep hOther hAct
      exact ⟨h.current.symm, fun c n hForking => (hBuilt c n hForking).2.symm⟩

/-- Nothing is stored to the front of the parent's `PCB`. -/
theorem not_inFront (h : Forking p s₀ child ts segment held s)
    (hStep : s.perform address e = some s') {offset : Nat} (hStores : s.Stores e p offset) :
    ¬ InFront offset := by
  rintro ⟨hLow, hHigh⟩
  simp only [Pcb.top] at hHigh
  cases hStores with
  | ticks =>
    simp only [Pcb.ticks] at hHigh
    omega
  | stack hOffset =>
    simp only [Pcb.size] at hOffset
    omega
  | own =>
    -- a process in `sys_fork` does not store to its own `PCB`
    obtain ⟨⟨-, hTask, -⟩, -⟩ := Option.ite_none_right_eq_some.mp hStep
    have hForking : s.kernel.self.task.forking = some (child, segment) := h.task.forking
    rw [hTask] at hForking
    cases hForking
  | child hFound => exact h.live.1 (KernelState.firstUnused_unused hFound)
  | killed _ hOffset =>
    simp only [Pcb.killed] at hOffset
    omega
  | top hOffset =>
    simp only [Pcb.top] at hOffset
    omega
  | exitCode =>
    simp only [Pcb.exitCode] at hHigh
    omega
  | parent _ hOffset =>
    simp only [Pcb.parent] at hOffset
    omega

/-- Only the events of the call get frames for it. -/
theorem obtains_other (h : Forking p s₀ child ts segment held s)
    (hStep : s.perform address e = some s') (hOther : Other p s e) (hSelf : s.kernel.current = p) :
    s.obtains e = [] := by
  cases e with
  | fork =>
    obtain ⟨⟨-, hUser⟩, -⟩ := Option.ite_none_right_eq_some.mp hStep
    have hForking := h.task.forking
    rw [← hSelf] at hForking
    unfold KernelState.self Task.isUser at hUser
    cases hTask : (s.kernel.procs s.kernel.current).task <;>
      simp [hTask, Task.forking] at hUser hForking
  | act action =>
    cases action with
    | proceed => exact absurd ⟨hSelf, rfl⟩ hOther
    | _ => rfl
  | _ => rfl

/-- **Step lemma**: an event of another one keeps what the call needs. -/
theorem other (h : Forking p s₀ child ts segment held s) (hStep : s.perform address e = some s')
    (hClean : s.Clean e) (hOther : Other p s e) :
    Forking p s₀ child (ts ++ [⟨s, e, s'⟩]) segment held s' := by
  obtain ⟨hLive, hBuilding, hParent, hChild⟩ := h.leftAlone hStep hClean hOther
  -- the child's table and the frame held are nobody else's to touch
  have hTable : ∀ m < pageTableSize, s'.tableOf child m = s.tableOf child m := fun m hm =>
    hChild.entry (fun offset hIn hStores => hStores.not_inTable hIn) hm
  have hSegment := h.bound
  constructor
  · exact ProcKernel.owned_performs h.owned hStep hClean
  · rw [(h.entries hStep hOther).1.task]
    exact h.task
  · rcases perform_current hStep with hSame | ⟨q, -, hRunnable, hq⟩
    · rw [hSame]
      exact h.current
    · rw [hq]
      rintro rfl
      rw [h.building.2] at hRunnable
      cases hRunnable
  · exact hSegment
  · apply h.parent.trans (hParent.weaken fun offset hStores => h.not_inFront hStep hStores)
    exact inTable_inFront
  · intro m hm
    rw [hTable m (by omega)]
    exact h.mapped m hm
  · intro m hm
    rw [hTable m hm]
    exact h.usable m hm
  · intro frame hf
    have hNone : (⟨s, e, s'⟩ : ProcStep).obtains p = [] := by
      unfold ProcStep.obtains
      split
      · next hSelf => exact h.obtains_other hStep hOther hSelf
      · rfl
    have hObtained : obtained p (ts ++ [⟨s, e, s'⟩]) = obtained p ts := by
      simp [obtained, hNone]
    have hMappings : mappings (s'.tableOf child) frame 0 pageTableSize =
        mappings (s.tableOf child) frame 0 pageTableSize :=
      mappings_congr fun m _ hm => hTable m hm
    rw [hObtained, hMappings, hChild.kernelFrame]
    exact h.frames frame hf

end Forking

/-! ## §5 The turns of the page loop -/

/-- The process goes on with its system call. -/
theorem perform_proceed (hStep : s.perform address (.act .proceed) = some s') :
    s.kernel.running = true ∧ s.kernel.act .proceed = some s'.kernel ∧
      s' = { s with kernel := s'.kernel } := by
  obtain ⟨k, hK, rfl⟩ := Option.map_eq_some_iff.mp hStep
  obtain ⟨hRunning, hAct⟩ := Option.ite_none_right_eq_some.mp hK
  exact ⟨hRunning, hAct, rfl⟩

/-- A process keeps its kernel stack and its pages in a step that writes to no frame of theirs. -/
theorem leftAlone_of_mem {k k' : KernelState}
    (hFrame : (k'.procs p).kernelFrame = (k.procs p).kernelFrame)
    (hStack : k'.pool.mem (k.procs p).kernelFrame = k.pool.mem (k.procs p).kernelFrame)
    (hPages : ∀ m < pageTableSize, Usable (k.pool.entry (k.procs p).kernelFrame m) →
      k'.pool.mem (k.pool.entry (k.procs p).kernelFrame m) =
        k.pool.mem (k.pool.entry (k.procs p).kernelFrame m))
    (except : Nat → Prop) : LeftAlone k k' p except where
  kernelFrame := hFrame
  stack offset _ := congrFun hStack offset
  pages := hPages

/-- A turn writes to the kernel stack of the child and to the page that is held. -/
theorem forkStore_mem {k : KernelState} {n : Fin pageTableSize} {page frame : Frame}
    (hStack : frame ≠ (k.procs child).kernelFrame) (hPage : frame ≠ page) :
    (k.forkStore child n table page).pool.mem frame = k.pool.mem frame := by
  refine (Function.update_of_ne hPage _ _).trans ?_
  exact Pool.setEntry_mem_of_ne hStack

theorem forkStore_procs {k : KernelState} {n : Fin pageTableSize} {page : Frame} :
    (k.forkStore child n table page).procs =
      Function.update k.procs k.current
        { k.procs k.current with state := .ready, task := .fork child (n + 1) table } := by
  simp [KernelState.forkStore, KernelState.suspend, KernelState.setSelf, KernelState.setProc]

/-- What a turn of the page loop does that does not return. -/
inductive Goes (s : ProcKernel) (child : Slot) (table : Nat → Frame) :
    Nat → Option Frame → KernelState → Prop where
  | skip {segment : Nat} (hSegment : segment < pageTableSize)
      (hUnmapped : table segment = frameUnused) (hNone : s.obtains (.act .proceed) = []) :
      Goes s child table segment none
        (s.kernel.setSelf fun e => { e with task := .fork child (segment + 1) table })
  | hold {segment : Nat} (hSegment : segment < pageTableSize)
      (hMapped : table segment ≠ frameUnused) (hFrame : s.kernel.pool.kalloc.1 ≠ frameUnused)
      (hGot : s.obtains (.act .proceed) = [s.kernel.pool.kalloc.1]) :
      Goes s child table segment none (s.kernel.forkHold child ⟨segment, hSegment⟩ table)
  | store {n : Fin pageTableSize} {page : Frame}
      (hTask : s.kernel.self.task = .forkHolding child n table page)
      (hNone : s.obtains (.act .proceed) = []) :
      Goes s child table n (some page) (s.kernel.forkStore child n table page)

namespace Forking

/-- The task of the parent. -/
theorem self_task (h : Forking p s₀ child ts segment held s) (hCurrent : s.kernel.current = p) :
    AtSegment child (s₀.tableOf p) s.kernel.self.task segment held := by
  unfold KernelState.self
  rw [hCurrent]
  exact h.task

/-- A turn over a segment without a frame. -/
theorem skip (h : Forking p s₀ child ts segment none s) (hCurrent : s.kernel.current = p)
    (hOwned : s'.kernel.Owned) (hSegment : segment < pageTableSize)
    (hUnmapped : s₀.tableOf p segment = frameUnused)
    (hEq : s'.kernel = s.kernel.setSelf fun e =>
      { e with task := .fork child (segment + 1) (s₀.tableOf p) })
    (hNone : s.obtains e = []) :
    Forking p s₀ child (ts ++ [⟨s, e, s'⟩]) (segment + 1) none s' := by
  have hProcs : s'.kernel.procs = Function.update s.kernel.procs p
      { s.kernel.procs p with task := .fork child (segment + 1) (s₀.tableOf p) } := by
    rw [hEq, ← hCurrent]
    rfl
  have hPool : s'.kernel.pool = s.kernel.pool := by
    rw [hEq]
    rfl
  have hParent : s'.kernel.procs p =
      { s.kernel.procs p with task := .fork child (segment + 1) (s₀.tableOf p) } := by
    rw [hProcs, Function.update_self]
  have hChild : s'.kernel.procs child = s.kernel.procs child := by
    rw [hProcs, Function.update_of_ne h.ne]
  have hTable : s'.tableOf child = s.tableOf child := by
    unfold ProcKernel.tableOf
    rw [hPool, hChild]
  obtain ⟨-, -, hEmpty⟩ := h.owned.forking p child segment h.task.forking
  constructor
  · exact hOwned
  · rw [hParent]
    exact .ahead (segment + 1)
  · rw [hEq]
    exact h.current
  · exact hSegment
  · apply h.parent.trans
    · apply leftAlone_of_mem
      · rw [hParent]
      · rw [hPool]
      · intro m _ _
        rw [hPool]
    · exact inTable_inFront
  · intro m hm
    rw [hTable]
    rcases Nat.lt_succ_iff_lt_or_eq.mp hm with hLess | rfl
    · exact h.mapped m hLess
    · exact iff_of_true (hEmpty m le_rfl hSegment) hUnmapped
  · rw [hTable]
    exact h.usable
  -- nothing is obtained in this turn
  · intro frame hf
    have hObtained : obtained p (ts ++ [⟨s, e, s'⟩]) = obtained p ts := by
      simp [obtained, ProcStep.obtains, hNone]
    rw [hObtained, hTable, hChild]
    exact h.frames frame hf

/-- A turn that gets a frame. -/
theorem hold (h : Forking p s₀ child ts segment none s) (hCurrent : s.kernel.current = p)
    (hOwned : s'.kernel.Owned) (hSegment : segment < pageTableSize)
    (hMapped : s₀.tableOf p segment ≠ frameUnused) (hFrame : s.kernel.pool.kalloc.1 ≠ frameUnused)
    (hEq : s'.kernel = s.kernel.forkHold child ⟨segment, hSegment⟩ (s₀.tableOf p))
    (hGot : s.obtains e = [s.kernel.pool.kalloc.1]) :
    Forking p s₀ child (ts ++ [⟨s, e, s'⟩]) segment (some s.kernel.pool.kalloc.1) s' := by
  have hUsable : Usable s.kernel.pool.kalloc.1 :=
    ⟨h.owned.free _ (Pool.kalloc_mem_free hFrame), hFrame⟩
  have hProcs : s'.kernel.procs = Function.update s.kernel.procs p
      { s.kernel.procs p with
        task := .forkHolding child ⟨segment, hSegment⟩ (s₀.tableOf p) s.kernel.pool.kalloc.1 } := by
    rw [hEq, ← hCurrent]
    rfl
  have hMem : s'.kernel.pool.mem = s.kernel.pool.mem := by
    rw [hEq]
    exact Pool.kalloc_mem
  have hParent := congrFun hProcs p
  rw [Function.update_self] at hParent
  have hChild : s'.kernel.procs child = s.kernel.procs child := by
    rw [hProcs, Function.update_of_ne h.ne]
  have hTable : s'.tableOf child = s.tableOf child := by
    unfold ProcKernel.tableOf Pool.entry
    rw [hMem, hChild]
  constructor
  · exact hOwned
  · rw [hParent]
    exact .holding ⟨segment, hSegment⟩ s.kernel.pool.kalloc.1 hMapped hUsable
  · rw [hEq]
    exact h.current
  · exact h.bound
  · apply h.parent.trans
    · apply leftAlone_of_mem
      · rw [hParent]
      · rw [hMem]
      · intro m _ _
        rw [hMem]
    · exact inTable_inFront
  · rw [hTable]
    exact h.mapped
  · rw [hTable]
    exact h.usable
  · intro frame hf
    have hObtained : obtained p (ts ++ [⟨s, e, s'⟩]) = obtained p ts ++ [s.kernel.pool.kalloc.1] := by
      simp [obtained, ProcStep.obtains, hGot, hCurrent]
    -- the frame held is one more of those obtained
    have hBefore := h.frames frame hf
    rw [hObtained, List.count_append, List.count_singleton, hTable, hChild]
    simp only [Option.some.injEq, reduceCtorEq, if_false, beq_iff_eq] at hBefore ⊢
    omega

/-- A turn that stores its frame. -/
theorem store (h : Forking p s₀ child ts segment held s) (hCurrent : s.kernel.current = p)
    (hRunning : s.kernel.running = true) (hOwned : s'.kernel.Owned) {n : Fin pageTableSize}
    {page : Frame} (hTask : s.kernel.self.task = .forkHolding child n (s₀.tableOf p) page)
    (hEq : s'.kernel = s.kernel.forkStore child n (s₀.tableOf p) page)
    (hNone : s.obtains e = []) :
    Forking p s₀ child (ts ++ [⟨s, e, s'⟩]) (n + 1) none s' := by
  have hAt := h.self_task hCurrent
  rw [hTask] at hAt
  cases hAt with
  | holding _ _ hMapped hUsable =>
    obtain ⟨hOthers, hEntry⟩ := h.owned.forkStore_entry hRunning hTask
    rw [← hEq] at hOthers hEntry
    have hProcs : s'.kernel.procs = _ := (congrArg KernelState.procs hEq).trans forkStore_procs
    have hParent := congrFun hProcs p
    rw [← hCurrent, Function.update_self, hCurrent] at hParent
    have hChild : s'.kernel.procs child = s.kernel.procs child := by
      rw [hProcs, hCurrent, Function.update_of_ne h.ne]
    have hTable : s'.tableOf child = Function.update (s.tableOf child) n page := by
      unfold ProcKernel.tableOf
      rw [hChild]
      exact hEntry
    have hHeld : (s.kernel.procs p).task.held = some page := h.task.holds
    obtain ⟨-, -, hEmpty⟩ := h.owned.forking p child n h.task.forking
    constructor
    · exact hOwned
    · rw [hParent]
      exact .ahead (n + 1)
    · rw [hEq]
      exact h.current
    · exact n.isLt
    · apply h.parent.trans
      · apply leftAlone_of_mem
        · rw [hParent]
        · rw [hEq]
          apply forkStore_mem
          · exact h.owned.stack_ne h.live.1 h.live_child.1 h.ne.symm
          · exact (h.owned.held_ne_stack h.live.1 h.live.2 h.live.1 hHeld).symm
        · intro m hm hPage
          rw [hEq]
          apply forkStore_mem
          · exact h.owned.entry_ne_stack h.live.1 h.live.2 h.live_child.1 hm
          · -- a frame has one place
            intro hBoth
            have hPos : 0 < mappings (s.kernel.pool.entry (s.kernel.procs p).kernelFrame) page 0
                pageTableSize := mappings_pos (Nat.zero_le m) hm hBoth
            have hPlaces : s.kernel.pool.places (s.kernel.procs p) page = _ :=
              KernelState.places_live h.live.1 h.live.2
            rw [if_pos hHeld] at hPlaces
            have hOwns : 0 < s.kernel.pool.places (s.kernel.procs p) page := by omega
            -- the parent's page and the frame held would be two
            have hOne := (h.owned.alone hUsable hOwns).2.1
            omega
      · exact inTable_inFront
    · intro m hm
      rw [hTable]
      rcases Nat.lt_succ_iff_lt_or_eq.mp hm with hLess | rfl
      · rw [Function.update_of_ne (Nat.ne_of_lt hLess)]
        exact h.mapped m hLess
      · rw [Function.update_self]
        exact iff_of_false hUsable.2 hMapped
    · intro m hm hUsed
      rw [hTable] at hUsed ⊢
      by_cases hm' : m = n
      · subst hm'
        rw [Function.update_self]
        exact hUsable
      · rw [Function.update_of_ne hm'] at hUsed ⊢
        exact h.usable m hm hUsed
    · intro frame hf
      have hObtained : obtained p (ts ++ [⟨s, e, s'⟩]) = obtained p ts := by
        simp [obtained, ProcStep.obtains, hNone]
      -- what was held is now mapped: the sum stays
      have hUpdate : mappings (Function.update (s.tableOf child) n page) frame 0 pageTableSize + _ =
          _ := mappings_update page (Nat.zero_le n.val) n.isLt
      have hUnused : s.tableOf child n = frameUnused := hEmpty n le_rfl n.isLt
      have hBefore := h.frames frame hf
      rw [hUnused, if_neg hf.2.symm] at hUpdate
      rw [hObtained, hTable, hChild]
      simp only [Option.some.injEq, reduceCtorEq, if_false] at hBefore ⊢
      omega

/-- A turn of the call that does not return. -/
theorem goes (h : Forking p s₀ child ts segment held s) (hCurrent : s.kernel.current = p)
    (hStep : s.perform address (.act .proceed) = some s')
    (hOpen : s.forkResult (.act .proceed) = none) :
    Goes s child (s₀.tableOf p) segment held s'.kernel := by
  obtain ⟨-, hAct, -⟩ := perform_proceed hStep
  have hTask := h.self_task hCurrent
  generalize hSelf : s.kernel.self.task = task at hTask
  -- at a segment the loop ends, passes on, fails or gets a frame; with a frame held it stores it
  cases hTask with
  | ahead segment =>
    have hPage : s'.kernel = s.kernel.forkPage child segment (s₀.tableOf p) := by
      simp only [KernelState.act, hSelf] at hAct
      exact (Option.some.inj hAct).symm
    simp only [ProcKernel.forkResult, hSelf] at hOpen
    have hTurn := KernelState.forkPage_turn s.kernel child segment (s₀.tableOf p)
    rw [hPage]
    generalize s.kernel.forkPage child segment (s₀.tableOf p) = k at hTurn
    cases hTurn with
    | publish hEnd =>
      rw [if_pos hEnd] at hOpen
      cases hOpen
    | skip hSegment hUnmapped =>
      apply Goes.skip hSegment hUnmapped
      simp [ProcKernel.obtains, hSelf, hUnmapped]
    | fail hSegment hMapped hNone =>
      rw [if_neg (Nat.not_le_of_lt hSegment),
        if_pos ⟨hMapped, Pool.kalloc_eq_unused_iff.mpr hNone⟩] at hOpen
      cases hOpen
    | hold hSegment hMapped hFrame =>
      apply Goes.hold hSegment hMapped hFrame
      simp [ProcKernel.obtains, hSelf, hSegment, hMapped, hFrame]
  | holding n page hMapped hUsable =>
    have hStore : s'.kernel = s.kernel.forkStore child n (s₀.tableOf p) page := by
      simp only [KernelState.act, hSelf] at hAct
      exact (Option.some.inj hAct).symm
    rw [hStore]
    apply Goes.store hSelf
    simp [ProcKernel.obtains, hSelf]

/-- **Step lemma**: a turn of the call that does not return. -/
theorem turn (h : Forking p s₀ child ts segment held s) (hCurrent : s.kernel.current = p)
    (hStep : s.perform address (.act .proceed) = some s') (hClean : s.Clean (.act .proceed))
    (hOpen : s.forkResult (.act .proceed) = none) :
    ∃ segment' held',
      Forking p s₀ child (ts ++ [⟨s, .act .proceed, s'⟩]) segment' held' s' := by
  have hOwned := ProcKernel.owned_performs h.owned hStep hClean
  have hGoes := h.goes hCurrent hStep hOpen
  generalize hEq : s'.kernel = k at hGoes
  cases hGoes with
  | skip hSegment hUnmapped hNone =>
    exact ⟨_, _, h.skip hCurrent hOwned hSegment hUnmapped hEq hNone⟩
  | hold hSegment hMapped hFrame hGot =>
    exact ⟨_, _, h.hold hCurrent hOwned hSegment hMapped hFrame hEq hGot⟩
  | store hTask hNone =>
    obtain ⟨hRunning, -⟩ := perform_proceed hStep
    exact ⟨_, _, h.store hCurrent hRunning hOwned hTask hEq hNone⟩

end Forking

/-- **Run lemma**: every run of a call keeps its invariant. -/
theorem ForkRun.forking (hOwned : s₀.kernel.Owned) (h : ForkRun address p s₀ ts s) :
    ∃ child segment held, s₀.kernel.firstUnused = some child ∧
      Forking p s₀ child ts segment held s := by
  induction h with
  | call hCurrent hStep hOpen =>
    obtain ⟨child, hChild, -⟩ := fork_open hStep hOpen
    exact ⟨child, 0, none, hChild, Forking.call hOwned hCurrent hStep hOpen hChild⟩
  | @step _ s _ e _ hStep hClean hOpen ih =>
    obtain ⟨child, segment, held, hChild, hForking⟩ := ih
    by_cases hOwn : s.kernel.current = p ∧ e = .act .proceed
    · obtain ⟨hCurrent, rfl⟩ := hOwn
      obtain ⟨segment', held', hNext⟩ := hForking.turn hCurrent hStep hClean (hOpen hCurrent)
      exact ⟨child, segment', held', hChild, hNext⟩
    · exact ⟨child, segment, held, hChild, hForking.other hStep hClean hOwn⟩

end Invariant

end Xv6502.Kernel
