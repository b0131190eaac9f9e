import Xv6502.Kernel.ProcessSteps

/-!
# What an Event Leaves of the Other Processes

An event leaves the pages, the page table and the kernel stack of a process alone that does not
take it itself, but for the fields it stores (`perform_leftAlone`).
-/

namespace Xv6502.Kernel

open Xv6502.Emulator

/-! ## §1 Steps of `Frames` -/

namespace KernelState

section Steps

variable {k k' : KernelState} {x : Slot} {o : Occurrence}

/-- A switch and a wakeup touch no memory. -/
theorem Step.moves (hStep : k.Step o k') (hAct : ∀ action, o ≠ .act action)
    (hStore : ∀ p offset byte, o ≠ .kernelStore p offset byte) :
    k'.pool = k.pool ∧ ∃ state, k'.procs x = { k.procs x with state := state } := by
  have hSet : ∀ p state, ∃ state', (k.setProc p fun e => { e with state := state }).procs x =
      { k.procs x with state := state' } := by
    intro p state
    by_cases hx : x = p
    · subst hx
      exact ⟨state, Function.update_self ..⟩
    · exact ⟨(k.procs x).state, Function.update_of_ne hx _ _⟩
  cases o with
  | dispatch p =>
    obtain ⟨-, hSome⟩ := Option.ite_none_right_eq_some.mp hStep
    obtain rfl := Option.some.inj hSome
    exact ⟨rfl, hSet p _⟩
  | wakeup p =>
    obtain ⟨-, hSome⟩ := Option.ite_none_right_eq_some.mp hStep
    obtain rfl := Option.some.inj hSome
    exact ⟨rfl, hSet p _⟩
  | kernelStore p offset byte => exact absurd rfl (hStore p offset byte)
  | act action => exact absurd rfl (hAct action)

/-- A step leaves the pages and the kernel stack of a process alone that neither acts nor is built
    by the one that does. -/
theorem Owned.step_leftAlone (h : k.Owned) (hStep : k.Step o k') (hClean : k.Clean o)
    (hStore : ∀ p offset byte, o ≠ .kernelStore p offset byte) (hx : k.Live x)
    (hUsed : (k'.procs x).state ≠ .unused)
    (hAct : ∀ action, o = .act action → x ≠ k.current ∧
      ∀ child s, k.self.task.forking = some (child, s) → x ≠ child) :
    LeftAlone k k' x fun _ => False := by
  -- a call of the process that runs, or an event of the devices and the scheduler
  by_cases hAction : ∃ action, o = .act action
  · obtain ⟨action, rfl⟩ := hAction
    obtain ⟨hRunning, hDo⟩ := Option.ite_none_right_eq_some.mp hStep
    obtain ⟨hSelf, hChild⟩ := hAct action rfl
    constructor
    · constructor
      · exact act_kernelFrame hDo hx.1
      · intro offset _
        exact congrFun (h.bystander hRunning hDo hClean hSelf hChild hUsed (h.stack x hx.1)
          (places_stack_pos hx.1)) offset
    · intro s hs hPage
      -- a page of `x` has one place, and that is in the table of `x`
      apply h.bystander hRunning hDo hClean hSelf hChild hUsed hPage
      rw [places_live hx.1 hx.2]
      have hMapped := mappings_pos (Nat.zero_le s) hs
        (rfl : k.pool.entry (k.procs x).kernelFrame s = _)
      omega
  · have hNot : ∀ action, o ≠ .act action := fun action hEq => hAction ⟨action, hEq⟩
    obtain ⟨hPool, state, hEntry⟩ := hStep.moves (x := x) hNot hStore
    constructor
    · constructor
      · rw [hEntry]
      · intro offset _
        rw [hPool]
    · intro s _ _
      rw [hPool]

/-- A step stores to no kernel stack that stays in use, beside the page table. -/
theorem Owned.step_stackKept (h : k.Owned) (hStep : k.Step o k') (hClean : k.Clean o)
    (hStore : ∀ p offset byte, o ≠ .kernelStore p offset byte)
    (hUsed : (k.procs x).state ≠ .unused) (hUsed' : (k'.procs x).state ≠ .unused) :
    StackKept k k' x InTable := by
  -- an action stores to a kernel stack in the page table only; the other events do not store
  by_cases hAction : ∃ action, o = .act action
  · obtain ⟨action, rfl⟩ := hAction
    obtain ⟨hRunning, hDo⟩ := Option.ite_none_right_eq_some.mp hStep
    constructor
    · exact act_kernelFrame hDo hUsed
    · intro offset hOffset
      exact h.act_stack hRunning hDo hClean hUsed hUsed' hOffset
  · have hNot : ∀ action, o ≠ .act action := fun action hEq => hAction ⟨action, hEq⟩
    obtain ⟨hPool, state, hEntry⟩ := hStep.moves (x := x) hNot hStore
    constructor
    · rw [hEntry]
    · intro offset _
      rw [hPool]

/-- A step changes the state of another process at most, and its parent if that exits. -/
theorem Step.entry (hStep : k.Step o k')
    (hStore : ∀ p offset byte, o ≠ .kernelStore p offset byte)
    (hUsed : (k.procs x).state ≠ .unused) (hAct : ∀ action, o = .act action → x ≠ k.current) :
    EntryKept k (k.procs x) (k'.procs x) := by
  by_cases hAction : ∃ action, o = .act action
  · obtain ⟨action, rfl⟩ := hAction
    obtain ⟨-, hDo⟩ := Option.ite_none_right_eq_some.mp hStep
    exact act_entry hDo hUsed (hAct action rfl)
  · have hNot : ∀ action, o ≠ .act action := fun action hEq => hAction ⟨action, hEq⟩
    obtain ⟨-, state, hEntry⟩ := hStep.moves (x := x) hNot hStore
    rw [hEntry]
    exact ⟨rfl, rfl, fun _ => rfl⟩

end Steps

end KernelState

/-! ## §2 Events -/

namespace ProcKernel

section Events

variable {address : Slot → Word} {s s' : ProcKernel} {e : ProcEvent} {x : Slot}

theorem occurrence_ne_kernelStore {o : KernelState.Occurrence} (ho : s.occurrence e = some o)
    (p : Slot) (offset : Nat) (byte : Byte) : o ≠ .kernelStore p offset byte := by
  rintro rfl
  cases e with
  | kill pid =>
    obtain ⟨-, hBind⟩ := Option.ite_none_left_eq_some.mp ho
    obtain ⟨q, -, hq⟩ := Option.bind_eq_some_iff.mp hBind
    obtain ⟨-, hSome⟩ := Option.ite_none_right_eq_some.mp hq
    cases hSome
  | _ => cases ho

/-- **Frame rule**: a live process that an event does not concern keeps its kernel stack, but for
    the bytes that the event stores there, and its pages. -/
theorem perform_leftAlone (h : s.kernel.Owned) (hStep : s.perform address e = some s')
    (hClean : s.Clean e) (hx : s.kernel.Live x) (hx' : s'.kernel.Live x)
    (hAct : ∀ action, s.occurrence e = some (.act action) → x ≠ s.kernel.current ∧
      ∀ child n, s.kernel.self.task.forking = some (child, n) → x ≠ child) :
    LeftAlone s.kernel s'.kernel x (s.Stores e x) := by
  have hOwned := owned_performs h hStep hClean
  obtain ⟨k, hNone, hSome, hStored⟩ := perform_stored hStep
  have hUsed : k.Live x := by
    unfold KernelState.Live at hx' ⊢
    rwa [hStored.procs] at hx'
  have hStores : ∀ p offset, s.Stores e p offset → (k.procs p).state ≠ .unused := by
    intro p offset hp
    have hUsedP := hp.used h hStep
    rwa [hStored.procs] at hUsedP
  cases hOccurrence : s.occurrence e with
  | none =>
    rw [hNone hOccurrence] at hStored hStores
    exact h.stored_leftAlone hStored hStores hx
  | some o =>
    have hDo := hSome o hOccurrence
    have hCleanO := hClean.occurrence hOccurrence
    -- the event acts on the pool first, and then stores into page tables
    have hFirst := h.step_leftAlone hDo hCleanO (occurrence_ne_kernelStore hOccurrence) hx hUsed.1
      fun action hEq => hAct action (hEq ▸ hOccurrence)
    have hThen := (h.step_clean hDo hCleanO).stored_leftAlone hStored hStores hUsed
    apply (hFirst.weaken fun _ hFalse => absurd hFalse id).trans hThen
    exact fun offset hIn hOffset => hOffset.not_inTable hIn

/-- A kernel stack loses the bytes that an event stores there and those of the page table. -/
theorem perform_stackKept (h : s.kernel.Owned) (hStep : s.perform address e = some s')
    (hClean : s.Clean e) (hx : (s.kernel.procs x).state ≠ .unused)
    (hx' : (s'.kernel.procs x).state ≠ .unused) :
    StackKept s.kernel s'.kernel x fun offset => InTable offset ∨ s.Stores e x offset := by
  obtain ⟨k, hNone, hSome, hStored⟩ := perform_stored hStep
  have hStores : ∀ p offset, s.Stores e p offset → (k.procs p).state ≠ .unused := by
    intro p offset hp
    have hUsedP := hp.used h hStep
    rwa [hStored.procs] at hUsedP
  have hUsed : (k.procs x).state ≠ .unused := by rwa [hStored.procs] at hx'
  cases hOccurrence : s.occurrence e with
  | none =>
    rw [hNone hOccurrence] at hStored hStores
    exact (h.stored_stackKept hStored hStores hx).weaken fun _ => .inr
  | some o =>
    have hDo := hSome o hOccurrence
    have hCleanO := hClean.occurrence hOccurrence
    -- what the event does to the frames, and then what it stores
    have hFirst := h.step_stackKept hDo hCleanO (occurrence_ne_kernelStore hOccurrence) hx hUsed
    have hThen := (h.step_clean hDo hCleanO).stored_stackKept hStored hStores hUsed
    exact (hFirst.weaken fun _ => .inl).trans (hThen.weaken fun _ => .inr)

/-- A process keeps its top, its task and its parent unless it acts or its parent exits. -/
theorem perform_entry (hStep : s.perform address e = some s')
    (hx : (s.kernel.procs x).state ≠ .unused)
    (hAct : ∀ action, s.occurrence e = some (.act action) → x ≠ s.kernel.current) :
    KernelState.EntryKept s.kernel (s.kernel.procs x) (s'.kernel.procs x) := by
  obtain ⟨k, hNone, hSome, hStored⟩ := perform_stored hStep
  rw [hStored.procs]
  cases hOccurrence : s.occurrence e with
  | none =>
    rw [hNone hOccurrence]
    exact .refl s.kernel _
  | some o =>
    exact (hSome o hOccurrence).entry (occurrence_ne_kernelStore hOccurrence) hx
      fun action hEq => hAct action (hEq ▸ hOccurrence)

end Events

end ProcKernel

end Xv6502.Kernel
