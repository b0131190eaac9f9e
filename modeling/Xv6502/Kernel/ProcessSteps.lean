import Xv6502.Kernel.ProcessBlock

/-!
# Events and the Steps of `Frames`

Every event of `ProcessBlock` is a step of `Frames`, or none, with stores to kernel stacks beside
the page tables (`perform_stored`). So it keeps the ownership of the frames (`owned_performs`).
-/

namespace Xv6502.Kernel

open Xv6502.Emulator

/-! ## §1 Stores to a PCB -/

/-- The kernel stack of a process is the same but for some offsets. -/
structure StackKept (k k' : KernelState) (x : Slot) (except : Nat → Prop) : Prop where
  kernelFrame : (k'.procs x).kernelFrame = (k.procs x).kernelFrame
  stack : ∀ offset, ¬ except offset →
    k'.pool.mem (k.procs x).kernelFrame offset = k.pool.mem (k.procs x).kernelFrame offset

/-- A process has kept its kernel stack, but for some offsets, and its pages. -/
structure LeftAlone (k k' : KernelState) (x : Slot) (except : Nat → Prop) : Prop
    extends StackKept k k' x except where
  pages : ∀ s, s < pageTableSize → Usable (k.pool.entry (k.procs x).kernelFrame s) →
    k'.pool.mem (k.pool.entry (k.procs x).kernelFrame s) =
      k.pool.mem (k.pool.entry (k.procs x).kernelFrame s)

/-- The process is neither `UNUSED` nor a zombie. -/
def KernelState.Live (k : KernelState) (x : Slot) : Prop :=
  (k.procs x).state ≠ .unused ∧ (k.procs x).state ≠ .zombie

section Stores

variable {k k' k'' : KernelState} {x p : Slot} {except except' : Nat → Prop}

theorem StackKept.trans (h : StackKept k k' x except) (h' : StackKept k' k'' x except) :
    StackKept k k'' x except where
  kernelFrame := h'.kernelFrame.trans h.kernelFrame
  stack offset hOffset := by
    have hNext := h'.stack offset hOffset
    rw [h.kernelFrame] at hNext
    rw [hNext, h.stack offset hOffset]

theorem StackKept.weaken (h : StackKept k k' x except)
    (hWeaker : ∀ offset, except offset → except' offset) : StackKept k k' x except' :=
  ⟨h.kernelFrame, fun offset hOffset => h.stack offset fun hIn => hOffset (hWeaker offset hIn)⟩

theorem LeftAlone.entry (h : LeftAlone k k' x except)
    (hTable : ∀ offset, InTable offset → ¬ except offset) {s : Nat} (hs : s < pageTableSize) :
    k'.pool.entry (k'.procs x).kernelFrame s = k.pool.entry (k.procs x).kernelFrame s := by
  rw [h.kernelFrame]
  exact h.stack _ (hTable _ ⟨by omega, by omega⟩)

theorem LeftAlone.trans (h : LeftAlone k k' x except) (h' : LeftAlone k' k'' x except)
    (hTable : ∀ offset, InTable offset → ¬ except offset) : LeftAlone k k'' x except where
  toStackKept := h.toStackKept.trans h'.toStackKept
  pages s hs hPage := by
    have hNext := h'.pages s hs
    rw [h.entry hTable hs] at hNext
    rw [hNext hPage, h.pages s hs hPage]

theorem LeftAlone.weaken (h : LeftAlone k k' x except)
    (hWeaker : ∀ offset, except offset → except' offset) : LeftAlone k k' x except' :=
  ⟨h.toStackKept.weaken hWeaker, h.pages⟩

/-- Some bytes of kernel stacks have been stored. -/
structure Stored (k k' : KernelState) (stored : Slot → Nat → Prop) : Prop where
  rest : k' = { k with pool := k'.pool }
  free : k'.pool.free = k.pool.free
  mem : ∀ frame offset, k'.pool.mem frame offset ≠ k.pool.mem frame offset →
    ∃ p, stored p offset ∧ (k.procs p).kernelFrame = frame

theorem Stored.refl (k : KernelState) (stored : Slot → Nat → Prop) : Stored k k stored :=
  ⟨rfl, rfl, fun _ _ h => absurd rfl h⟩

theorem Stored.procs {stored : Slot → Nat → Prop} (h : Stored k k' stored) :
    k'.procs = k.procs := by
  rw [h.rest]

theorem Stored.trans {stored : Slot → Nat → Prop} (h : Stored k k' stored)
    (h' : Stored k' k'' stored) : Stored k k'' stored where
  rest := by rw [h'.rest, h.rest]
  free := h'.free.trans h.free
  mem frame offset hByte := by
    by_cases hFirst : k'.pool.mem frame offset = k.pool.mem frame offset
    · obtain ⟨p, hStored, hFrame⟩ := h'.mem frame offset (hFirst ▸ hByte)
      rw [h.procs] at hFrame
      exact ⟨p, hStored, hFrame⟩
    · exact h.mem frame offset hFirst

theorem Stored.weaken {stored stored' : Slot → Nat → Prop} (h : Stored k k' stored)
    (hWeaker : ∀ p offset, stored p offset → stored' p offset) : Stored k k' stored' :=
  ⟨h.rest, h.free, fun frame offset hByte =>
    let ⟨p, hStored, hFrame⟩ := h.mem frame offset hByte
    ⟨p, hWeaker p offset hStored, hFrame⟩⟩

/-- One byte of a kernel stack. -/
theorem store_stored (k : KernelState) (p : Slot) (offset : Nat) (byte : Byte) :
    Stored k { k with pool := k.pool.store (k.procs p).kernelFrame offset byte }
      fun q o => q = p ∧ o = offset where
  rest := rfl
  free := rfl
  mem frame o hByte := by
    by_contra hNone
    apply hByte
    apply Pool.store_mem_of_ne
    by_contra hBoth
    push Not at hBoth
    exact hNone ⟨p, ⟨rfl, hBoth.2⟩, hBoth.1.symm⟩

theorem storePcb_stored (k : KernelState) (p : Slot) (field : Nat) (byte : Byte) :
    Stored k (k.storePcb p field byte) fun q o => q = p ∧ o = pcbOffset + field :=
  store_stored k p (pcbOffset + field) byte

/-- `proc_set_16`. -/
theorem storeWord_stored (k : KernelState) (p : Slot) (field : Nat) (value : Word) :
    Stored k (k.storeWord p field value) fun q o =>
      q = p ∧ pcbOffset + field ≤ o ∧ o < pcbOffset + field + 2 := by
  have hLow := storePcb_stored k p field (lowByte value)
  have hHigh := storePcb_stored (k.storePcb p field (lowByte value)) p (field + 1) (highByte value)
  apply Stored.trans
  · apply hLow.weaken
    rintro q o ⟨hq, ho⟩
    exact ⟨hq, by omega, by omega⟩
  · apply hHigh.weaken
    rintro q o ⟨hq, ho⟩
    exact ⟨hq, by omega, by omega⟩

/-- The loop of `sys_exit` over the children stores their parents. -/
theorem reparent_stored (k : KernelState) (initProcess : Word) (ps : List Slot) :
    Stored k (k.reparent initProcess ps) fun q o =>
      q ∈ ps ∧ pcbOffset + Pcb.parent ≤ o ∧ o < pcbOffset + Pcb.parent + 2 := by
  induction ps generalizing k with
  | nil => exact .refl k _
  | cons p ps ih =>
    rw [KernelState.reparent]
    apply Stored.trans
    · apply (storeWord_stored k p Pcb.parent initProcess).weaken
      rintro q o ⟨rfl, ho⟩
      exact ⟨List.mem_cons_self, ho⟩
    · apply (ih _).weaken
      rintro q o ⟨hq, ho⟩
      exact ⟨List.mem_cons_of_mem p hq, ho⟩

namespace KernelState

section Ownership

variable {bytes : Slot → Nat → Prop}

/-- A kernel stack loses only the bytes stored there. -/
theorem Owned.stored_stackKept (h : k.Owned) (hStored : Stored k k' bytes)
    (hPcb : ∀ p offset, bytes p offset → (k.procs p).state ≠ .unused)
    (hx : (k.procs x).state ≠ .unused) : StackKept k k' x (bytes x) where
  kernelFrame := by rw [hStored.procs]
  stack o hOther := by
    by_contra hByte
    obtain ⟨p, hp, hFrame⟩ := hStored.mem _ o hByte
    by_cases hpx : p = x
    · subst hpx
      exact hOther hp
    · exact h.stack_ne (hPcb p o hp) hx hpx hFrame

theorem Owned.stored_leftAlone (h : k.Owned) (hStored : Stored k k' bytes)
    (hPcb : ∀ p offset, bytes p offset → (k.procs p).state ≠ .unused)
    (hx : k.Live x) : LeftAlone k k' x (bytes x) where
  toStackKept := h.stored_stackKept hStored hPcb hx.1
  pages s hs _ := by
    funext o
    by_contra hByte
    obtain ⟨p, hp, hFrame⟩ := hStored.mem _ o hByte
    exact h.entry_ne_stack hx.1 hx.2 (hPcb p o hp) hs hFrame.symm

/-- Stores beside the page tables keep the ownership. -/
theorem Owned.stored (h : k.Owned) (hStored : Stored k k' bytes)
    (hPcb : ∀ p offset, bytes p offset → (k.procs p).state ≠ .unused)
    (hTable : ∀ p offset, bytes p offset → ¬ InTable offset) : Owned k' := by
  rw [hStored.rest]
  apply h.repool
  · intro frame _
    rw [hStored.free]
  · intro frame hMem
    rw [hStored.free] at hMem
    exact .inl hMem
  · intro p hp s hs
    have hKept := h.stored_stackKept hStored hPcb hp
    apply hKept.stack
    intro hIn
    exact hTable p _ hIn ⟨by omega, by omega⟩

end Ownership

end KernelState

end Stores

/-! ## §2 What an event is -/

namespace ProcKernel

/-- What an event is in `Frames`; a store alone is nothing there. -/
def occurrence (s : ProcKernel) : ProcEvent → Option KernelState.Occurrence
  | .dispatch p => some (.dispatch p)
  | .wakeup p => some (.wakeup p)
  | .stackStore _ _ => none
  | .ownStore _ _ => none
  | .fork => some (.act .fork)
  | .kill pid =>
    -- `sys_kill` of a process that does not sleep is a store and nothing else
    if pid.toNat ≤ 1 then none
    else (s.kernel.killTarget pid).bind fun p =>
      if (s.kernel.procs p).state = .sleeping then some (.wakeup p) else none
  | .act action => some (.act action)

/-- The bytes of kernel stacks that an event stores beside the page tables. -/
inductive Stores (s : ProcKernel) : ProcEvent → Slot → Nat → Prop
  | ticks {p : Slot} : Stores s (.dispatch p) p (pcbOffset + Pcb.ticks)
  | stack {offset : Nat} {byte : Byte}
      (hOffset : offset < pcbOffset ∨ pcbOffset + Pcb.size ≤ offset) :
      Stores s (.stackStore offset byte) s.kernel.current offset
  | own {field : Nat} {byte : Byte} (hField : Pcb.Own field) :
      Stores s (.ownStore field byte) s.kernel.current (pcbOffset + field)
  | child {p : Slot} {offset : Nat} (hChild : s.kernel.firstUnused = some p)
      (hFrame : s.kernel.pool.kalloc.1 ≠ frameUnused)
      (hOffset : pcbOffset + pageTableSize ≤ offset) : Stores s .fork p offset
  | killed {pid : Word} {p : Slot} {offset : Nat} (hTarget : s.kernel.killTarget pid = some p)
      (hLow : pcbOffset + Pcb.killed ≤ offset) (hHigh : offset < pcbOffset + Pcb.killed + 2) :
      Stores s (.kill pid) p offset
  | top {increment : Word} {offset : Nat} (hLow : pcbOffset + Pcb.top ≤ offset)
      (hHigh : offset < pcbOffset + Pcb.top + 2) :
      Stores s (.act (.sbrk increment)) s.kernel.current offset
  | exitCode : Stores s (.act .exit) s.kernel.current (pcbOffset + Pcb.exitCode)
  | parent {p : Slot} {offset : Nat} (hChild : p ∈ s.kernel.children)
      (hLow : pcbOffset + Pcb.parent ≤ offset) (hHigh : offset < pcbOffset + Pcb.parent + 2) :
      Stores s (.act .exit) p offset

theorem Stores.not_inTable {s : ProcKernel} {e : ProcEvent} {p : Slot} {offset : Nat}
    (h : s.Stores e p offset) : ¬ InTable offset := by
  rintro ⟨hLow, hHigh⟩
  unfold pageTableSize at hHigh
  cases h with
  | ticks => simp only [Pcb.ticks] at hHigh; omega
  | stack hOffset => simp only [Pcb.size] at hOffset; omega
  | own hField =>
    simp only [Pcb.Own, Pcb.ctx, Pcb.exitCode, Pcb.ticks, Pcb.channel] at hField
    omega
  | child _ _ hOffset => simp only [pageTableSize] at hOffset; omega
  | killed _ hOffset => simp only [Pcb.killed] at hOffset; omega
  | top hOffset => simp only [Pcb.top] at hOffset; omega
  | exitCode => simp only [Pcb.exitCode] at hHigh; omega
  | parent _ hOffset => simp only [Pcb.parent] at hOffset; omega

/-- The fields of the child that `sys_fork` patches. -/
theorem patchChild_stored (k : KernelState) (child : Slot) (pid parent : Word) :
    Stored k (patchChild k child pid parent) fun q o =>
      q = child ∧ pcbOffset + pageTableSize ≤ o := by
  unfold patchChild
  have hPid := storeWord_stored k child Pcb.pid pid
  have hParent := storeWord_stored (k.storeWord child Pcb.pid pid) child Pcb.parent parent
  have hA := storePcb_stored ((k.storeWord child Pcb.pid pid).storeWord child Pcb.parent parent)
    child Pcb.ctxA 0
  have hX := storePcb_stored (((k.storeWord child Pcb.pid pid).storeWord child Pcb.parent
    parent).storePcb child Pcb.ctxA 0) child Pcb.ctxX 0
  simp only [Pcb.pid] at hPid
  simp only [Pcb.parent] at hParent
  simp only [Pcb.ctxA] at hA
  simp only [Pcb.ctxX] at hX
  unfold pageTableSize
  refine Stored.trans (hPid.weaken ?_) <| Stored.trans (hParent.weaken ?_) <|
    Stored.trans (hA.weaken ?_) (hX.weaken ?_)
  · exact fun q o h => ⟨h.1, by omega⟩
  · exact fun q o h => ⟨h.1, by omega⟩
  · exact fun q o h => ⟨h.1, by omega⟩
  · exact fun q o h => ⟨h.1, by omega⟩

/-- A sleeping victim of `sys_kill` is woken up. -/
theorem sysKill_stored {k : KernelState} {pid : Word} {p : Slot} (hTarget : k.killTarget pid = some p)
    (hPid : ¬ pid.toNat ≤ 1) :
    Stored (k.kill p) (k.sysKill pid) fun q o =>
      q = p ∧ pcbOffset + Pcb.killed ≤ o ∧ o < pcbOffset + Pcb.killed + 2 := by
  have hStored := storeWord_stored (k.kill p) p Pcb.killed (k.pidOf k.current)
  have hEq : (k.kill p).storeWord p Pcb.killed (k.pidOf k.current) = k.sysKill pid := by
    unfold KernelState.sysKill
    rw [if_neg hPid, hTarget]
    by_cases hAsleep : (k.procs p).state = .sleeping <;>
      simp [KernelState.kill, KernelState.storeWord, KernelState.storePcb, KernelState.setProc,
        hAsleep]
  rwa [hEq] at hStored

/-- `sys_sbrk` stores the top, and `sys_exit` the exit code and the parent of the children. -/
theorem afterAct_stored {s : ProcKernel} {address : Slot → Word} {k : KernelState}
    {action : KernelState.Action} (hStep : s.kernel.perform (.act action) = some k) :
    Stored k (afterAct address s.kernel k action) (s.Stores (.act action)) := by
  obtain ⟨-, hAct⟩ := Option.ite_none_right_eq_some.mp hStep
  have hCurrent : k.current = s.kernel.current := KernelState.act_current hAct
  cases action with
  | sbrk increment =>
    show Stored k (if k.self.top = s.kernel.self.top then k
      else k.storeWord k.current Pcb.top k.self.top) _
    -- a break that fails stores nothing
    split
    · exact .refl k _
    · apply (storeWord_stored k k.current Pcb.top k.self.top).weaken
      rintro q o ⟨hq, hLow, hHigh⟩
      rw [hq, hCurrent]
      exact .top hLow hHigh
  | exit =>
    have hCode := storePcb_stored k k.current Pcb.exitCode
      (s.kernel.pool.entry s.kernel.self.kernelFrame Pcb.ctxA)
    have hChildren := reparent_stored (k.storePcb k.current Pcb.exitCode
      (s.kernel.pool.entry s.kernel.self.kernelFrame Pcb.ctxA)) (address KernelState.initSlot)
        s.kernel.children
    apply Stored.trans (hCode.weaken _) (hChildren.weaken _)
    · rintro q o ⟨hq, ho⟩
      rw [hq, ho, hCurrent]
      exact .exitCode
    · rintro q o ⟨hq, hLow, hHigh⟩
      exact .parent hq hLow hHigh
  | _ => exact .refl k _

/-- An event is a step of `Frames`, or none, and behind it stores to kernel stacks. -/
def Explained (s : ProcKernel) (e : ProcEvent) (s' : ProcKernel) : Prop :=
  ∃ k, (s.occurrence e = none → k = s.kernel) ∧
    (∀ o, s.occurrence e = some o → s.kernel.Step o k) ∧ Stored k s'.kernel (s.Stores e)

section Explanation

variable {address : Slot → Word} {s s' : ProcKernel}

/-- The event is a step of `Frames`. -/
theorem Explained.occurs {e : ProcEvent} {o : KernelState.Occurrence} {k : KernelState}
    (hOccurs : s.occurrence e = some o) (hStep : s.kernel.Step o k)
    (hStored : Stored k s'.kernel (s.Stores e)) : Explained s e s' := by
  refine ⟨k, fun hNone => ?_, fun o' hSome => ?_, hStored⟩
  · rw [hOccurs] at hNone
    cases hNone
  · rw [hOccurs] at hSome
    cases hSome
    exact hStep

/-- The event only stores. -/
theorem Explained.silent {e : ProcEvent} (hSilent : s.occurrence e = none)
    (hStored : Stored s.kernel s'.kernel (s.Stores e)) : Explained s e s' := by
  refine ⟨s.kernel, fun _ => rfl, fun o hSome => ?_, hStored⟩
  rw [hSilent] at hSome
  cases hSome

/-- `scheduler()` gives the process its ticks behind the dispatch. -/
theorem dispatch_explained {p : Slot} (hStep : s.perform address (.dispatch p) = some s') :
    Explained s (.dispatch p) s' := by
  obtain ⟨k, hK, rfl⟩ := Option.map_eq_some_iff.mp hStep
  refine .occurs rfl hK ?_
  apply (storePcb_stored k p Pcb.ticks quantum).weaken
  rintro q o ⟨rfl, rfl⟩
  exact .ticks

theorem wakeup_explained {p : Slot} (hStep : s.perform address (.wakeup p) = some s') :
    Explained s (.wakeup p) s' := by
  obtain ⟨k, hK, rfl⟩ := Option.map_eq_some_iff.mp hStep
  exact .occurs rfl hK (.refl k _)

theorem stackStore_explained {offset : Nat} {byte : Byte}
    (hStep : s.perform address (.stackStore offset byte) = some s') :
    Explained s (.stackStore offset byte) s' := by
  obtain ⟨⟨-, hOffset⟩, hSome⟩ := Option.ite_none_right_eq_some.mp hStep
  obtain rfl := Option.some.inj hSome
  refine .silent rfl ?_
  apply (store_stored s.kernel s.kernel.current offset byte).weaken
  rintro q o ⟨rfl, rfl⟩
  exact .stack hOffset

theorem ownStore_explained {field : Nat} {byte : Byte}
    (hStep : s.perform address (.ownStore field byte) = some s') :
    Explained s (.ownStore field byte) s' := by
  obtain ⟨⟨-, -, hField⟩, hSome⟩ := Option.ite_none_right_eq_some.mp hStep
  obtain rfl := Option.some.inj hSome
  refine .silent rfl ?_
  apply (storePcb_stored s.kernel s.kernel.current field byte).weaken
  rintro q o ⟨rfl, rfl⟩
  exact .own hField

/-- `sys_fork` patches the child it has found a frame for. -/
theorem fork_explained (hStep : s.perform address .fork = some s') : Explained s .fork s' := by
  obtain ⟨⟨hRunning, hUser⟩, hSome⟩ := Option.ite_none_right_eq_some.mp hStep
  have hFork : s.kernel.perform (.act .fork) = some s.kernel.forkStart := by
    refine (if_pos hRunning).trans ?_
    unfold Task.isUser at hUser
    unfold KernelState.act
    cases hTask : s.kernel.self.task <;> simp_all
  refine .occurs rfl hFork ?_
  unfold forkStart at hSome
  unfold KernelState.forkStart
  cases hFound : s.kernel.firstUnused with
  | none =>
    rw [hFound] at hSome
    obtain rfl := Option.some.inj hSome
    exact .refl _ _
  | some child =>
    rw [hFound] at hSome
    dsimp only at hSome ⊢
    -- no slot and no frame store nothing; the third case patches the child
    by_cases hFrame : s.kernel.pool.kalloc.1 = frameUnused
    · rw [if_pos hFrame] at hSome
      obtain rfl := Option.some.inj hSome
      exact .refl _ _
    · rw [if_neg hFrame] at hSome
      obtain ⟨-, hSome⟩ := Option.ite_none_left_eq_some.mp hSome
      obtain rfl := Option.some.inj hSome
      apply (patchChild_stored _ child _ _).weaken
      rintro q o ⟨rfl, hOffset⟩
      exact .child hFound hFrame hOffset

/-- `sys_kill` of a process that sleeps is its wakeup, with a store; that of another one is a
    store. -/
theorem kill_explained {pid : Word} (hStep : s.perform address (.kill pid) = some s') :
    Explained s (.kill pid) s' := by
  obtain ⟨-, hSome⟩ := Option.ite_none_right_eq_some.mp hStep
  obtain rfl := Option.some.inj hSome
  by_cases hPid : pid.toNat ≤ 1
  · refine .silent (if_pos hPid) ?_
    simp only [KernelState.sysKill, hPid, if_true]
    exact .refl _ _
  -- "init" and unknown pids are refused, and nothing is stored
  · cases hTarget : s.kernel.killTarget pid with
    | none =>
      refine .silent (by simp [occurrence, hPid, hTarget]) ?_
      simp only [KernelState.sysKill, hPid, hTarget, if_false]
      exact .refl _ _
    | some p =>
      have hStored : Stored (s.kernel.kill p) (s.kernel.sysKill pid) (s.Stores (.kill pid)) := by
        apply (sysKill_stored hTarget hPid).weaken
        rintro q o ⟨rfl, hLow, hHigh⟩
        exact .killed hTarget hLow hHigh
      -- the mark is stored in both cases; a sleeper is also woken up
      by_cases hAsleep : (s.kernel.procs p).state = .sleeping
      · have hWakeup : s.kernel.Step (.wakeup p) (s.kernel.kill p) := by
          refine (if_pos hAsleep).trans ?_
          rw [KernelState.kill, if_pos hAsleep]
        exact .occurs (by simp [occurrence, hPid, hTarget, hAsleep]) hWakeup hStored
      · have hSame : s.kernel.kill p = s.kernel := if_neg hAsleep
        rw [hSame] at hStored
        exact .silent (by simp [occurrence, hPid, hTarget, hAsleep]) hStored

theorem act_explained {action : KernelState.Action}
    (hStep : s.perform address (.act action) = some s') : Explained s (.act action) s' := by
  have hMap : (s.kernel.perform (.act action)).map (fun k =>
      { s with kernel := afterAct address s.kernel k action }) = some s' := by
    cases action <;> first | exact hStep | cases hStep
  obtain ⟨k, hK, rfl⟩ := Option.map_eq_some_iff.mp hMap
  exact .occurs rfl hK (afterAct_stored hK)

/-- **Refinement**: every event is a step of `Frames`, or none, with stores to kernel stacks. -/
theorem perform_stored {e : ProcEvent} (hStep : s.perform address e = some s') :
    Explained s e s' := by
  cases e with
  | dispatch p => exact dispatch_explained hStep
  | wakeup p => exact wakeup_explained hStep
  | stackStore offset byte => exact stackStore_explained hStep
  | ownStore field byte => exact ownStore_explained hStep
  | fork => exact fork_explained hStep
  | kill pid => exact kill_explained hStep
  | act action => exact act_explained hStep

end Explanation

/-! ## §3 The ownership of the frames -/

section Ownership

variable {address : Slot → Word} {s s' : ProcKernel} {e : ProcEvent}

theorem Clean.occurrence (h : s.Clean e) {o : KernelState.Occurrence}
    (ho : s.occurrence e = some o) : s.kernel.Clean o := by
  cases e with
  | act action =>
    cases ho
    exact h
  | kill pid =>
    -- a victim is woken up
    have hWakeup : ∃ p, o = .wakeup p := by
      obtain ⟨-, hBind⟩ := Option.ite_none_left_eq_some.mp ho
      obtain ⟨p, -, hp⟩ := Option.bind_eq_some_iff.mp hBind
      obtain ⟨-, hSome⟩ := Option.ite_none_right_eq_some.mp hp
      exact ⟨p, (Option.some.inj hSome).symm⟩
    obtain ⟨p, rfl⟩ := hWakeup
    trivial
  | _ =>
    cases ho
    try trivial

/-- `sys_fork` in `Frames`. -/
theorem fork_step {k : KernelState} (hStep : s.perform address .fork = some s')
    (hFork : s.kernel.Step (.act .fork) k) : k = s.kernel.forkStart := by
  obtain ⟨⟨-, hUser⟩, -⟩ := Option.ite_none_right_eq_some.mp hStep
  obtain ⟨-, hAct⟩ := Option.ite_none_right_eq_some.mp hFork
  unfold Task.isUser at hUser
  unfold KernelState.act at hAct
  cases hTask : s.kernel.self.task <;> simp_all

/-- The kernel stacks that an event stores to are in use behind it. -/
theorem Stores.used (h : s.kernel.Owned) (hStep : s.perform address e = some s') {p : Slot}
    {offset : Nat} (hStores : s.Stores e p offset) : (s'.kernel.procs p).state ≠ .unused := by
  obtain ⟨k, hNone, hSome, hStored⟩ := perform_stored hStep
  rw [hStored.procs]
  -- `current_process` is in use when it runs
  have hCurrent : s.kernel.running = true → (s.kernel.procs s.kernel.current).state ≠ .unused := by
    intro hRunning
    have hState : (s.kernel.procs s.kernel.current).state = .running := h.current hRunning
    simp [hState]
  cases hStores with
  | ticks =>
    obtain ⟨-, hK⟩ := Option.ite_none_right_eq_some.mp (hSome _ rfl)
    obtain rfl := Option.some.inj hK
    simp [KernelState.setProc]
  | stack =>
    obtain ⟨⟨hUsed, -⟩, -⟩ := Option.ite_none_right_eq_some.mp hStep
    rw [hNone rfl]
    exact hUsed
  | own =>
    obtain ⟨⟨hRunning, -⟩, -⟩ := Option.ite_none_right_eq_some.mp hStep
    rw [hNone rfl]
    exact hCurrent hRunning
  | child hChild hFrame =>
    have hUnused := KernelState.firstUnused_unused hChild
    obtain ⟨⟨hRunning, -⟩, -⟩ := Option.ite_none_right_eq_some.mp hStep
    have hNe : p ≠ s.kernel.current := by
      rintro rfl
      exact hCurrent hRunning hUnused
    have hK : k = s.kernel.forkInto p :=
      (fork_step hStep (hSome _ rfl)).trans (KernelState.forkStart_of_found hChild)
    rw [hK, KernelState.forkInto_child hFrame hNe]
    simp
  | @killed pid _ _ hTarget =>
    have hUsed := List.find?_some hTarget
    simp only [decide_eq_true_eq] at hUsed
    cases hOccurrence : s.occurrence (.kill pid) with
    | none =>
      rw [hNone hOccurrence]
      exact hUsed.1
    | some o =>
      -- the victim is asleep
      obtain ⟨-, hBind⟩ := Option.ite_none_left_eq_some.mp hOccurrence
      obtain ⟨q, hq, hWake⟩ := Option.bind_eq_some_iff.mp hBind
      obtain rfl := Option.some.inj (hTarget.symm.trans hq)
      obtain ⟨-, hO⟩ := Option.ite_none_right_eq_some.mp hWake
      obtain rfl := Option.some.inj hO
      obtain ⟨-, hK⟩ := Option.ite_none_right_eq_some.mp (hSome _ hOccurrence)
      obtain rfl := Option.some.inj hK
      simp [KernelState.setProc]
  | top =>
    obtain ⟨hRunning, hAct⟩ := Option.ite_none_right_eq_some.mp (hSome _ rfl)
    have hUsed := hCurrent hRunning
    unfold KernelState.act at hAct
    cases hTask : s.kernel.self.task <;> simp only [hTask, reduceCtorEq] at hAct
    obtain rfl := Option.some.inj hAct
    obtain ⟨top, hEntry⟩ :=
      @KernelState.sbrk_entry s.kernel s.kernel.current ‹_›
    rw [hEntry]
    exact hUsed
  | exitCode =>
    obtain ⟨-, hAct⟩ := Option.ite_none_right_eq_some.mp (hSome _ rfl)
    unfold KernelState.act at hAct
    cases hTask : s.kernel.self.task <;> simp only [hTask, reduceCtorEq] at hAct
    obtain ⟨-, hExit⟩ := Option.ite_none_left_eq_some.mp hAct
    obtain rfl := Option.some.inj hExit
    simp [KernelState.exit, KernelState.suspend, KernelState.setSelf, KernelState.setProc]
  | parent hChild =>
    obtain ⟨-, hAct⟩ := Option.ite_none_right_eq_some.mp (hSome _ rfl)
    unfold KernelState.act at hAct
    cases hTask : s.kernel.self.task <;> simp only [hTask, reduceCtorEq] at hAct
    obtain ⟨-, hExit⟩ := Option.ite_none_left_eq_some.mp hAct
    obtain rfl := Option.some.inj hExit
    have hUsed := (List.mem_filter.mp hChild).2
    simp only [decide_eq_true_eq] at hUsed
    by_cases hSelf : p = s.kernel.current
    · subst hSelf
      simp [KernelState.exit, KernelState.suspend, KernelState.setSelf, KernelState.setProc]
    · simp only [KernelState.exit, KernelState.suspend, KernelState.setSelf, KernelState.setProc,
        Function.update_of_ne hSelf]
      rw [if_pos hUsed]
      exact hUsed.1

/-- **Step lemma**: the ownership of the frames is kept by every event that does not enter a
    rollback that goes wrong. -/
theorem owned_performs (h : s.kernel.Owned)
    (hStep : s.perform address e = some s') (hClean : s.Clean e) : s'.kernel.Owned := by
  obtain ⟨k, hNone, hSome, hStored⟩ := perform_stored hStep
  have hOwned : k.Owned := by
    cases hOccurrence : s.occurrence e with
    | none =>
      rw [hNone hOccurrence]
      exact h
    | some o => exact h.step_clean (hSome o hOccurrence) (hClean.occurrence hOccurrence)
  apply hOwned.stored hStored
  · intro p offset hStores
    have hUsed := hStores.used h hStep
    rwa [hStored.procs] at hUsed
  · exact fun p offset hStores => hStores.not_inTable

end Ownership

end ProcKernel

end Xv6502.Kernel
