import Xv6502.Emulator.VectorEntry
import Xv6502.Kernel.ForkRun

/-!
# The Pids in the PCBs

Nobody gets another pid while its slot is in use (`perform_pid`), and `pid_alloc` gives out none
that is in use (`Pids.perform`): it counts up, and panics when it has come round to 0.
-/

namespace Xv6502.Kernel

open Xv6502.Emulator

/-! ## §1 Who is new -/

namespace KernelState

section New

variable {k k' : KernelState} {x : Slot}

theorem update_state {procs : Slot → ProcEntry} {p : Slot} {e : ProcEntry} (hx : x ≠ p) :
    (Function.update procs p e x).state = (procs x).state := by
  rw [Function.update_of_ne hx]

/-- Only the slot that `proc_alloc` finds comes into use. -/
theorem Owned.act_unused (h : k.Owned) (hRunning : k.running = true) {action : Action}
    (hStep : k.act action = some k') (hUnused : (k.procs x).state = .unused)
    (hUsed : (k'.procs x).state ≠ .unused) : action = .fork ∧ k.firstUnused = some x := by
  have hState : (k.procs k.current).state = .running := h.current hRunning
  have hx : x ≠ k.current := by
    rintro rfl
    rw [hState] at hUnused
    cases hUnused
  by_cases hFork : action = .fork ∧ k.firstUnused = some x
  · exact hFork
  · exfalso
    apply hUsed
    rw [← hUnused]
    -- in the order of the actions: whoever changes states finds the process in a state other than
    -- unused
    unfold KernelState.act at hStep
    split at hStep
    · obtain ⟨-, ⟨⟩⟩ := Option.ite_none_left_eq_some.mp hStep
      rfl
    · obtain ⟨-, ⟨⟩⟩ := Option.ite_none_left_eq_some.mp hStep
      rfl
    · obtain rfl := Option.some.inj hStep
      rw [suspend_procs_of_ne _ hx]
    · obtain rfl := Option.some.inj hStep
      rw [suspend_procs_of_ne _ hx]
    · obtain rfl := Option.some.inj hStep
      unfold KernelState.forkStart
      split
      · rfl
      · next child hFound =>
        have hNe : x ≠ child := by
          rintro rfl
          exact hFork ⟨rfl, hFound⟩
        by_cases hFrame : k.pool.kalloc.1 = frameUnused
        · rw [forkInto_none hFrame]
          exact update_state hNe
        · rw [forkInto_other hFrame hNe hx]
    · obtain rfl := Option.some.inj hStep
      rw [sbrk_procs_of_ne _ hx]
    · obtain ⟨-, hSome⟩ := Option.ite_none_left_eq_some.mp hStep
      obtain rfl := Option.some.inj hSome
      simp only [KernelState.exit, KernelState.suspend, setSelf, setProc, Function.update_of_ne hx]
      split <;> rfl
    · obtain rfl := Option.some.inj hStep
      rw [setSelf_procs_of_ne _ hx]
    · obtain ⟨-, hSome⟩ := Option.ite_none_left_eq_some.mp hStep
      obtain rfl := Option.some.inj hSome
      unfold KernelState.kill
      split
      · next p hAsleep =>
        apply update_state
        rintro rfl
        rw [hUnused] at hAsleep
        cases hAsleep
      · rfl
    · next child segment table hTask =>
      obtain rfl := Option.some.inj hStep
      have hForking : k.self.task.forking = some (child, segment) := by rw [hTask]; rfl
      have hBuilding := (h.forking k.current child segment hForking).2.1
      -- the child of a fork has its slot already
      have hNe : x ≠ child := by
        rintro rfl
        rw [hBuilding] at hUnused
        cases hUnused
      have hTurn := forkPage_turn k child segment table
      generalize k.forkPage child segment table = k'' at hTurn
      cases hTurn with
      | publish =>
        unfold forkPublish
        exact (update_state hx).trans (update_state hNe)
      | skip => exact update_state hx
      | fail =>
        unfold KernelState.forkFail
        exact (update_state hx).trans (update_state hNe)
      | hold => exact update_state hx
    · obtain rfl := Option.some.inj hStep
      rw [forkStore_procs, Function.update_of_ne hx]
    · obtain rfl := Option.some.inj hStep
      unfold KernelState.waitTurn
      split
      · next z hZombie =>
        have hState := List.find?_some hZombie
        simp only [decide_eq_true_eq] at hState
        have hNe : x ≠ z := by
          rintro rfl
          rw [hState.1] at hUnused
          cases hUnused
        exact (update_state hx).trans (update_state hNe)
      · rw [suspend_procs_of_ne _ hx]
    · obtain rfl := Option.some.inj hStep
      rw [setSelf_procs_of_ne _ hx]
    · cases hStep

end New

end KernelState

/-! ## §2 The fields behind the call of `sys_fork` -/

section Fields

variable {address : Slot → Word} {p x child : Slot} {s₀ s s' : ProcKernel} {e : ProcEvent}

theorem storePcb_entry (k : KernelState) (field : Nat) (byte : Byte) :
    (k.storePcb p field byte).pool.entry (k.procs p).kernelFrame =
      Function.update (k.pool.entry (k.procs p).kernelFrame) field byte :=
  Pool.entry_setEntry _ _ _ _

theorem storeWord_entry (k : KernelState) (field : Nat) (value : Word) :
    (k.storeWord p field value).pool.entry (k.procs p).kernelFrame =
      Function.update (Function.update (k.pool.entry (k.procs p).kernelFrame) field (lowByte value))
        (field + 1) (highByte value) := by
  have hLow := @storePcb_entry p k field (lowByte value)
  have hHigh := @storePcb_entry p (k.storePcb p field (lowByte value)) (field + 1) (highByte value)
  rw [← hLow]
  exact hHigh

/-- The `PCB` of the child as `sys_fork` patches it. -/
theorem patchChild_entry (k : KernelState) (pid parent : Word) :
    (ProcKernel.patchChild k child pid parent).pool.entry (k.procs child).kernelFrame =
      Function.update (Function.update (Function.update (Function.update (Function.update
        (Function.update (k.pool.entry (k.procs child).kernelFrame)
          Pcb.pid (lowByte pid)) (Pcb.pid + 1) (highByte pid))
          Pcb.parent (lowByte parent)) (Pcb.parent + 1) (highByte parent))
          Pcb.ctxA 0) Pcb.ctxX 0 := by
  have hPid := @storeWord_entry child k Pcb.pid pid
  have hParent := @storeWord_entry child (k.storeWord child Pcb.pid pid) Pcb.parent parent
  have hA := @storePcb_entry child ((k.storeWord child Pcb.pid pid).storeWord child Pcb.parent
    parent) Pcb.ctxA 0
  have hX := @storePcb_entry child (((k.storeWord child Pcb.pid pid).storeWord child Pcb.parent
    parent).storePcb child Pcb.ctxA 0) Pcb.ctxX 0
  rw [← hPid]
  refine Eq.trans hX ?_
  refine congrArg (Function.update · Pcb.ctxX 0) (Eq.trans hA ?_)
  exact congrArg (Function.update · Pcb.ctxA 0) hParent

/-- The `PCB` that `sys_fork` makes of the parent's. -/
def forkedPcb (pcb : Nat → Byte) (pid parent : Word) (field : Nat) : Byte :=
  if field < pageTableSize then frameUnused
  else if field = Pcb.pid then lowByte pid
  else if field = Pcb.pid + 1 then highByte pid
  else if field = Pcb.parent then lowByte parent
  else if field = Pcb.parent + 1 then highByte parent
  else if field = Pcb.ctxA ∨ field = Pcb.ctxX then 0
  else pcb field

/-- The `PCB` of the child is that of the parent, with what `sys_fork` patches. -/
theorem fork_entry (hStep : s₀.perform address .fork = some s) (hOwned : s₀.kernel.Owned)
    (hOpen : s₀.forkResult .fork = none) (hChild : s₀.kernel.firstUnused = some child) :
    s.tableOf child = forkedPcb (s₀.tableOf s₀.kernel.current) s₀.nextPid
      (address s₀.kernel.current) := by
  obtain ⟨⟨hRunning, -⟩, -⟩ := Option.ite_none_right_eq_some.mp hStep
  obtain ⟨c, hc, hSome, -, hEq⟩ := fork_open hStep hOpen
  obtain rfl := Option.some.inj (hChild.symm.trans hc)
  have hNe : child ≠ s₀.kernel.current := by
    rintro rfl
    have hUnused := KernelState.firstUnused_unused hChild
    have hState : (s₀.kernel.procs s₀.kernel.current).state = .running := hOwned.current hRunning
    rw [hState] at hUnused
    cases hUnused
  obtain ⟨hProcs, -⟩ := fork_procs hStep hChild hSome
  have hPatched := @patchChild_entry child (s₀.kernel.forkInto child) s₀.nextPid
    (address s₀.kernel.current)
  have hStack := KernelState.forkInto_child hSome hNe
  have hCopied : (s₀.kernel.forkInto child).pool.entry
      ((s₀.kernel.forkInto child).procs child).kernelFrame =
      fun field => if field < pageTableSize then frameUnused
        else s₀.tableOf s₀.kernel.current field := by
    rw [hStack, KernelState.forkInto_pool hSome hNe]
    funext field
    -- the table is wiped, and the rest is copied
    have hHere : (pcbOffset ≤ pcbOffset + field ∧
        pcbOffset + field < pcbOffset + pageTableSize) ↔ field < pageTableSize := by omega
    simp only [Pool.entry, Pool.setTable, Pool.copyFrame, Function.update_self, hHere,
      Pool.kalloc_mem]
    rfl
  rw [hCopied] at hPatched
  have hTable : s.tableOf child = (ProcKernel.patchChild (s₀.kernel.forkInto child) child
      s₀.nextPid (address s₀.kernel.current)).pool.entry
        ((s₀.kernel.forkInto child).procs child).kernelFrame := by
    unfold ProcKernel.tableOf
    rw [hProcs, hEq]
  rw [hTable, hPatched]
  funext field
  simp only [Function.update_apply, forkedPcb, Pcb.pid, Pcb.parent, Pcb.ctxA, Pcb.ctxX,
    pageTableSize]
  have hCases : field = 20 ∨ field = 21 ∨ field = 26 ∨ field = 27 ∨ field = 33 ∨ field = 34 ∨
      field ≠ 20 ∧ field ≠ 21 ∧ field ≠ 26 ∧ field ≠ 27 ∧ field ≠ 33 ∧ field ≠ 34 := by omega
  rcases hCases with rfl | rfl | rfl | rfl | rfl | rfl | ⟨hA, hX, hPid, hPid', hParent, hParent'⟩
  · rfl
  · rfl
  · rfl
  · rfl
  · rfl
  · rfl
  · simp only [hA, hX, hPid, hPid', hParent, hParent', or_self, if_false]
    rfl

/-! ## §3 Pids -/

/-- The fields of the `PCB` that keep their value while the slot is in use. -/
theorem perform_pid (h : s.kernel.Owned) (hStep : s.perform address e = some s')
    (hClean : s.Clean e) (hx : (s.kernel.procs x).state ≠ .unused)
    (hx' : (s'.kernel.procs x).state ≠ .unused) : s'.kernel.pidOf x = s.kernel.pidOf x := by
  have hKept := ProcKernel.perform_stackKept h hStep hClean hx hx'
  -- nothing is stored to the two bytes of the pid
  have hByte : ∀ field, Pcb.pid ≤ field → field < Pcb.pid + 2 →
      s'.kernel.pool.entry (s'.kernel.procs x).kernelFrame field =
        s.kernel.pool.entry (s.kernel.procs x).kernelFrame field := by
    intro field hLow hHigh
    simp only [Pcb.pid] at hLow hHigh
    rw [hKept.kernelFrame]
    apply hKept.stack
    rintro (⟨-, hIn⟩ | hStores)
    · unfold pageTableSize at hIn
      omega
    · generalize hOffset : pcbOffset + field = offset at hStores
      cases hStores with
      | ticks =>
        simp only [Pcb.ticks] at hOffset
        omega
      | stack hOut =>
        simp only [Pcb.size] at hOut
        omega
      | own hField =>
        simp only [Pcb.Own, Pcb.ctx, Pcb.top, Pcb.exitCode, Pcb.ticks, Pcb.channel] at hField
        omega
      | child hFound => exact hx (KernelState.firstUnused_unused hFound)
      | killed _ hIn =>
        simp only [Pcb.killed] at hIn
        omega
      | top hIn hIn' =>
        simp only [Pcb.top] at hIn hIn'
        omega
      | exitCode =>
        simp only [Pcb.exitCode] at hOffset
        omega
      | parent _ hIn =>
        simp only [Pcb.parent] at hIn
        omega
  unfold KernelState.pidOf Pool.pcbWord
  rw [hByte Pcb.pid le_rfl (by omega), hByte (Pcb.pid + 1) (by omega) (by omega)]

/-- A slot comes into use by a call of `sys_fork` that goes on. -/
theorem perform_new (h : s.kernel.Owned) (hStep : s.perform address e = some s')
    (hUnused : (s.kernel.procs x).state = .unused) (hUsed : (s'.kernel.procs x).state ≠ .unused) :
    e = .fork ∧ s.forkResult .fork = none ∧ s.kernel.firstUnused = some x := by
  obtain ⟨k, hNone, hSome, hStored⟩ := ProcKernel.perform_stored hStep
  rw [hStored.procs] at hUsed
  -- an event takes a slot only through what it does to the frames
  cases hOccurrence : s.occurrence e with
  | none =>
    rw [hNone hOccurrence] at hUsed
    exact absurd hUnused hUsed
  | some o =>
    have hDo := hSome o hOccurrence
    cases o with
    | dispatch q =>
      obtain ⟨⟨-, hRunnable⟩, hK⟩ := Option.ite_none_right_eq_some.mp hDo
      obtain rfl := Option.some.inj hK
      have hNe : x ≠ q := by
        rintro rfl
        rw [hUnused] at hRunnable
        cases hRunnable
      exact absurd ((KernelState.update_state hNe).trans hUnused) hUsed
    | wakeup q =>
      obtain ⟨hAsleep, hK⟩ := Option.ite_none_right_eq_some.mp hDo
      obtain rfl := Option.some.inj hK
      have hNe : x ≠ q := by
        rintro rfl
        rw [hUnused] at hAsleep
        cases hAsleep
      exact absurd ((KernelState.update_state hNe).trans hUnused) hUsed
    | kernelStore q offset byte =>
      exact absurd rfl (ProcKernel.occurrence_ne_kernelStore hOccurrence q offset byte)
    | act action =>
      obtain ⟨hRunning, hAct⟩ := Option.ite_none_right_eq_some.mp hDo
      obtain ⟨rfl, hFound⟩ := h.act_unused hRunning hAct hUnused hUsed
      have hFork : e = .fork := by
        cases e with
        | fork => rfl
        | act action =>
          cases hOccurrence
          cases hStep
        | kill pid =>
          obtain ⟨-, hBind⟩ := Option.ite_none_left_eq_some.mp hOccurrence
          obtain ⟨r, -, hr⟩ := Option.bind_eq_some_iff.mp hBind
          obtain ⟨-, hWake⟩ := Option.ite_none_right_eq_some.mp hr
          cases hWake
        | _ => cases hOccurrence
      subst hFork
      refine ⟨rfl, ?_, hFound⟩
      have hK := ProcKernel.fork_step hStep hDo
      rw [hK, KernelState.forkStart_of_found hFound] at hUsed
      unfold ProcKernel.forkResult
      -- `proc_alloc` has found the slot and `kalloc` a frame for its stack
      apply if_neg
      rintro (hNone | hFrame)
      · rw [hFound] at hNone
        cases hNone
      · rw [KernelState.forkInto_none hFrame] at hUsed
        apply hUsed
        simp [KernelState.setProc, hUnused]

/-- Every pid in use has been given out before, and to one process. -/
structure Pids (s : ProcKernel) : Prop where
  below : ∀ q, (s.kernel.procs q).state ≠ .unused →
    s.nextPid = 0 ∨ (s.kernel.pidOf q).toNat < s.nextPid.toNat
  distinct : ∀ q r, (s.kernel.procs q).state ≠ .unused → (s.kernel.procs r).state ≠ .unused →
    s.kernel.pidOf q = s.kernel.pidOf r → q = r

/-- The child gets the next pid. -/
theorem fork_pid (h : s.kernel.Owned) (hStep : s.perform address .fork = some s')
    (hOpen : s.forkResult .fork = none) (hChild : s.kernel.firstUnused = some child) :
    s'.kernel.pidOf child = s.nextPid := by
  have hEntry := fork_entry hStep h hOpen hChild
  unfold ProcKernel.tableOf at hEntry
  unfold KernelState.pidOf Pool.pcbWord
  rw [hEntry]
  exact wordOf_low_high s.nextPid

/-- The static variables stay unless a child has got the next pid. -/
theorem perform_statics (hStep : s.perform address e = some s') :
    s'.nextPid = s.nextPid ∧ s'.childPid = s.childPid ∨
      e = .fork ∧ s.forkResult .fork = none ∧ s.nextPid ≠ 0 ∧ s'.nextPid = s.nextPid + 1 ∧
        s'.childPid = Function.update s.childPid s.kernel.current s.nextPid := by
  cases e with
  | fork =>
    -- `next_pid` goes on with each child that has got a slot and a frame
    by_cases hOpen : s.forkResult .fork = none
    · obtain ⟨child, -, -, hPid, rfl⟩ := fork_open hStep hOpen
      exact .inr ⟨rfl, hOpen, hPid, rfl, rfl⟩
    · left
      obtain ⟨-, hStart⟩ := Option.ite_none_right_eq_some.mp hStep
      have hEither : s.kernel.firstUnused = none ∨ s.kernel.pool.kalloc.1 = frameUnused := by
        by_contra hNot
        apply hOpen
        unfold ProcKernel.forkResult
        rw [if_neg hNot]
      unfold ProcKernel.forkStart at hStart
      split at hStart
      · obtain rfl := Option.some.inj hStart
        exact ⟨rfl, rfl⟩
      · next child hFound =>
        have hFrame : s.kernel.pool.kalloc.1 = frameUnused := by
          apply hEither.resolve_left
          rw [hFound]
          exact Option.some_ne_none child
        rw [if_pos hFrame] at hStart
        obtain rfl := Option.some.inj hStart
        exact ⟨rfl, rfl⟩
  | dispatch p =>
    obtain ⟨k, -, rfl⟩ := Option.map_eq_some_iff.mp hStep
    exact .inl ⟨rfl, rfl⟩
  | wakeup p =>
    obtain ⟨k, -, rfl⟩ := Option.map_eq_some_iff.mp hStep
    exact .inl ⟨rfl, rfl⟩
  | stackStore offset byte =>
    obtain ⟨-, hSome⟩ := Option.ite_none_right_eq_some.mp hStep
    obtain rfl := Option.some.inj hSome
    exact .inl ⟨rfl, rfl⟩
  | ownStore field byte =>
    obtain ⟨-, hSome⟩ := Option.ite_none_right_eq_some.mp hStep
    obtain rfl := Option.some.inj hSome
    exact .inl ⟨rfl, rfl⟩
  | kill pid =>
    obtain ⟨-, hSome⟩ := Option.ite_none_right_eq_some.mp hStep
    obtain rfl := Option.some.inj hSome
    exact .inl ⟨rfl, rfl⟩
  | act action =>
    left
    have hMap : (s.kernel.perform (.act action)).map (fun k =>
        { s with kernel := ProcKernel.afterAct address s.kernel k action }) = some s' := by
      cases action <;> first | exact hStep | cases hStep
    obtain ⟨k, -, rfl⟩ := Option.map_eq_some_iff.mp hMap
    exact ⟨rfl, rfl⟩

/-- **Step lemma**. -/
theorem Pids.perform (hPids : Pids s) (h : s.kernel.Owned)
    (hStep : s.perform address e = some s') (hClean : s.Clean e) : Pids s' := by
  -- who has been in use has its pid from before, and who is new has the next one
  have hPid : ∀ q, (s'.kernel.procs q).state ≠ .unused →
      (s.kernel.procs q).state ≠ .unused ∧ s'.kernel.pidOf q = s.kernel.pidOf q ∨
        e = .fork ∧ s.forkResult .fork = none ∧ s.kernel.firstUnused = some q ∧
          s'.kernel.pidOf q = s.nextPid := by
    intro q hUsed
    by_cases hOld : (s.kernel.procs q).state = .unused
    · obtain ⟨rfl, hOpen, hFound⟩ := perform_new h hStep hOld hUsed
      exact .inr ⟨rfl, hOpen, hFound, fork_pid h hStep hOpen hFound⟩
    · exact .inl ⟨hOld, perform_pid h hStep hClean hOld hUsed⟩
  constructor
  · intro q hUsed
    rcases perform_statics hStep with ⟨hSame, -⟩ | ⟨rfl, hOpen, hSome, hNext, -⟩
    · rw [hSame]
      rcases hPid q hUsed with ⟨hOld, hEq⟩ | ⟨rfl, hOpen, -, -⟩
      · rw [hEq]
        exact hPids.below q hOld
      · obtain ⟨_, -, -, -, hFork⟩ := fork_open hStep hOpen
        have hOne : s.nextPid + 1 = s.nextPid := (congrArg ProcKernel.nextPid hFork).symm.trans hSame
        have hNat := congrArg BitVec.toNat hOne
        have hLt := s.nextPid.isLt
        rw [BitVec.toNat_add] at hNat
        have hOneNat : (1 : Word).toNat = 1 := rfl
        omega
    · have hSucc : s.nextPid + 1 = 0 ∨ (s.nextPid + 1).toNat = s.nextPid.toNat + 1 := by
        have hLt := s.nextPid.isLt
        have hOneNat : (1 : Word).toNat = 1 := rfl
        by_cases hLast : s.nextPid.toNat + 1 = 65536
        · left
          apply BitVec.eq_of_toNat_eq
          rw [BitVec.toNat_add, hOneNat, hLast]
          rfl
        · right
          rw [BitVec.toNat_add, hOneNat]
          omega
      rw [hNext]
      apply hSucc.imp_right
      intro hCount
      rcases hPid q hUsed with ⟨hOld, hEq⟩ | ⟨-, -, -, hEq⟩
      · have hBelow := (hPids.below q hOld).resolve_left hSome
        rw [hEq]
        omega
      · rw [hEq]
        omega
  · intro q r hq hr hSame
    rcases hPid q hq with ⟨hOld, hEq⟩ | ⟨rfl, hOpen, hFound, hEq⟩
    · rcases hPid r hr with ⟨hOld', hEq'⟩ | ⟨rfl, hOpen, hFound, hEq'⟩
      · rw [hEq, hEq'] at hSame
        exact hPids.distinct q r hOld hOld' hSame
      · obtain ⟨_, -, -, hSome, -⟩ := fork_open hStep hOpen
        have hBelow := (hPids.below q hOld).resolve_left hSome
        rw [hEq, hEq'] at hSame
        rw [hSame] at hBelow
        exact absurd hBelow (Nat.lt_irrefl _)
    · rcases hPid r hr with ⟨hOld', hEq'⟩ | ⟨-, -, hFound', -⟩
      · obtain ⟨_, -, -, hSome, -⟩ := fork_open hStep hOpen
        have hBelow := (hPids.below r hOld').resolve_left hSome
        rw [hEq, hEq'] at hSame
        rw [← hSame] at hBelow
        exact absurd hBelow (Nat.lt_irrefl _)
      · exact Option.some.inj (hFound.symm.trans hFound')

end Fields

end Xv6502.Kernel
