import Xv6502.Kernel.FrameAccount
import Mathlib.Algebra.BigOperators.Fin
import Mathlib.Data.Fintype.BigOperators

/-!
# Every Frame Has One Owner

Over every run of the system calls in `Frames`, each usable frame is in exactly one place,
as long as no step takes one of the two rollbacks that go wrong: the one of `sys_fork`, whose
`do … while(segment)` skips segment 0, and the one of `sys_sbrk`, which keeps the frame of the
old segment and frees segments it has not allocated.

The idea is to count. A frame is in `occurrences` many places: on the free stack, in the
buffer cache, and in a process as its kernel stack, in its page table, or in the hands of its
system call. A system call moves frames between the free stack and the one or two processes
it works for, so it is enough to balance these (`Owned.exchange`); that the count is one then
says both that no frame is lost and that none is shared.
-/

namespace Xv6502.Kernel

open Xv6502.Emulator
open Xv6502.Lib

/-! ## §1 The places of a frame -/

/-- The frame a task has got from `kalloc` and not stored yet. -/
def Task.held : Task → Option Frame
  | .forkHolding _ _ _ frame => some frame
  | _ => none

/-- The child a task is building and the segment its page loop has come to. -/
def Task.forking : Task → Option (Slot × Nat)
  | .fork child segment _ => some (child, segment)
  | .forkHolding child segment _ _ => some (child, segment.val)
  | _ => none

theorem Task.held_of_not_forking {task : Task} (h : task.forking = none) : task.held = none := by
  cases task <;> simp_all [Task.forking, Task.held]

/-- How often a process owns a frame: as its kernel stack, and while it is alive in its page
    table and by its system call. -/
def Pool.places (pool : Pool) (e : ProcEntry) (frame : Frame) : Nat :=
  let stack := if e.kernelFrame = frame then 1 else 0
  if e.state = .unused then 0
  else if e.state = .zombie then stack
  else
    stack + mappings (pool.entry e.kernelFrame) frame 0 pageTableSize +
      if e.task.held = some frame then 1 else 0

namespace KernelState

/-- The number of places a frame is in. -/
def occurrences (k : KernelState) (frame : Frame) : Nat :=
  k.pool.free.count frame + k.cache.count frame + ∑ p, k.pool.places (k.procs p) frame

/-- Every usable frame is in exactly one place. -/
def Partitioned (k : KernelState) : Prop := ∀ frame, Usable frame → k.occurrences frame = 1

/-- The invariant of the runs. A process in `sys_fork` owns its child: nobody else builds it,
    it is not dispatched, and the entries the page loop has not come to are empty. -/
structure Owned (k : KernelState) : Prop where
  partition : k.Partitioned
  free : ∀ frame ∈ k.pool.free, pageTableSize ≤ frame.toNat
  stack : ∀ p, (k.procs p).state ≠ .unused → Usable (k.procs p).kernelFrame
  forking : ∀ p child segment, (k.procs p).task.forking = some (child, segment) →
    ((k.procs p).state = .ready ∨ (k.procs p).state = .running) ∧
    (k.procs child).state = .building ∧
    ∀ s, segment ≤ s → s < pageTableSize →
      k.pool.entry (k.procs child).kernelFrame s = frameUnused
  distinct : ∀ p q child s s', (k.procs p).task.forking = some (child, s) →
    (k.procs q).task.forking = some (child, s') → p = q
  current : k.running = true → k.self.state = .running

/-! ## §2 One place only -/

section Places

variable {k : KernelState} {p q : Slot} {frame : Frame}

theorem places_stack_pos (h : (k.procs p).state ≠ .unused) :
    0 < k.pool.places (k.procs p) (k.procs p).kernelFrame := by
  by_cases hz : (k.procs p).state = .zombie <;> simp [Pool.places, h, hz]

theorem places_live (h : (k.procs p).state ≠ .unused) (hz : (k.procs p).state ≠ .zombie) :
    k.pool.places (k.procs p) frame =
      (if (k.procs p).kernelFrame = frame then 1 else 0) +
        mappings (k.pool.entry (k.procs p).kernelFrame) frame 0 pageTableSize +
        if (k.procs p).task.held = some frame then 1 else 0 := by
  simp [Pool.places, h, hz]

/-- A frame that a process owns is nowhere else. -/
theorem Owned.alone (h : Owned k) (hf : Usable frame)
    (hp : 0 < k.pool.places (k.procs p) frame) :
    k.pool.free.count frame = 0 ∧ k.pool.places (k.procs p) frame = 1 ∧
      ∀ q, q ≠ p → k.pool.places (k.procs q) frame = 0 := by
  have hOne := h.partition frame hf
  unfold occurrences at hOne
  rw [← Finset.add_sum_erase _ _ (Finset.mem_univ p)] at hOne
  refine ⟨by omega, by omega, ?_⟩
  intro q hq
  have hRest : ∑ x ∈ Finset.univ.erase p, k.pool.places (k.procs x) frame = 0 := by omega
  exact Finset.sum_eq_zero_iff.mp hRest q (Finset.mem_erase.mpr ⟨hq, Finset.mem_univ q⟩)

/-- A frame on the free stack belongs to no process. -/
theorem Owned.free_alone (h : Owned k) (hf : Usable frame) (hMem : frame ∈ k.pool.free)
    (p : Slot) : k.pool.places (k.procs p) frame = 0 := by
  by_contra hp
  have hNone := (h.alone hf (Nat.pos_of_ne_zero hp)).1
  exact absurd hMem (List.count_eq_zero.mp hNone)

theorem Owned.stack_not_free (h : Owned k) (hp : (k.procs p).state ≠ .unused) :
    (k.procs p).kernelFrame ∉ k.pool.free := by
  intro hMem
  have hNone := h.free_alone (h.stack p hp) hMem p
  have hPos := places_stack_pos hp
  omega

theorem Owned.stack_ne (h : Owned k) (hq : (k.procs q).state ≠ .unused)
    (hp : (k.procs p).state ≠ .unused) (hNe : q ≠ p) :
    (k.procs q).kernelFrame ≠ (k.procs p).kernelFrame := by
  intro hEq
  have hNone := (h.alone (h.stack p hp) (places_stack_pos hp)).2.2 q hNe
  have hPos := places_stack_pos hq
  rw [hEq] at hPos
  omega

/-- A page table maps no kernel stack. -/
theorem Owned.entry_ne_stack (h : Owned k) (hp : (k.procs p).state ≠ .unused)
    (hz : (k.procs p).state ≠ .zombie) (hq : (k.procs q).state ≠ .unused) {s : Nat}
    (hs : s < pageTableSize) :
    k.pool.entry (k.procs p).kernelFrame s ≠ (k.procs q).kernelFrame := by
  intro hEq
  have hMapped := mappings_pos (Nat.zero_le s) hs hEq
  have hPlaces : k.pool.places (k.procs p) (k.procs q).kernelFrame = _ := places_live hp hz
  have hAlone := h.alone (h.stack q hq) (places_stack_pos hq)
  -- the frame would be in two places, a kernel stack and a page table, or twice in one process
  by_cases hpq : p = q
  · subst hpq
    rw [if_pos rfl] at hPlaces
    omega
  · have hNone := hAlone.2.2 p hpq
    omega

/-- A frame held by a system call is no kernel stack. -/
theorem Owned.held_ne_stack (h : Owned k) (hp : (k.procs p).state ≠ .unused)
    (hz : (k.procs p).state ≠ .zombie) (hq : (k.procs q).state ≠ .unused)
    (hHeld : (k.procs p).task.held = some frame) : frame ≠ (k.procs q).kernelFrame := by
  rintro rfl
  have hPlaces : k.pool.places (k.procs p) (k.procs q).kernelFrame = _ := places_live hp hz
  rw [if_pos hHeld] at hPlaces
  have hAlone := h.alone (h.stack q hq) (places_stack_pos hq)
  by_cases hpq : p = q
  · subst hpq
    rw [if_pos rfl] at hPlaces
    omega
  · have hNone := hAlone.2.2 p hpq
    omega

end Places

/-! ## §3 Steps that leave most processes alone -/

/-- A process is the same in both states, its page table included. -/
structure Same (k k' : KernelState) (q : Slot) : Prop where
  state : (k'.procs q).state = (k.procs q).state
  kernelFrame : (k'.procs q).kernelFrame = (k.procs q).kernelFrame
  task : (k'.procs q).task = (k.procs q).task
  table : (k.procs q).state ≠ .unused → ∀ s, s < pageTableSize →
    k'.pool.entry (k.procs q).kernelFrame s = k.pool.entry (k.procs q).kernelFrame s

theorem Same.places {k k' : KernelState} {q : Slot} (h : Same k k' q) (frame : Frame) :
    k'.pool.places (k'.procs q) frame = k.pool.places (k.procs q) frame := by
  unfold Pool.places
  rw [h.state, h.kernelFrame, h.task]
  by_cases hUnused : (k.procs q).state = .unused
  · simp [hUnused]
  · rw [mappings_congr fun s _ hs => h.table hUnused s hs]

/-- The account of a step of the processes in `S`: the others are the same. -/
theorem occurrences_account {k k' : KernelState} (frame : Frame) (S : Finset Slot)
    (hCache : k'.cache = k.cache) (hSame : ∀ q, q ∉ S → Same k k' q) :
    k'.occurrences frame +
        (k.pool.free.count frame + ∑ q ∈ S, k.pool.places (k.procs q) frame) =
      k.occurrences frame +
        (k'.pool.free.count frame + ∑ q ∈ S, k'.pool.places (k'.procs q) frame) := by
  unfold occurrences
  rw [hCache, ← Finset.sum_add_sum_compl S, ← Finset.sum_add_sum_compl S]
  have hOthers : ∑ q ∈ Sᶜ, k'.pool.places (k'.procs q) frame =
      ∑ q ∈ Sᶜ, k.pool.places (k.procs q) frame :=
    Finset.sum_congr rfl fun q hq => (hSame q (Finset.mem_compl.mp hq)).places frame
  omega

/-- **Exchange rule**: a step of the processes in `S` keeps the invariant if these exchange
    frames with the free stack only, and what they build is theirs. The others need no look:
    they are the same before and after, and their frames are not touched since every frame
    has one owner. -/
theorem Owned.exchange {k k' : KernelState} (h : Owned k) (S : Finset Slot)
    (hCache : k'.cache = k.cache)
    (hFree : ∀ frame ∈ k'.pool.free, frame ∈ k.pool.free ∨ pageTableSize ≤ frame.toNat)
    (hSame : ∀ q, q ∉ S → Same k k' q)
    (hCount : ∀ frame, Usable frame →
      k'.pool.free.count frame + ∑ q ∈ S, k'.pool.places (k'.procs q) frame =
        k.pool.free.count frame + ∑ q ∈ S, k.pool.places (k.procs q) frame)
    (hStack : ∀ p ∈ S, (k'.procs p).state ≠ .unused → Usable (k'.procs p).kernelFrame)
    (hApart : ∀ q, q ∉ S → ∀ child s, (k.procs q).task.forking = some (child, s) → child ∉ S)
    (hForking : ∀ p ∈ S, ∀ child segment,
      (k'.procs p).task.forking = some (child, segment) → child ∈ S ∧
        ((k'.procs p).state = .ready ∨ (k'.procs p).state = .running) ∧
        (k'.procs child).state = .building ∧
        ∀ s, segment ≤ s → s < pageTableSize →
          k'.pool.entry (k'.procs child).kernelFrame s = frameUnused)
    (hDistinct : ∀ p ∈ S, ∀ q ∈ S, ∀ child s s', (k'.procs p).task.forking = some (child, s) →
      (k'.procs q).task.forking = some (child, s') → p = q)
    (hCurrent : k'.running = true → k'.self.state = .running) : Owned k' where
  -- the processes of `S` and the free stack have the same frames between them as before
  partition frame hf := by
    have hAccount := occurrences_account frame S hCache hSame
    have hOne := h.partition frame hf
    have hEqual := hCount frame hf
    omega
  free frame hMem := (hFree frame hMem).elim (h.free frame) id
  stack p hp := by
    by_cases hS : p ∈ S
    · exact hStack p hS hp
    · rw [(hSame p hS).state] at hp
      rw [(hSame p hS).kernelFrame]
      exact h.stack p hp
  -- outside of `S` neither the builder nor its child has changed
  forking p child segment hTask := by
    by_cases hS : p ∈ S
    · exact (hForking p hS child segment hTask).2
    · rw [(hSame p hS).task] at hTask
      have hChild := hSame child (hApart p hS child segment hTask)
      obtain ⟨hState, hBuilding, hEmpty⟩ := h.forking p child segment hTask
      rw [(hSame p hS).state, hChild.state, hChild.kernelFrame]
      refine ⟨hState, hBuilding, fun s hs hs' => ?_⟩
      rw [hChild.table (by simp [hBuilding]) s hs', hEmpty s hs hs']
  -- a builder in `S` builds in `S`, one outside builds outside
  distinct p q child s s' hp hq := by
    by_cases hpS : p ∈ S
    · by_cases hqS : q ∈ S
      · exact hDistinct p hpS q hqS child s s' hp hq
      · rw [(hSame q hqS).task] at hq
        exact absurd (hForking p hpS child s hp).1 (hApart q hqS child s' hq)
    · by_cases hqS : q ∈ S
      · rw [(hSame p hpS).task] at hp
        exact absurd (hForking q hqS child s' hq).1 (hApart p hpS child s hp)
      · rw [(hSame p hpS).task] at hp
        rw [(hSame q hqS).task] at hq
        exact h.distinct p q child s s' hp hq
  current := hCurrent

/-- **Relabel rule**: a step that only changes the state or the task of one process, not its
    places, keeps the invariant. -/
theorem Owned.relabel {k k' : KernelState} (h : Owned k) (p : Slot) (hPool : k'.pool = k.pool)
    (hCache : k'.cache = k.cache) (hProcs : ∀ q, q ≠ p → k'.procs q = k.procs q)
    (hFrame : (k'.procs p).kernelFrame = (k.procs p).kernelFrame)
    (hPlaces : ∀ frame, k.pool.places (k'.procs p) frame = k.pool.places (k.procs p) frame)
    (hUsed : (k'.procs p).state ≠ .unused → (k.procs p).state ≠ .unused)
    (hTask : ∀ child s, (k'.procs p).task.forking = some (child, s) →
      ((k'.procs p).state = .ready ∨ (k'.procs p).state = .running) ∧
        ∃ s', s' ≤ s ∧ (k.procs p).task.forking = some (child, s'))
    (hBuilding : ∀ q s, (k.procs q).task.forking = some (p, s) → (k'.procs p).state = .building)
    (hCurrent : k'.running = true → k'.self.state = .running) : Owned k' := by
  -- every task of the new state comes from a task of the old one
  have hOrigin : ∀ q child s, (k'.procs q).task.forking = some (child, s) →
      ((k'.procs q).state = .ready ∨ (k'.procs q).state = .running) ∧
        ∃ s', s' ≤ s ∧ (k.procs q).task.forking = some (child, s') := by
    intro q child s hq
    by_cases hqp : q = p
    · subst hqp
      exact hTask child s hq
    · rw [hProcs q hqp] at hq ⊢
      exact ⟨(h.forking q child s hq).1, s, le_rfl, hq⟩
  constructor
  -- the places of the process are the same by assumption, those of the others anyway
  · intro frame hf
    have hSum : ∀ q ∈ Finset.univ,
        k'.pool.places (k'.procs q) frame = k.pool.places (k.procs q) frame := by
      intro q _
      rw [hPool]
      by_cases hqp : q = p
      · subst hqp
        exact hPlaces frame
      · rw [hProcs q hqp]
    have hOne := h.partition frame hf
    unfold occurrences at hOne ⊢
    rw [Finset.sum_congr rfl hSum, hPool, hCache, hOne]
  · rw [hPool]
    exact h.free
  · intro q hq
    by_cases hqp : q = p
    · subst hqp
      rw [hFrame]
      exact h.stack q (hUsed hq)
    · rw [hProcs q hqp] at hq ⊢
      exact h.stack q hq
  · intro q child s hq
    obtain ⟨hState, s', hs', hOld⟩ := hOrigin q child s hq
    obtain ⟨-, hChild, hEmpty⟩ := h.forking q child s' hOld
    refine ⟨hState, ?_⟩
    -- the child that is built may be the process itself
    by_cases hcp : child = p
    · subst hcp
      refine ⟨hBuilding q s' hOld, ?_⟩
      rw [hFrame, hPool]
      exact fun t ht ht' => hEmpty t (by omega) ht'
    · rw [hProcs child hcp, hPool]
      exact ⟨hChild, fun t ht ht' => hEmpty t (by omega) ht'⟩
  · intro q r child s s' hq hr
    obtain ⟨-, t, -, hq⟩ := hOrigin q child s hq
    obtain ⟨-, t', -, hr⟩ := hOrigin r child s' hr
    exact h.distinct q r child t t' hq hr
  · exact hCurrent

section Steps

variable {k : KernelState}

/-- A process that is neither being built nor gone moves to another such state. -/
theorem Owned.restate {k' : KernelState} (h : Owned k) (p : Slot) (state : ProcState)
    (hPool : k'.pool = k.pool) (hCache : k'.cache = k.cache)
    (hProcs : k'.procs = Function.update k.procs p { k.procs p with state := state })
    (hOld : (k.procs p).state ≠ .unused ∧ (k.procs p).state ≠ .zombie ∧
      (k.procs p).state ≠ .building)
    (hNew : state ≠ .unused ∧ state ≠ .zombie)
    (hTask : (k.procs p).task.forking ≠ none → state = .ready ∨ state = .running)
    (hCurrent : k'.running = true → k'.self.state = .running) : Owned k' := by
  have hSelf : k'.procs p = { k.procs p with state := state } := by
    rw [hProcs, Function.update_self]
  -- of the states only `UNUSED` and `ZOMBIE` matter for the places
  apply h.relabel p hPool hCache
  · intro q hq
    rw [hProcs, Function.update_of_ne hq]
  · rw [hSelf]
  · intro frame
    simp [hSelf, Pool.places, hOld, hNew]
  · exact fun _ => hOld.1
  · intro child s hs
    rw [hSelf] at hs ⊢
    exact ⟨hTask (by simp only [hs]; simp), s, le_rfl, hs⟩
  -- nobody builds a process that is not `BUILDING`
  · intro q s hq
    exact absurd (h.forking q p s hq).2.1 hOld.2.2
  · exact hCurrent

/-- A running process goes on with another task that holds nothing. -/
theorem Owned.retask (h : Owned k) (hRunning : k.running = true) (task : Task)
    (hHeld : k.self.task.held = none) (hHeld' : task.held = none)
    (hTask : ∀ child s, task.forking = some (child, s) →
      ∃ s', s' ≤ s ∧ k.self.task.forking = some (child, s')) :
    Owned (k.setSelf fun e => { e with task := task }) := by
  have hState : (k.procs k.current).state = .running := h.current hRunning
  have hOld : (k.procs k.current).task.held = none := hHeld
  have hSelf : (k.setSelf fun e => { e with task := task }).procs k.current =
      { k.procs k.current with task := task } := Function.update_self ..
  refine h.relabel k.current rfl rfl ?_ ?_ ?_ ?_ ?_ ?_ ?_
  · exact fun q hq => Function.update_of_ne hq _ _
  · rw [hSelf]
  · intro frame
    simp [hSelf, Pool.places, hState, hOld, hHeld']
  · intro _
    simp [hState]
  · intro child s hs
    rw [hSelf] at hs ⊢
    exact ⟨.inr hState, hTask child s hs⟩
  -- the process runs, so nobody builds it
  · intro q s hq
    have hBuilding := (h.forking q k.current s hq).2.1
    simp [hState] at hBuilding
  · intro _
    show ((k.setSelf fun e => { e with task := task }).procs k.current).state = .running
    rw [hSelf]
    exact hState

theorem Owned.suspend (h : Owned k) (hRunning : k.running = true) (state : ProcState)
    (hNew : state ≠ .unused ∧ state ≠ .zombie)
    (hTask : k.self.task.forking ≠ none → state = .ready) : Owned (k.suspend state) := by
  have hState : (k.procs k.current).state = .running := h.current hRunning
  refine h.restate k.current state rfl rfl rfl ?_ hNew ?_ ?_
  · simp [hState]
  · exact fun hf => .inl (hTask hf)
  · intro hFalse
    simp [KernelState.suspend] at hFalse

/-- A change of memory and of the free stack that neither page tables nor counts show. -/
theorem Owned.repool (h : Owned k) (pool : Pool)
    (hCount : ∀ frame, Usable frame → pool.free.count frame = k.pool.free.count frame)
    (hFree : ∀ frame ∈ pool.free, frame ∈ k.pool.free ∨ pageTableSize ≤ frame.toNat)
    (hTable : ∀ p, (k.procs p).state ≠ .unused → ∀ s, s < pageTableSize →
      pool.entry (k.procs p).kernelFrame s = k.pool.entry (k.procs p).kernelFrame s) :
    Owned { k with pool := pool } := by
  refine h.exchange ∅ rfl hFree (fun q _ => ⟨rfl, rfl, rfl, hTable q⟩) ?_ ?_ ?_ ?_ ?_ h.current
  · intro frame hf
    simp [hCount frame hf]
  all_goals simp

/-! ## §4 Stores -/

theorem Owned.kernelStore (h : Owned k) (p : Slot) (offset : Nat) (byte : Byte)
    (hp : (k.procs p).state ≠ .unused)
    (hOffset : offset < pcbOffset ∨ pcbOffset + pageTableSize ≤ offset) :
    Owned { k with pool := k.pool.store (k.procs p).kernelFrame offset byte } := by
  apply h.repool
  · exact fun _ _ => rfl
  · exact fun _ hMem => .inl hMem
  · intro q hq s hs
    -- in its own frame the store misses the page table; no other process has that frame
    by_cases hqp : q = p
    · subst hqp
      simp only [Pool.entry, Pool.store, Function.update_self]
      rw [Function.update_of_ne (by omega)]
    · simp only [Pool.entry, Pool.store]
      rw [Function.update_of_ne (h.stack_ne hq hp hqp)]

theorem Owned.userStore (h : Owned k) (hRunning : k.running = true) {address : Word} {byte : Byte}
    {k' : KernelState} (hStep : k.userStore address byte = some k') : Owned k' := by
  have hState : (k.procs k.current).state = .running := h.current hRunning
  obtain ⟨-, ⟨⟩⟩ := Option.ite_none_left_eq_some.mp hStep
  have hSegment : address.toNat / 0x1000 < pageTableSize := by
    have hAddress := address.isLt
    unfold pageTableSize
    omega
  -- the frame is mapped, so it is no kernel stack and holds no page table
  apply h.repool
  · exact fun _ _ => rfl
  · exact fun _ hMem => .inl hMem
  · intro q hq s hs
    simp only [Pool.entry, Pool.store]
    rw [Function.update_of_ne]
    exact (h.entry_ne_stack (by simp [hState]) (by simp [hState]) hq hSegment).symm

/-! ## §5 `sys_sbrk` -/

/-- No task builds a process that runs. -/
theorem Owned.not_building (h : Owned k) {p q : Slot} {child : Slot} {s : Nat}
    (hp : (k.procs p).state ≠ .building) (hq : (k.procs q).task.forking = some (child, s)) :
    child ≠ p := by
  rintro rfl
  exact hp (h.forking q child s hq).2.1

/-- Only a process that can run is in `sys_fork`. -/
theorem Owned.not_forking (h : Owned k) {p : Slot} (hReady : (k.procs p).state ≠ .ready)
    (hRunning : (k.procs p).state ≠ .running) : (k.procs p).task.forking = none := by
  by_contra hSome
  obtain ⟨⟨child, s⟩, hTask⟩ := Option.ne_none_iff_exists'.mp hSome
  rcases (h.forking p child s hTask).1 with hState | hState
  · exact hReady hState
  · exact hRunning hState

/-- `sys_sbrk` commits to a table that has exchanged frames with the free stack. -/
theorem Owned.commit (h : Owned k) (hRunning : k.running = true) (hTask : k.self.task = .user)
    (top : Word) (table : Nat → Frame) (pool : Pool)
    (hFree : ∀ frame ∈ pool.free, frame ∈ k.pool.free ∨ pageTableSize ≤ frame.toNat)
    (hCount : ∀ frame, Usable frame →
      pool.free.count frame + mappings table frame 0 pageTableSize =
        k.pool.free.count frame +
          mappings (k.pool.entry k.self.kernelFrame) frame 0 pageTableSize)
    (hMem : ∀ q, q ≠ k.current → (k.procs q).state ≠ .unused →
      pool.mem (k.procs q).kernelFrame = k.pool.mem (k.procs q).kernelFrame) :
    Owned { k.setSelf fun e => { e with top := top } with
      pool := pool.setTable k.self.kernelFrame table } := by
  have hState : (k.procs k.current).state = .running := h.current hRunning
  have hUser : (k.procs k.current).task = .user := hTask
  have hUsed : (k.procs k.current).state ≠ .unused := by simp [hState]
  refine h.exchange {k.current} rfl hFree ?_ ?_ ?_ ?_ ?_ ?_ ?_
  · intro q hq
    have hq : q ≠ k.current := by simpa using hq
    refine ⟨?_, ?_, ?_, fun hUsedQ s hs => ?_⟩
    · simp [setSelf, setProc, hq]
    · simp [setSelf, setProc, hq]
    · simp [setSelf, setProc, hq]
    -- another page table lies in another frame
    · have hNe : (k.procs q).kernelFrame ≠ k.self.kernelFrame := h.stack_ne hUsedQ hUsed hq
      show (pool.setTable _ table).mem (k.procs q).kernelFrame _ = _
      rw [Pool.setTable_mem_of_ne hNe, hMem q hq hUsedQ]
      rfl
  -- what the table gains the free stack loses
  · intro frame hf
    have hTable : mappings ((pool.setTable k.self.kernelFrame table).entry k.self.kernelFrame)
        frame 0 pageTableSize = mappings table frame 0 pageTableSize :=
      mappings_congr fun s _ hs => Pool.entry_setTable hs
    have hOne := hCount frame hf
    have hFreeEq : (pool.setTable k.self.kernelFrame table).free = pool.free := rfl
    rw [Finset.sum_singleton, Finset.sum_singleton]
    simp only [Pool.places, setSelf, setProc, Function.update_self, hState, hUser, hFreeEq]
    simp only [self] at hTable hOne ⊢
    rw [hTable]
    simp only [reduceCtorEq, if_false]
    omega
  · intro p hp _
    rw [Finset.mem_singleton.mp hp]
    simpa [setSelf, setProc] using h.stack k.current hUsed
  -- the process runs: it is not being built and builds nothing
  · intro q _ child s hq
    simpa using h.not_building (by simp [hState]) hq
  · intro p hp child s hs
    rw [Finset.mem_singleton.mp hp] at hs
    simp [setSelf, setProc, hUser, Task.forking] at hs
  · intro p hp q hq _ _ _ _ _
    rw [Finset.mem_singleton.mp hp, Finset.mem_singleton.mp hq]
  · intro _
    simp [self, setSelf, setProc, hState]

/-- The increment of `sys_sbrk` is one its rollback can undo: if memory runs out at a segment,
    then the old segment was mapped or is that segment, and no segment between them was
    mapped. -/
def SbrkSafe (k : KernelState) (increment : Word) : Prop :=
  let table := k.pool.entry k.self.kernelFrame
  let old := segmentBelow k.self.top
  0 < increment.toInt → ∀ segment, segment ≤ segmentBelow (k.self.top + increment) →
    k.pool.RunsOutAt table old segment →
      (segment = old ∨ table old ≠ frameUnused) ∧
        ∀ s, old < s → s < segment → table s = frameUnused

theorem segmentBelow_lt (top : Word) : segmentBelow top < pageTableSize := by
  have hTop := (top - 1).isLt
  unfold segmentBelow pageTableSize
  split <;> omega

/-- A rollback that frees exactly what the loop has allocated. -/
theorem Owned.sbrk_rollback (h : Owned k) {table' : Nat → Frame} {pool' : Pool} {stop : Nat}
    (hRuns : k.pool.RunsOutAt (k.pool.entry k.self.kernelFrame) (segmentBelow k.self.top) stop)
    (hGrown : Pool.Grown (k.pool.entry k.self.kernelFrame) table' (segmentBelow k.self.top) stop
      k.pool pool')
    (hNone : pool'.kalloc.1 = frameUnused)
    (hOld : stop = segmentBelow k.self.top ∨
      k.pool.entry k.self.kernelFrame (segmentBelow k.self.top) ≠ frameUnused)
    (hBetween : ∀ s, segmentBelow k.self.top < s → s < stop →
      k.pool.entry k.self.kernelFrame s = frameUnused) :
    Owned { k with
      pool := (pool'.kalloc.2.freeDown table' (segmentBelow k.self.top) stop).2 } := by
  set table := k.pool.entry k.self.kernelFrame
  set old := segmentBelow k.self.top
  obtain ⟨hLe, hEntry, -⟩ := hRuns
  have hFreed := Pool.freeDown_freed pool'.kalloc.2 table' old stop
  -- the rollback frees the old segment as well, whose frame is the one it had
  have hFirst : table' old = table old := by
    rcases hOld with hEq | hMapped
    · exact hGrown.entry _ (.inr (.inl hEq.le))
    · exact hGrown.entry _ (.inr (.inr hMapped))
  have hEmpty : ∀ s, old < s → s ≤ stop → table s = frameUnused := by
    intro s hs hs'
    rcases Nat.lt_or_eq_of_le hs' with hLt | rfl
    · exact hBetween s hs hLt
    · exact hEntry
  apply h.repool
  · exact fun frame hf => (hGrown.rollback hLe hFirst hEmpty hNone hf).1
  · intro frame hMem
    rcases hFreed.free frame hMem with hFree | hHigh
    · exact .inl (hGrown.free (Pool.kalloc_free_subset hFree))
    · exact .inr hHigh
  · -- no kernel stack is on the free stack
    intro q hq s hs
    have hMem := (hGrown.rollback hLe hFirst hEmpty hNone (h.stack q hq)).2 (h.stack_not_free hq)
    show (Pool.freeDown _ _ _ _).2.mem _ _ = _
    rw [hMem]
    rfl

theorem Owned.sbrk (h : Owned k) (hRunning : k.running = true) (hTask : k.self.task = .user)
    {increment : Word} (hSafe : k.SbrkSafe increment) : Owned (k.sbrk increment) := by
  have hState : (k.procs k.current).state = .running := h.current hRunning
  have hOld := segmentBelow_lt k.self.top
  have hNew := segmentBelow_lt (k.self.top + increment)
  unfold KernelState.sbrk
  by_cases hGrow : 0 < increment.toInt
  · rw [if_pos hGrow]
    rcases Pool.growLoop_cases k.pool (k.pool.entry k.self.kernelFrame) (segmentBelow k.self.top)
        (segmentBelow k.self.top)
        (segmentBelow (k.self.top + increment) + 1 - segmentBelow k.self.top) with
      ⟨table', pool', hLoop, hGrown⟩ | ⟨stop, table', pool', hStop, hRuns, hGrown, hNone, hLoop⟩
    -- all frames were there: they move from the free stack to the table
    · simp only [hLoop]
      apply h.commit hRunning hTask
      · exact fun frame hMem => .inl (hGrown.free hMem)
      · exact fun frame hf => hGrown.count frame hf 0 pageTableSize (Nat.zero_le _) (by omega)
      · intro q _ _
        rw [hGrown.mem]
    · simp only [hLoop]
      -- memory has run out, and the increment is one that can be undone
      have hBound : stop ≤ segmentBelow (k.self.top + increment) := by
        have hLe := hRuns.1
        omega
      obtain ⟨hFirst, hBetween⟩ := hSafe hGrow stop hBound hRuns
      exact h.sbrk_rollback hRuns hGrown hNone hFirst hBetween
  · rw [if_neg hGrow]
    by_cases hShrink : increment.toInt < 0
    · rw [if_pos hShrink]
      set old := segmentBelow k.self.top
      set new := segmentBelow (k.self.top + increment)
      -- each frame below moves from the table to the free stack
      have hFreed := Pool.freeDown_freed k.pool (k.pool.entry k.self.kernelFrame) new old
      apply h.commit hRunning hTask
      · exact hFreed.free
      · exact fun frame hf => Pool.freeDown_balance _ _ hOld hf
      · intro q _ hq
        apply hFreed.mem _ (by simp)
        intro s _ hs
        exact h.entry_ne_stack (by simp [hState]) (by simp [hState]) hq (by omega)
    · rw [if_neg hShrink]
      apply h.commit hRunning hTask
      · exact fun frame hMem => .inl hMem
      · exact fun _ _ => rfl
      · exact fun _ _ _ => rfl

/-! ## §6 `sys_exit` and `sys_wait` -/

/-- A running process that has freed its pages becomes a zombie. -/
theorem Owned.becomeZombie (h : Owned k) (hRunning : k.running = true)
    (hTask : k.self.task = .user) (pool : Pool) (procs : Slot → ProcEntry)
    (hFreed : Pool.Freed (k.pool.entry k.self.kernelFrame) 0 pageTableSize
      (some k.self.kernelFrame) k.pool pool)
    (hProcs : ∀ q, (procs q).state = (k.procs q).state ∧
      (procs q).kernelFrame = (k.procs q).kernelFrame ∧ (procs q).task = (k.procs q).task) :
    Owned ({ k with pool := pool, procs := procs }.suspend .zombie) := by
  have hState : (k.procs k.current).state = .running := h.current hRunning
  have hUser : (k.procs k.current).task = .user := hTask
  have hUsed : (k.procs k.current).state ≠ .unused := by simp [hState]
  have hLive : (k.procs k.current).state ≠ .zombie := by simp [hState]
  simp only [self] at hFreed
  simp only [KernelState.suspend, setSelf, setProc]
  refine h.exchange {k.current} rfl hFreed.free ?_ ?_ ?_ ?_ ?_ ?_ ?_
  · intro q hq
    have hq : q ≠ k.current := by simpa using hq
    have hProc := hProcs q
    refine ⟨?_, ?_, ?_, fun hUsedQ s hs => ?_⟩
    · simp [hq, hProc]
    · simp [hq, hProc]
    · simp [hq, hProc]
    · have hStack := h.stack_ne hUsedQ hUsed hq
      have hMem := hFreed.mem (k.procs q).kernelFrame (by simpa using hStack)
        fun s _ hs => h.entry_ne_stack hUsed hLive hUsedQ hs
      exact congrFun hMem _
  -- the kernel stack stays with the zombie; its pages are on the free stack
  · intro frame hf
    rw [Finset.sum_singleton, Finset.sum_singleton, places_live hUsed hLive, hUser,
      hFreed.count frame hf]
    simp only [Pool.places, Function.update_self, hProcs, Task.held, reduceCtorEq, if_false, if_true]
    omega
  · intro p hp _
    rw [Finset.mem_singleton.mp hp]
    simpa [hProcs] using h.stack k.current hUsed
  · intro q _ child s hq
    simpa using h.not_building (by simp [hState]) hq
  · intro p hp child s hs
    rw [Finset.mem_singleton.mp hp] at hs
    simp [hProcs, hUser, Task.forking] at hs
  · intro p hp q hq _ _ _ _ _
    rw [Finset.mem_singleton.mp hp, Finset.mem_singleton.mp hq]
  · intro hFalse
    simp at hFalse

theorem Owned.exit (h : Owned k) (hRunning : k.running = true) (hTask : k.self.task = .user) :
    Owned k.exit := by
  have hState : k.self.state = .running := h.current hRunning
  -- the loop frees pages of the process, none of which is its kernel stack
  have hFreed := Pool.exitLoop_freed k.pool k.self.kernelFrame 0 pageTableSize fun s _ hs =>
    h.entry_ne_stack (by rw [← self, hState]; decide) (by rw [← self, hState]; decide)
      (by rw [← self, hState]; decide) (by omega)
  rw [Nat.zero_add] at hFreed
  apply h.becomeZombie hRunning hTask _ _ hFreed
  intro q
  split <;> exact ⟨rfl, rfl, rfl⟩

/-- `proc_free` of a process whose page table is empty or not its own any more. -/
theorem Owned.procFree (h : Owned k) {p : Slot} (hZombie : (k.procs p).state = .zombie)
    (hCurrent : k.running = true → p ≠ k.current) : Owned (k.procFree p) := by
  have hUsed : (k.procs p).state ≠ .unused := by simp [hZombie]
  refine h.exchange {p} rfl (fun frame => Pool.kfree_free) ?_ ?_ ?_ ?_ ?_ ?_ ?_
  · intro q hq
    have hq : q ≠ p := by simpa using hq
    have hProc : (k.procFree p).procs q = k.procs q := Function.update_of_ne hq _ _
    refine ⟨by rw [hProc], by rw [hProc], by rw [hProc], fun hUsedQ s _ => ?_⟩
    exact congrFun (Pool.kfree_mem_of_ne (h.stack_ne hUsedQ hUsed hq)) _
  -- a zombie owns its kernel stack and nothing else, and that goes to the free stack
  · intro frame hf
    rw [Finset.sum_singleton, Finset.sum_singleton]
    have hCount : (k.procFree p).pool.free.count frame = _ := Pool.kfree_count _ hf
    rw [hCount]
    simp [KernelState.procFree, setProc, Pool.places, hZombie]
  · intro q hq hUsedQ
    rw [Finset.mem_singleton.mp hq] at hUsedQ
    simp [KernelState.procFree, setProc] at hUsedQ
  · intro q _ child s hq
    simpa using h.not_building (by simp [hZombie]) hq
  · intro q hq child s hs
    rw [Finset.mem_singleton.mp hq] at hs
    have hNone := h.not_forking (p := p) (by simp [hZombie]) (by simp [hZombie])
    simp [KernelState.procFree, setProc, hNone] at hs
  · intro q hq r hr _ _ _ _ _
    rw [Finset.mem_singleton.mp hq, Finset.mem_singleton.mp hr]
  -- the running process is another one
  · intro hRunning
    have hNe := (hCurrent hRunning).symm
    have hSelf := h.current hRunning
    simpa [self, KernelState.procFree, setProc, Function.update_of_ne hNe] using hSelf

theorem Owned.waitTurn (h : Owned k) (hRunning : k.running = true) (hTask : k.self.task = .wait) :
    Owned k.waitTurn := by
  have hState : (k.procs k.current).state = .running := h.current hRunning
  unfold KernelState.waitTurn
  split
  · next p hFound =>
    have hChild := List.find?_some hFound
    simp only [decide_eq_true_eq] at hChild
    have hNe : p ≠ k.current := by
      rintro rfl
      simp [hState] at hChild
    have hSelf : (k.procFree p).self.task = .wait := by
      simpa [self, KernelState.procFree, setProc, Function.update_of_ne hNe.symm] using hTask
    -- the zombie gives its frame back, then the call goes on
    apply (h.procFree hChild.1 fun _ => hNe).retask hRunning
    · simp [hSelf, Task.held]
    · rfl
    · intro child s hs
      simp [Task.forking] at hs
  -- no zombie: the process sleeps
  · apply h.suspend hRunning
    · decide
    · simp [hTask, Task.forking]

/-! ## §7 `sys_fork` -/

/-- `proc_alloc` without memory: the slot stays `UNUSED`. -/
theorem Owned.forkNoMemory (h : Owned k) {child : Slot} (hUnused : (k.procs child).state = .unused)
    (hNone : k.pool.kalloc.1 = frameUnused) (hRunning : k.running = true) (frame : Frame) :
    Owned { k.setProc child fun e => { e with kernelFrame := frame } with
      pool := k.pool.kalloc.2 } := by
  have hState : (k.procs k.current).state = .running := h.current hRunning
  have hNe : k.current ≠ child := by
    rintro rfl
    simp [hState] at hUnused
  simp only [setProc]
  refine h.exchange {child} rfl (fun _ hMem => .inl (Pool.kalloc_free_subset hMem))
    ?_ ?_ ?_ ?_ ?_ ?_ ?_
  · intro q hq
    have hq : q ≠ child := by simpa using hq
    refine ⟨by simp [hq], by simp [hq], by simp [hq], fun _ s _ => ?_⟩
    rw [Pool.kalloc_entry]
  -- `kalloc` has found nothing, so it has taken nothing
  · intro f hf
    have hCount : k.pool.kalloc.2.free.count f + _ = _ := Pool.kalloc_count hf
    rw [hNone, if_neg hf.2.symm] at hCount
    rw [Finset.sum_singleton, Finset.sum_singleton]
    simp only [Pool.places, Function.update_self, hUnused, if_true]
    omega
  · intro p hp hUsed
    rw [Finset.mem_singleton.mp hp] at hUsed
    simp [hUnused] at hUsed
  · intro q _ c s hq
    simpa using h.not_building (by simp [hUnused]) hq
  · intro p hp c s hs
    rw [Finset.mem_singleton.mp hp] at hs
    have hNone := h.not_forking (p := child) (by simp [hUnused]) (by simp [hUnused])
    simp [hNone] at hs
  · intro p hp q hq _ _ _ _ _
    rw [Finset.mem_singleton.mp hp, Finset.mem_singleton.mp hq]
  · intro _
    simp [self, hNe, hState]

/-- The step to the state with a child that has a kernel stack and no pages. -/
theorem Owned.forkChild (h : Owned k) {child : Slot} (hUnused : (k.procs child).state = .unused)
    (hFrame : k.pool.kalloc.1 ≠ frameUnused) (hRunning : k.running = true)
    (hTask : k.self.task = .user) (table : Nat → Frame) {k' : KernelState}
    (hFree : k'.pool.free = k.pool.kalloc.2.free) (hCache : k'.cache = k.cache)
    (hMem : ∀ frame, frame ≠ k.pool.kalloc.1 → k'.pool.mem frame = k.pool.mem frame)
    (hEmpty : ∀ s, s < pageTableSize → k'.pool.entry k.pool.kalloc.1 s = frameUnused)
    (hChild : (k'.procs child).state = .building ∧
      (k'.procs child).kernelFrame = k.pool.kalloc.1 ∧ (k'.procs child).task = .user)
    (hSelf : (k'.procs k.current).state = .ready ∧
      (k'.procs k.current).kernelFrame = (k.procs k.current).kernelFrame ∧
      (k'.procs k.current).task = .fork child 0 table)
    (hOthers : ∀ q, q ≠ child → q ≠ k.current → k'.procs q = k.procs q)
    (hStop : k'.running = false) : Owned k' := by
  have hState : (k.procs k.current).state = .running := h.current hRunning
  have hUser : (k.procs k.current).task = .user := hTask
  have hFree₀ := Pool.kalloc_mem_free hFrame
  have hUsable : Usable k.pool.kalloc.1 := ⟨h.free _ hFree₀, hFrame⟩
  have hNe : child ≠ k.current := by
    rintro rfl
    simp [hState] at hUnused
  -- the new frame was free, so that it is nobody's kernel stack
  have hStackNe : ∀ q, (k.procs q).state ≠ .unused →
      (k.procs q).kernelFrame ≠ k.pool.kalloc.1 := by
    intro q hq hEq
    exact h.stack_not_free hq (hEq ▸ hFree₀)
  have hTable : ∀ q, (k.procs q).state ≠ .unused →
      k'.pool.entry (k.procs q).kernelFrame = k.pool.entry (k.procs q).kernelFrame := by
    intro q hq
    funext s
    exact congrFun (hMem _ (hStackNe q hq)) _
  refine h.exchange {child, k.current} hCache ?_ ?_ ?_ ?_ ?_ ?_ ?_ ?_
  · intro f hMemF
    rw [hFree] at hMemF
    exact .inl (Pool.kalloc_free_subset hMemF)
  · intro q hq
    simp only [Finset.mem_insert, Finset.mem_singleton, not_or] at hq
    have hProc := hOthers q hq.1 hq.2
    exact ⟨by rw [hProc], by rw [hProc], by rw [hProc], fun hUsed s _ => by rw [hTable q hUsed]⟩
  -- the new frame moves from the free stack to the child; its page table is empty
  · intro f hf
    have hCount : k.pool.kalloc.2.free.count f + _ = _ := Pool.kalloc_count hf
    have hNoPages : mappings (k'.pool.entry k.pool.kalloc.1) f 0 pageTableSize = 0 :=
      mappings_eq_zero fun s _ hs => by
        rw [hEmpty s hs]
        exact hf.2.symm
    rw [Finset.sum_pair hNe, Finset.sum_pair hNe, hFree]
    simp only [Pool.places, hChild, hSelf, hUnused, hState, hUser, hNoPages, Task.held,
      hTable k.current (by simp [hState]), reduceCtorEq, if_false, if_true]
    omega
  · intro p hp _
    rcases Finset.mem_insert.mp hp with rfl | hp
    · rw [hChild.2.1]
      exact hUsable
    · rw [Finset.mem_singleton.mp hp, hSelf.2.1]
      exact h.stack k.current (by simp [hState])
  -- nobody else builds the child, which was unused, or its parent, which runs
  · intro q _ c s hq
    have hNotChild : c ≠ child := h.not_building (by simp [hUnused]) hq
    have hNotSelf : c ≠ k.current := h.not_building (by simp [hState]) hq
    simp [hNotChild, hNotSelf]
  · intro p hp c s hs
    rcases Finset.mem_insert.mp hp with rfl | hp
    · rw [hChild.2.2] at hs
      simp [Task.forking] at hs
    · rw [Finset.mem_singleton.mp hp] at hs ⊢
      rw [hSelf.2.2] at hs
      obtain ⟨rfl, rfl⟩ : child = c ∧ 0 = s := by simpa [Task.forking] using hs
      refine ⟨Finset.mem_insert_self .., .inl hSelf.1, hChild.1, fun t _ ht => ?_⟩
      rw [hChild.2.1]
      exact hEmpty t ht
  · intro p hp q hq c s s' hps hqs
    have hOnly : ∀ r ∈ ({child, k.current} : Finset Slot), ∀ t,
        (k'.procs r).task.forking = some (c, t) → r = k.current := by
      intro r hr t hrt
      rcases Finset.mem_insert.mp hr with rfl | hr
      · rw [hChild.2.2] at hrt
        simp [Task.forking] at hrt
      · exact Finset.mem_singleton.mp hr
    rw [hOnly p hp s hps, hOnly q hq s' hqs]
  · intro hTrue
    simp [hStop] at hTrue

theorem Owned.forkInto (h : Owned k) (hRunning : k.running = true) (hTask : k.self.task = .user)
    {child : Slot} (hUnused : (k.procs child).state = .unused) : Owned (k.forkInto child) := by
  have hState : (k.procs k.current).state = .running := h.current hRunning
  have hNe : k.current ≠ child := by
    rintro rfl
    simp [hState] at hUnused
  unfold KernelState.forkInto
  by_cases hFrame : k.pool.kalloc.1 = frameUnused
  -- `proc_alloc` without a frame, and with one
  · simp only [hFrame, if_true]
    exact h.forkNoMemory hUnused hFrame hRunning frameUnused
  · simp only [hFrame, if_false]
    apply h.forkChild hUnused hFrame hRunning hTask
    · rfl
    · rfl
    · intro frame hf
      simp [KernelState.suspend, setSelf, setProc, Pool.setTable, Pool.copyFrame, hf]
    · intro s hs
      simp only [KernelState.suspend, setSelf, setProc]
      rw [Pool.entry_setTable hs]
    · simp [KernelState.suspend, setSelf, setProc, hNe.symm]
    · simp [KernelState.suspend, setSelf, setProc, hNe]
      rfl
    · intro q hq hq'
      simp [KernelState.suspend, setSelf, setProc, hq, hq']
    · rfl

theorem Owned.forkStart (h : Owned k) (hRunning : k.running = true)
    (hTask : k.self.task = .user) : Owned k.forkStart := by
  unfold KernelState.forkStart
  split
  · exact h
  · next child hFound =>
    have hUnused := List.find?_some hFound
    simp only [decide_eq_true_eq] at hUnused
    exact h.forkInto hRunning hTask hUnused

/-- A turn of the page loop: a frame moves between the free stack, the system call and the
    page table of the child. -/
theorem Owned.forkTurn (h : Owned k) (hRunning : k.running = true) {child : Slot}
    {segment : Nat} (hTask : k.self.task.forking = some (child, segment)) (segment' : Nat)
    {k' : KernelState} (hCache : k'.cache = k.cache) (hFree : k'.pool.free ⊆ k.pool.free)
    (hOthers : ∀ q, q ≠ k.current → k'.procs q = k.procs q)
    (hFrame : (k'.procs k.current).kernelFrame = (k.procs k.current).kernelFrame)
    (hState' : (k'.procs k.current).state = .ready ∨ (k'.procs k.current).state = .running)
    (hTask' : (k'.procs k.current).task.forking = some (child, segment'))
    (hTable : ∀ q, q ≠ child → (k.procs q).state ≠ .unused → ∀ s, s < pageTableSize →
      k'.pool.entry (k.procs q).kernelFrame s = k.pool.entry (k.procs q).kernelFrame s)
    (hEmpty : ∀ s, segment' ≤ s → s < pageTableSize →
      k'.pool.entry (k.procs child).kernelFrame s = frameUnused)
    (hCount : ∀ frame, Usable frame →
      k'.pool.free.count frame +
          mappings (k'.pool.entry (k.procs child).kernelFrame) frame 0 pageTableSize +
          (if (k'.procs k.current).task.held = some frame then 1 else 0) =
        k.pool.free.count frame +
          mappings (k.pool.entry (k.procs child).kernelFrame) frame 0 pageTableSize +
          if (k.procs k.current).task.held = some frame then 1 else 0)
    (hCurrent : k'.running = true → k'.self.state = .running) : Owned k' := by
  have hState : (k.procs k.current).state = .running := h.current hRunning
  have hBuilding := (h.forking k.current child segment hTask).2.1
  have hNe : child ≠ k.current := h.not_building (by simp [hState]) hTask
  have hChild := hOthers child hNe
  have hChildTask : (k.procs child).task.forking = none :=
    h.not_forking (by simp [hBuilding]) (by simp [hBuilding])
  refine h.exchange {child, k.current} hCache (fun f hf => .inl (hFree hf)) ?_ ?_ ?_ ?_ ?_ ?_
    hCurrent
  · intro q hq
    simp only [Finset.mem_insert, Finset.mem_singleton, not_or] at hq
    have hProc := hOthers q hq.2
    exact ⟨by rw [hProc], by rw [hProc], by rw [hProc], hTable q hq.1⟩
  -- the free stack, the child's table and the held page have the same frames between them
  · intro f hf
    have hOne := hCount f hf
    have hOwn : mappings (k'.pool.entry (k.procs k.current).kernelFrame) f 0 pageTableSize =
        mappings (k.pool.entry (k.procs k.current).kernelFrame) f 0 pageTableSize :=
      mappings_congr fun s _ hs => hTable k.current hNe.symm (by simp [hState]) s hs
    have hLive : (k'.procs k.current).state ≠ .unused ∧ (k'.procs k.current).state ≠ .zombie := by
      rcases hState' with hReady | hRun
      · simp [hReady]
      · simp [hRun]
    rw [Finset.sum_pair hNe, Finset.sum_pair hNe, hChild]
    simp only [Pool.places, hFrame, hBuilding, hState, hLive, hOwn, reduceCtorEq, if_false]
    omega
  · intro p hp _
    rcases Finset.mem_insert.mp hp with rfl | hp
    · rw [hChild]
      exact h.stack p (by simp [hBuilding])
    · rw [Finset.mem_singleton.mp hp, hFrame]
      exact h.stack k.current (by simp [hState])
  -- the child has one builder only
  · intro q hq c s hqs
    simp only [Finset.mem_insert, Finset.mem_singleton, not_or] at hq
    have hNotSelf : c ≠ k.current := h.not_building (by simp [hState]) hqs
    have hNotChild : c ≠ child := by
      rintro rfl
      exact hq.2 (h.distinct q k.current c s segment hqs hTask)
    simp [hNotChild, hNotSelf]
  · intro p hp c s hs
    rcases Finset.mem_insert.mp hp with rfl | hp
    · rw [hChild, hChildTask] at hs
      cases hs
    · rw [Finset.mem_singleton.mp hp] at hs ⊢
      rw [hTask'] at hs
      obtain ⟨rfl, rfl⟩ : child = c ∧ segment' = s := by simpa using hs
      rw [hChild]
      exact ⟨Finset.mem_insert_self .., hState', hBuilding, hEmpty⟩
  · intro p hp q hq c s s' hps hqs
    have hOnly : ∀ r ∈ ({child, k.current} : Finset Slot), ∀ t,
        (k'.procs r).task.forking = some (c, t) → r = k.current := by
      intro r hr t hrt
      rcases Finset.mem_insert.mp hr with rfl | hr
      · rw [hChild, hChildTask] at hrt
        cases hrt
      · exact Finset.mem_singleton.mp hr
    rw [hOnly p hp s hps, hOnly q hq s' hqs]

/-- The end of `sys_fork`. The model's order of the two changes does not matter, so that the
    parent lets go of the child before the child becomes `NEW`. -/
theorem Owned.publish (h : Owned k) (hRunning : k.running = true) {child : Slot} {segment : Nat}
    (hTask : k.self.task.forking = some (child, segment)) (hHeld : k.self.task.held = none) :
    Owned ((k.setProc child fun e => { e with state := .new }).setSelf fun e =>
      { e with task := .user }) := by
  have hState : (k.procs k.current).state = .running := h.current hRunning
  have hBuilding := (h.forking k.current child segment hTask).2.1
  have hNe : child ≠ k.current := h.not_building (by simp [hState]) hTask
  -- first the builder lets go of the child, then the child changes its state
  have hLetGo := h.retask hRunning .user hHeld rfl fun c s hs => by simp [Task.forking] at hs
  have hChildTask : (k.procs child).task.forking = none :=
    h.not_forking (by simp [hBuilding]) (by simp [hBuilding])
  refine hLetGo.relabel child rfl rfl ?_ ?_ ?_ ?_ ?_ ?_ ?_
  · intro q hq
    by_cases hSelf : q = k.current
    · subst hSelf
      simp [setSelf, setProc, hNe.symm]
    · simp [setSelf, setProc, hq, hSelf]
  · simp [setSelf, setProc, hNe]
  · intro frame
    simp [setSelf, setProc, hNe, Pool.places, hBuilding]
  · intro _
    simp [setSelf, setProc, hNe, hBuilding]
  · intro c s hs
    simp [setSelf, setProc, hNe, hChildTask] at hs
  · intro q s hq
    -- the only builder of the child has let go of it
    by_cases hSelf : q = k.current
    · subst hSelf
      simp [setSelf, setProc, Task.forking] at hq
    · have hOld : (k.procs q).task.forking = some (child, s) := by
        simpa [setSelf, setProc, hSelf] using hq
      exact absurd (h.distinct q k.current child s segment hOld hTask) hSelf
  · intro _
    simp [self, setSelf, setProc, hNe.symm, hState]

theorem Owned.forkPage (h : Owned k) (hRunning : k.running = true) {child : Slot} {segment : Nat}
    {table : Nat → Frame} (hTask : k.self.task = .fork child segment table)
    (hMemory : segment < pageTableSize → table segment ≠ frameUnused → 0 < k.pool.available) :
    Owned (k.forkPage child segment table) := by
  have hState : (k.procs k.current).state = .running := h.current hRunning
  have hForking : k.self.task.forking = some (child, segment) := by rw [hTask]; rfl
  have hHeld : k.self.task.held = none := by rw [hTask]; rfl
  obtain ⟨-, hBuilding, hEmpty⟩ := h.forking k.current child segment hForking
  unfold KernelState.forkPage
  by_cases hSegment : segment < pageTableSize
  · rw [dif_pos hSegment]
    by_cases hMapped : table segment = frameUnused
    · -- an unmapped segment is passed over
      rw [if_pos hMapped]
      apply h.retask hRunning
      · exact hHeld
      · rfl
      · intro c s hs
        obtain ⟨rfl, rfl⟩ : child = c ∧ segment + 1 = s := by simpa [Task.forking] using hs
        exact ⟨segment, by omega, hForking⟩
    · rw [if_neg hMapped]
      -- the step is none at which memory runs out
      have hFrame : k.pool.kalloc.1 ≠ frameUnused := by
        intro hNone
        have hZero := Pool.kalloc_eq_unused_iff.mp hNone
        have hPos := hMemory hSegment hMapped
        omega
      simp only [hFrame, if_false]
      refine h.forkTurn hRunning hForking segment rfl Pool.kalloc_free_subset ?_ ?_ ?_ ?_ ?_ ?_ ?_
        ?_
      · exact fun q hq => Function.update_of_ne hq _ _
      · simp [setSelf, setProc]
      · simp [setSelf, setProc, hState]
      · simp [setSelf, setProc, Task.forking]
      · intro q _ _ s _
        rw [Pool.kalloc_entry]
      · intro s hs hs'
        rw [Pool.kalloc_entry]
        exact hEmpty s hs hs'
      -- the frame is held by the call until it is stored
      · intro f hf
        have hCount : k.pool.kalloc.2.free.count f + _ = _ := Pool.kalloc_count hf
        have hOld : (k.procs k.current).task.held = none := hHeld
        simp only [setSelf, setProc, Function.update_self, hOld, Pool.kalloc_entry, reduceCtorEq,
          if_false]
        simp only [Task.held, Option.some.injEq]
        omega
      · intro _
        simp [self, setSelf, setProc, hState]
  · rw [dif_neg hSegment]
    exact h.publish hRunning hForking hHeld

/-- What the second half of a turn does to the page tables: it stores one entry of the child's. -/
theorem Owned.forkStore_entry (h : Owned k) (hRunning : k.running = true) {child : Slot}
    {segment : Fin pageTableSize} {table : Nat → Frame} {frame : Frame}
    (hTask : k.self.task = .forkHolding child segment table frame) :
    (∀ q, q ≠ child → (k.procs q).state ≠ .unused →
      (k.forkStore child segment table frame).pool.entry (k.procs q).kernelFrame =
        k.pool.entry (k.procs q).kernelFrame) ∧
    (k.forkStore child segment table frame).pool.entry (k.procs child).kernelFrame =
      Function.update (k.pool.entry (k.procs child).kernelFrame) segment frame := by
  have hState : (k.procs k.current).state = .running := h.current hRunning
  have hForking : k.self.task.forking = some (child, segment.val) := by rw [hTask]; rfl
  have hHeld : (k.procs k.current).task.held = some frame := by rw [← self, hTask]; rfl
  have hBuilding := (h.forking k.current child segment hForking).2.1
  have hUsedChild : (k.procs child).state ≠ .unused := by simp [hBuilding]
  -- the page that is copied to is nobody's kernel stack
  have hCopy : ∀ q, (k.procs q).state ≠ .unused →
      (k.forkStore child segment table frame).pool.entry (k.procs q).kernelFrame =
        (k.pool.setEntry (k.procs child).kernelFrame segment frame).entry
          (k.procs q).kernelFrame := by
    intro q hq
    have hNe := (h.held_ne_stack (by simp [hState]) (by simp [hState]) hq hHeld).symm
    funext s
    simp [KernelState.forkStore, KernelState.suspend, setSelf, setProc, Pool.copyFrame, Pool.entry,
      hNe]
  constructor
  · intro q hq hUsed
    rw [hCopy q hUsed]
    funext s
    exact congrFun (Pool.setEntry_mem_of_ne (h.stack_ne hUsed hUsedChild hq)) _
  · rw [hCopy child hUsedChild, Pool.entry_setEntry]

theorem Owned.forkStore (h : Owned k) (hRunning : k.running = true) {child : Slot}
    {segment : Fin pageTableSize} {table : Nat → Frame} {frame : Frame}
    (hTask : k.self.task = .forkHolding child segment table frame) :
    Owned (k.forkStore child segment table frame) := by
  have hForking : k.self.task.forking = some (child, segment.val) := by rw [hTask]; rfl
  have hHeld : (k.procs k.current).task.held = some frame := by rw [← self, hTask]; rfl
  obtain ⟨-, -, hEmpty⟩ := h.forking k.current child segment hForking
  obtain ⟨hOthers, hTable⟩ := h.forkStore_entry hRunning hTask
  refine h.forkTurn hRunning hForking (segment + 1) rfl (fun _ hMem => hMem) ?_ ?_ ?_ ?_ ?_ ?_ ?_
    ?_
  · intro q hq
    simp [KernelState.forkStore, KernelState.suspend, setSelf, setProc, hq]
  · simp [KernelState.forkStore, KernelState.suspend, setSelf, setProc]
  · simp [KernelState.forkStore, KernelState.suspend, setSelf, setProc]
  · simp [KernelState.forkStore, KernelState.suspend, setSelf, setProc, Task.forking]
  · intro q hq hUsed s _
    rw [hOthers q hq hUsed]
  · intro s hs hs'
    rw [hTable, Function.update_of_ne (by omega)]
    exact hEmpty s (by omega) hs'
  · intro f hf
    -- the held page becomes the entry of a segment that was empty
    have hUpdate : mappings (Function.update (k.pool.entry (k.procs child).kernelFrame) segment
        frame) f 0 pageTableSize + _ = _ :=
      mappings_update frame (Nat.zero_le segment.val) segment.isLt
    rw [hEmpty segment le_rfl segment.isLt, if_neg hf.2.symm] at hUpdate
    have hSelf : ((k.forkStore child segment table frame).procs k.current).task.held = none := by
      simp [KernelState.forkStore, KernelState.suspend, setSelf, setProc, Task.held]
    have hFree : (k.forkStore child segment table frame).pool.free = k.pool.free := rfl
    rw [hTable, hSelf, hHeld, hFree]
    simp only [reduceCtorEq, if_false, Option.some.injEq]
    omega
  · intro hTrue
    simp [KernelState.forkStore, KernelState.suspend] at hTrue

end Steps

end KernelState

end Xv6502.Kernel
