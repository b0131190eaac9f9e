import Xv6502.Kernel.FrameOwnership

/-!
# Runs of the System Calls That Move Frames

The step lemma of the ownership invariant, its run form, and a run of `sys_sbrk` and `sys_fork`
after which a frame is nowhere.
-/

namespace Xv6502.Kernel.KernelState

open Xv6502.Emulator
open Xv6502.Lib

/-! ## §1 The step lemma -/

/-- The step does not enter a rollback that goes wrong: the page loop of `sys_fork` finds a
    frame for every page, and `sys_sbrk` can undo what it has done when memory runs out. -/
def Safe (k : KernelState) : Occurrence → Prop
  | .act .proceed => ∀ child segment table, k.self.task = .fork child segment table →
      segment < pageTableSize → table segment ≠ frameUnused → 0 < k.pool.available
  | .act (.sbrk increment) => k.SbrkSafe increment
  | _ => True

theorem Owned.wake {k : KernelState} (h : Owned k) {p : Slot}
    (hAsleep : (k.procs p).state = .sleeping) :
    Owned (k.setProc p fun e => { e with state := .ready }) := by
  refine h.restate p .ready rfl rfl rfl ?_ (by decide) (fun _ => .inl rfl) ?_
  · simp [hAsleep]
  · intro hRunning
    have hState := h.current hRunning
    have hNe : k.current ≠ p := by
      rintro rfl
      simp [self, hAsleep] at hState
    simpa [self, setProc, hNe] using hState

theorem Owned.kill {k : KernelState} (h : Owned k) (p : Slot) : Owned (k.kill p) := by
  unfold KernelState.kill
  split
  · next hAsleep => exact h.wake hAsleep
  · exact h

theorem Owned.act {k k' : KernelState} (h : Owned k) (hRunning : k.running = true)
    {action : Action} (hStep : k.act action = some k') (hSafe : k.Safe (.act action)) :
    Owned k' := by
  have hState : k.self.state = .running := h.current hRunning
  -- a process whose task is known not to be `sys_fork`
  have hNoFork : ∀ {task : Task}, k.self.task = task → task.forking = none →
      (k.self.task.forking ≠ none → ∀ state : ProcState, state = .ready) := by
    intro task hTask hNone hSome
    rw [hTask] at hSome
    exact absurd hNone hSome
  unfold KernelState.act at hStep
  split at hStep
  · exact h.userStore hRunning hStep
  · exact h.userStore hRunning hStep
  · next hTask =>
    obtain rfl := Option.some.inj hStep
    exact h.suspend hRunning _ (by decide) fun hSome => hNoFork hTask rfl hSome _
  · next hTask =>
    obtain rfl := Option.some.inj hStep
    exact h.suspend hRunning _ (by decide) fun hSome => hNoFork hTask rfl hSome _
  · next hTask =>
    obtain rfl := Option.some.inj hStep
    exact h.forkStart hRunning hTask
  · next hTask =>
    obtain rfl := Option.some.inj hStep
    exact h.sbrk hRunning hTask hSafe
  · next hTask =>
    obtain ⟨-, hSome⟩ := Option.ite_none_left_eq_some.mp hStep
    obtain rfl := Option.some.inj hSome
    exact h.exit hRunning hTask
  · next hTask =>
    obtain rfl := Option.some.inj hStep
    exact h.retask hRunning .wait (by rw [hTask]; rfl) rfl (by simp [Task.forking])
  · next p _ =>
    obtain ⟨-, hSome⟩ := Option.ite_none_left_eq_some.mp hStep
    obtain rfl := Option.some.inj hSome
    exact h.kill p
  · next hTask =>
    obtain rfl := Option.some.inj hStep
    exact h.forkPage hRunning hTask fun hSegment hMapped => hSafe _ _ _ hTask hSegment hMapped
  · next hTask =>
    obtain rfl := Option.some.inj hStep
    exact h.forkStore hRunning hTask
  · next hTask =>
    obtain rfl := Option.some.inj hStep
    exact h.waitTurn hRunning hTask
  · next hTask =>
    obtain rfl := Option.some.inj hStep
    exact h.retask hRunning .user (by rw [hTask]; rfl) rfl (by simp [Task.forking])
  · cases hStep

/-- **Step lemma**: every safe step keeps the invariant. -/
theorem Owned.step {k k' : KernelState} {e : Occurrence} (h : Owned k) (hStep : k.Step e k')
    (hSafe : k.Safe e) : Owned k' := by
  -- each kind of event has its own lemma; what they share is the count of places
  unfold Step at hStep
  cases e with
  | dispatch p =>
    obtain ⟨⟨hIdle, hRunnable⟩, hSome⟩ := Option.ite_none_right_eq_some.mp hStep
    obtain rfl := Option.some.inj hSome
    have hState : (k.procs p).state = .ready ∨ (k.procs p).state = .new := by
      simpa [ProcState.runnable] using hRunnable
    refine h.restate p .running rfl rfl rfl ?_ (by decide) (fun _ => .inr rfl) ?_
    · rcases hState with hReady | hNew
      · simp [hReady]
      · simp [hNew]
    · intro _
      simp [self, setProc]
  | wakeup p =>
    obtain ⟨hAsleep, hSome⟩ := Option.ite_none_right_eq_some.mp hStep
    obtain rfl := Option.some.inj hSome
    exact h.wake hAsleep
  | kernelStore p offset byte =>
    obtain ⟨⟨hUsed, hOffset⟩, hSome⟩ := Option.ite_none_right_eq_some.mp hStep
    obtain rfl := Option.some.inj hSome
    exact h.kernelStore p offset byte hUsed hOffset
  | act action =>
    obtain ⟨hRunning, hAct⟩ := Option.ite_none_right_eq_some.mp hStep
    exact h.act hRunning hAct hSafe

/-! ## §2 Runs from boot -/

theorem boot_free (mem : Frame → Nat → Byte) (top : Word) :
    (boot mem top).pool.free = (List.range 221).map fun i => BitVec.ofNat 8 (35 + i) := by
  rfl

theorem boot_cache (mem : Frame → Nat → Byte) (top : Word) :
    (boot mem top).cache = (List.range 17).map fun i => BitVec.ofNat 8 (16 + i) := by
  rfl

/-- A stretch of frames has each frame once. -/
theorem count_frames (frame : Frame) {first n : Nat} (h : first + n ≤ 256) :
    ((List.range n).map fun i => BitVec.ofNat 8 (first + i)).count frame =
      if first ≤ frame.toNat ∧ frame.toNat < first + n then 1 else 0 := by
  induction n with
  | zero =>
    rw [if_neg (by omega)]
    rfl
  | succ n ih =>
    have hLast : (BitVec.ofNat 8 (first + n) = frame) ↔ frame.toNat = first + n := by
      rw [← BitVec.toNat_inj, BitVec.toNat_ofNat, Nat.mod_eq_of_lt (by omega), eq_comm]
    rw [List.range_succ, List.map_append, List.count_append, ih (by omega)]
    by_cases hEq : frame.toNat = first + n
    · rw [if_neg (by omega), if_pos (by omega)]
      simp [hLast.mpr hEq]
    · simp only [List.map_cons, List.map_nil, List.count_singleton, beq_iff_eq, hLast, hEq, if_false,
        Nat.add_zero]
      congr 1
      simp only [eq_iff_iff]
      omega

theorem boot_entry (mem : Frame → Nat → Byte) (top : Word) {s : Nat} (hs : s < pageTableSize) :
    (boot mem top).pool.entry 33 s = if s = 0 then 34 else frameUnused := by
  have hTable : ∀ pool : Pool, (Pool.setEntry (pool.setTable 33 fun _ => frameUnused) 33 0 34).entry
      33 s = if s = 0 then 34 else frameUnused := by
    intro pool
    rw [Pool.entry_setEntry]
    by_cases h0 : s = 0
    · simp [h0]
    · rw [Function.update_of_ne h0, Pool.entry_setTable hs, if_neg h0]
  exact hTable _

theorem boot_init (mem : Frame → Nat → Byte) (top : Word) :
    (boot mem top).procs initSlot = ⟨.new, 33, initSlot, top, .user⟩ := by
  rfl

theorem boot_procs (mem : Frame → Nat → Byte) (top : Word) {p : Slot} (hp : p ≠ initSlot) :
    (boot mem top).procs p = ⟨.unused, 0, initSlot, 0, .user⟩ := by
  simp [boot, hp]

/-- At boot the frames 16..32 are the caches', 33 and 34 those of "init", and the others are
    free. -/
theorem boot_owned (mem : Frame → Nat → Byte) (top : Word) : Owned (boot mem top) := by
  constructor
  -- the list holds all usable frames but the two of "init"
  · intro frame hf
    -- the places of a frame are places of "init"
    have hOnly : ∑ p, (boot mem top).pool.places ((boot mem top).procs p) frame =
        (boot mem top).pool.places ((boot mem top).procs initSlot) frame := by
      apply Finset.sum_eq_single
      · intro p _ hp
        simp [boot_procs mem top hp, Pool.places]
      · simp
    have hPages : mappings ((boot mem top).pool.entry 33) frame 0 pageTableSize =
        if frame = 34 then 1 else 0 := by
      rw [mappings_congr fun s _ hs => boot_entry mem top hs, mappings_first (by decide),
        mappings_eq_zero fun s hs _ => by
          rw [if_neg (by omega)]
          exact hf.2.symm]
      simp [eq_comm]
    have hLow : 16 ≤ frame.toNat := hf.1
    have hStack : frame = 33 ↔ frame.toNat = 33 := by rw [← BitVec.toNat_inj]; rfl
    have hPage : frame = 34 ↔ frame.toNat = 34 := by rw [← BitVec.toNat_inj]; rfl
    unfold occurrences
    rw [hOnly, boot_free, boot_cache, boot_init, count_frames frame (by decide),
      count_frames frame (by decide)]
    simp only [Pool.places, Task.held, hPages, reduceCtorEq, if_false, eq_comm (a := (33 : Frame)),
      hStack, hPage]
    have hByte := frame.isLt
    split_ifs <;> omega
  · rw [boot_free]
    intro frame hMem
    obtain ⟨i, hi, rfl⟩ := List.mem_map.mp hMem
    have hi := List.mem_range.mp hi
    simp only [BitVec.toNat_ofNat, pageTableSize]
    omega
  · intro p hp
    by_cases hInit : p = initSlot
    · have hStack : Usable (33 : Frame) := by
        unfold Usable
        decide
      rw [hInit, boot_init]
      exact hStack
    · simp [boot_procs mem top hInit] at hp
  · intro p child s hTask
    by_cases hInit : p = initSlot
    · rw [hInit, boot_init] at hTask
      simp [Task.forking] at hTask
    · rw [boot_procs mem top hInit] at hTask
      simp [Task.forking] at hTask
  · intro p q child s s' hTask
    by_cases hInit : p = initSlot
    · rw [hInit, boot_init] at hTask
      simp [Task.forking] at hTask
    · rw [boot_procs mem top hInit] at hTask
      simp [Task.forking] at hTask
  · intro hRunning
    simp [boot] at hRunning

/-- "init" is dispatched for the first time. -/
def firstDispatch : KernelState :=
  { (boot (fun _ _ => 0) 0x0400).setProc initSlot fun e => { e with state := .running } with
    current := initSlot, running := true }

theorem firstDispatch_step :
    (boot (fun _ _ => 0) 0x0400).Step (.dispatch initSlot) firstDispatch := by
  simp [Step, perform, boot_init, ProcState.runnable, firstDispatch]
  rfl

/-- There is memory for the four pages of "init". -/
theorem firstDispatch_safe : firstDispatch.Safe (.act (.sbrk 0x3000)) := by
  have hAvailable : firstDispatch.pool.available = 220 := by decide +kernel
  have hFew : ∀ segment, segment ≤ 3 →
      mappings (firstDispatch.pool.entry firstDispatch.self.kernelFrame) frameUnused
        (segmentBelow firstDispatch.self.top) segment ≠ 220 := by
    decide +kernel
  intro _ segment hLe hRuns
  rw [Pool.RunsOutAt, hAvailable] at hRuns
  exact absurd hRuns.2.2 (hFew segment hLe)

theorem firstDispatch_sbrk :
    firstDispatch.Step (.act (.sbrk 0x3000)) (firstDispatch.sbrk 0x3000) := by
  simp [Step, perform, KernelState.act, self, setProc, firstDispatch, boot_init]

/-- One event, if it is plain that it is safe: no growth, and the page loop only with free memory. -/
def performRoomy (k : KernelState) (e : Occurrence) : Option KernelState :=
  match e with
  | .act (.sbrk _) => none
  | .act .proceed => if 0 < k.pool.available then k.perform e else none
  | e => k.perform e

theorem guarded_of_performRoomy {k k' : KernelState} {e : Occurrence}
    (h : k.performRoomy e = some k') : Guarded Step Safe k e k' := by
  cases e with
  | act action =>
    cases action with
    | sbrk increment => cases h
    | proceed =>
      obtain ⟨hRoom, hPerform⟩ := Option.ite_none_right_eq_some.mp h
      exact ⟨hPerform, fun _ _ _ _ _ _ => hRoom⟩
    | _ => exact ⟨h, trivial⟩
  | _ => exact ⟨h, trivial⟩

/-- "init" grows to four pages, and then there is always memory. -/
theorem roomy_run {es : List Occurrence} {k : KernelState}
    (h : performAll performRoomy (firstDispatch.sbrk 0x3000) es = some k) :
    Run (Guarded Step Safe) (boot (fun _ _ => 0) 0x0400)
      (.dispatch initSlot :: .act (.sbrk 0x3000) :: es) k := by
  refine .cons ⟨firstDispatch_step, trivial⟩ (.cons ⟨firstDispatch_sbrk, firstDispatch_safe⟩ ?_)
  exact (run_of_performAll h).mono fun _ _ _ hPerform => guarded_of_performRoomy hPerform

/-- "init" forks and yields at each of its four pages, and the child is dispatched. -/
def childRuns : List Occurrence :=
  [.act .fork, .dispatch initSlot] ++
    (List.replicate 4 [.act .proceed, .act .proceed, .dispatch initSlot]).flatten ++
    List.replicate 13 (.act .proceed) ++ [.act .yield, .dispatch 1]

/-- The child stores a byte and exits, and "init" reaps it. -/
def childReaped : List Occurrence :=
  childRuns ++ [.act (.store 0x1000 0x41), .act .exit, .dispatch initSlot, .act .wait, .act .proceed]

/-- **Ownership**: in every state that safe steps reach from boot, each of the frames 16..254 is
    in exactly one place. What a step takes out of one place it puts into another: the count of
    the places of a frame is the invariant, and a frame held in a local of `sys_fork` has its
    place there. -/
theorem frames_partitioned {mem : Frame → Nat → Byte} {top : Word} {es : List Occurrence}
    {k : KernelState} (h : Run (Guarded Step Safe) (boot mem top) es k) : k.Partitioned := by
  have hOwned : Owned k := by
    apply h.invariant _ (boot_owned mem top)
    intro s e t hs hStep
    exact hs.step hStep.1 hStep.2
  exact hOwned.partition

/-- "init" grows, forks a child and reaps it. -/
theorem boot_fork_partitioned :
    ∃ k, Run (Guarded Step Safe) (boot (fun _ _ => 0) 0x0400)
        (.dispatch initSlot :: .act (.sbrk 0x3000) :: childReaped) k ∧
      (k.procs 1).state = .unused ∧ k.pool.available = 217 ∧ k.Partitioned := by
  have hRuns : (performAll performRoomy (firstDispatch.sbrk 0x3000) childReaped).any
      (fun k => decide ((k.procs 1).state = .unused) && k.pool.available == 217) = true := by
    decide +kernel
  obtain ⟨k, hPerform, hLast⟩ := (Option.any_eq_true _ _).mp hRuns
  obtain ⟨hUnused, hAvailable⟩ := Bool.and_eq_true_iff.mp hLast
  have hRun := roomy_run hPerform
  exact ⟨k, hRun, of_decide_eq_true hUnused, eq_of_beq hAvailable, frames_partitioned hRun⟩

/-! ## §3 A run that loses a frame

"init" grows to four pages, as its code does, and forks until memory runs out. Every child
runs once and sleeps, so that the scheduler comes back to "init" at every `yield()`. The 44th
`sys_fork` gets a kernel stack and a frame for segment 0, and none for segment 1. -/

/-- "init" has four pages, the slots behind `n` are unused and `frames` frames are free. -/
structure Serving (n frames : Nat) (k : KernelState) : Prop where
  reached : ∃ es, Run Step (boot (fun _ _ => 0) 0x0400) es k
  owned : Owned k
  slots : ∀ p : Slot, n < p.val → (k.procs p).state = .unused
  table : ∀ s, s < pageTableSize →
    (k.pool.entry (k.procs initSlot).kernelFrame s = frameUnused ↔ 4 ≤ s)
  available : k.pool.available = frames

section Serving

variable {n frames : Nat} {k : KernelState} {child : Slot} {segment : Nat} {table : Nat → Frame}

theorem reached_step {k' : KernelState} {e : Occurrence}
    (h : ∃ es, Run Step (boot (fun _ _ => 0) 0x0400) es k) (hStep : k.Step e k') :
    ∃ es, Run Step (boot (fun _ _ => 0) 0x0400) es k' := by
  obtain ⟨es, hRun⟩ := h
  exact ⟨es ++ [e], hRun.append (.cons hStep (.nil _))⟩

/-- `proc_alloc` takes the first unused slot. -/
theorem firstUnused_le {p : Slot} (hp : (k.procs p).state = .unused) :
    ∃ c, k.firstUnused = some c ∧ (k.procs c).state = .unused ∧ c ≤ p := by
  unfold firstUnused
  cases hFound : (List.finRange 512).find? fun p => decide ((k.procs p).state = .unused) with
  | none =>
    have hNone := List.find?_eq_none.mp hFound p (List.mem_finRange p)
    simp [hp] at hNone
  | some c =>
    obtain ⟨hc, i, hi, hGet, hBefore⟩ := List.find?_eq_some_iff_getElem.mp hFound
    refine ⟨c, rfl, by simpa using hc, ?_⟩
    by_contra hLt
    rw [← hGet, List.getElem_finRange, Fin.le_def] at hLt
    have hp' := hBefore p.val (Nat.lt_of_not_le hLt)
    simp only [List.getElem_finRange, Fin.cast_mk, Fin.eta, hp, decide_true, Bool.not_true,
      Bool.false_eq_true] at hp'

/-- A step that moves no frame. -/
theorem Serving.control {k' : KernelState} {e : Occurrence} (h : Serving n frames k)
    (hStep : k.Step e k') (hSafe : k.Safe e) (hPool : k'.pool = k.pool)
    (hInit : (k'.procs initSlot).kernelFrame = (k.procs initSlot).kernelFrame)
    (hProcs : ∀ p : Slot, n < p.val → k'.procs p = k.procs p) : Serving n frames k' where
  reached := reached_step h.reached hStep
  owned := h.owned.step hStep hSafe
  slots p hp := by
    rw [hProcs p hp]
    exact h.slots p hp
  table := by
    rw [hPool, hInit]
    exact h.table
  available := by
    rw [hPool]
    exact h.available

/-- A process that exists is not behind the used slots. -/
theorem Serving.ne_of_lt (h : Serving n frames k) {p q : Slot} (hp : (k.procs p).state ≠ .unused)
    (hq : n < q.val) : q ≠ p := by
  rintro rfl
  exact hp (h.slots q hq)

theorem Serving.dispatch (h : Serving n frames k) {p : Slot} (hIdle : k.running = false)
    (hRunnable : (k.procs p).state = .ready ∨ (k.procs p).state = .new) :
    ∃ k', Serving n frames k' ∧ k'.running = true ∧ k'.current = p ∧ k'.pool = k.pool ∧
      (k'.procs p).task = (k.procs p).task ∧ (∀ q, q ≠ p → k'.procs q = k.procs q) ∧
      ∀ q, (k'.procs q).kernelFrame = (k.procs q).kernelFrame := by
  have hState : (k.procs p).state.runnable = true := by simpa [ProcState.runnable] using hRunnable
  have hUsed : (k.procs p).state ≠ .unused := by
    rcases hRunnable with hReady | hNew
    · simp [hReady]
    · simp [hNew]
  -- the dispatch changes the state of `p` and no kernel frame
  have hFrame : ∀ q, ((k.setProc p fun e => { e with state := .running }).procs q).kernelFrame =
      (k.procs q).kernelFrame := by
    intro q
    by_cases hq : q = p
    · subst hq
      simp [setProc]
    · simp [setProc, hq]
  have hStep : k.Step (.dispatch p)
      { k.setProc p fun e => { e with state := .running } with current := p, running := true } := by
    simp only [Step, perform, hIdle, hState, and_self, if_true]
  refine ⟨_, h.control hStep trivial rfl (hFrame initSlot) ?_, rfl, rfl, rfl, ?_, ?_, hFrame⟩
  · exact fun q hq => Function.update_of_ne (h.ne_of_lt hUsed hq) _ _
  · simp [setProc]
  · exact fun q hq => Function.update_of_ne hq _ _

/-- The running process, in user mode, calls `yield()` or `sleep()`. -/
theorem Serving.suspend (h : Serving n frames k) (hRunning : k.running = true)
    (hTask : k.self.task = .user) {state : ProcState}
    (hState : state = .ready ∨ state = .sleeping) : Serving n frames (k.suspend state) := by
  have hUsed : (k.procs k.current).state ≠ .unused := by
    have hRun := h.owned.current hRunning
    simp only [self] at hRun
    simp [hRun]
  have hStep : k.Step (.act (if state = .ready then .yield else .sleep)) (k.suspend state) := by
    rcases hState with rfl | rfl <;> simp [Step, perform, hRunning, KernelState.act, hTask]
  refine h.control hStep ?_ rfl ?_ ?_
  · rcases hState with rfl | rfl <;> exact trivial
  · by_cases hInit : initSlot = k.current
    · simp [KernelState.suspend, setSelf, setProc, hInit]
    · simp [KernelState.suspend, setSelf, setProc, hInit]
  · exact fun q hq => Function.update_of_ne (h.ne_of_lt hUsed hq) _ _

/-- "init" runs in user mode. -/
structure InUser (n frames : Nat) (k : KernelState) : Prop where
  serving : Serving n frames k
  running : k.running = true
  current : k.current = initSlot
  task : k.self.task = .user

/-- "init" runs in the page loop of `sys_fork`. -/
structure Cloning (n frames : Nat) (child : Slot) (segment : Nat) (table : Nat → Frame)
    (k : KernelState) : Prop where
  serving : Serving n frames k
  running : k.running = true
  current : k.current = initSlot
  task : k.self.task = .fork child segment table
  pattern : ∀ s, s < pageTableSize → (table s = frameUnused ↔ 4 ≤ s)
  idle : (k.procs child).task = .user

theorem Cloning.step (h : Cloning n frames child segment table k) :
    k.Step (.act .proceed) (k.forkPage child segment table) := by
  simp only [Step, perform, h.running, if_true, KernelState.act, h.task]

theorem Cloning.safe (h : Cloning n frames child segment table k)
    (hPage : segment < 4 → 0 < frames) : k.Safe (.act .proceed) := by
  intro c s t hEq hSegment hMapped
  rw [h.task] at hEq
  cases hEq
  rw [h.serving.available]
  apply hPage
  by_contra hLe
  exact hMapped ((h.pattern segment hSegment).mpr (by omega))

/-- The child is a process of its own. -/
theorem Cloning.building (h : Cloning n frames child segment table k) :
    (k.procs child).state = .building ∧ child ≠ initSlot ∧
      ∀ s, segment ≤ s → s < pageTableSize →
        k.pool.entry (k.procs child).kernelFrame s = frameUnused := by
  have hForking : k.self.task.forking = some (child, segment) := by rw [h.task]; rfl
  obtain ⟨-, hBuilding, hEmpty⟩ := h.serving.owned.forking k.current child segment hForking
  have hState := h.serving.owned.current h.running
  refine ⟨hBuilding, ?_, hEmpty⟩
  rintro rfl
  rw [self, h.current, hBuilding] at hState
  cases hState

/-- A segment without a page. -/
theorem Cloning.skip (h : Cloning n frames child segment table k) (hLow : 4 ≤ segment)
    (hSegment : segment < pageTableSize) :
    ∃ k', Cloning n frames child (segment + 1) table k' := by
  have hEq : k.forkPage child segment table =
      k.setSelf fun e => { e with task := .fork child (segment + 1) table } := by
    rw [KernelState.forkPage, dif_pos hSegment, if_pos ((h.pattern segment hSegment).mpr hLow)]
  have hStep := h.step
  have hState := h.serving.owned.current h.running
  rw [hEq] at hStep
  refine ⟨_, ⟨h.serving.control hStep (h.safe (by omega)) rfl ?_ ?_, h.running, h.current, ?_,
    h.pattern, ?_⟩⟩
  · simp [setSelf, setProc, h.current]
  · refine fun q hq => Function.update_of_ne (h.serving.ne_of_lt ?_ hq) _ _
    rw [← self, hState]
    decide
  · simp [self, setSelf, setProc]
  · simpa [setSelf, setProc, h.current, h.building.2.1] using h.idle

theorem Cloning.skips (h : Cloning n frames child segment table k) (hLow : 4 ≤ segment)
    (hSegment : segment ≤ pageTableSize) :
    ∃ k', Cloning n frames child pageTableSize table k' := by
  induction hSegment using Nat.decreasingInduction generalizing k with
  | self => exact ⟨k, h⟩
  | of_succ s hs ih =>
    obtain ⟨k', hNext⟩ := h.skip hLow hs
    exact ih hNext (by omega)

/-- The child is published, runs and sleeps. -/
theorem Cloning.finish (h : Cloning n frames child pageTableSize table k) :
    ∃ k', InUser n frames k' := by
  obtain ⟨hBuilding, hNe, -⟩ := h.building
  have hState := h.serving.owned.current h.running
  have hEq : k.forkPage child pageTableSize table =
      (k.setProc child fun e => { e with state := .new }).setSelf fun e =>
        { e with task := .user } := by
    rw [KernelState.forkPage, dif_neg (by omega)]
  have hStep := h.step
  rw [hEq] at hStep
  have hSelf : (k.procs initSlot).state = .running := by rw [← hState, self, h.current]
  set k₁ := (k.setProc child fun e => { e with state := .new }).setSelf fun e =>
    { e with task := .user } with hk₁
  have hInit : k₁.procs initSlot = { k.procs initSlot with task := .user } := by
    simp [hk₁, setSelf, setProc, h.current, hNe.symm]
  have hChild : k₁.procs child = { k.procs child with state := .new } := by
    simp [hk₁, setSelf, setProc, h.current, hNe]
  have hServing : Serving n frames k₁ := by
    refine h.serving.control hStep (h.safe (by simp [pageTableSize])) rfl (by rw [hInit]) ?_
    intro q hq
    have hNotChild : q ≠ child := h.serving.ne_of_lt (by simp [hBuilding]) hq
    have hNotInit : q ≠ initSlot := h.serving.ne_of_lt (by simp [hSelf]) hq
    simp [hk₁, setSelf, setProc, h.current, hNotChild, hNotInit]
  have hRunning : k₁.running = true := h.running
  have hCurrent : k₁.current = initSlot := h.current
  -- "init" yields, the child is the next to run, and it sleeps
  have hYield := hServing.suspend hRunning (by rw [self, hCurrent, hInit]) (.inl rfl)
  have hYieldProcs : (k₁.suspend .ready).procs child = k₁.procs child ∧
      (k₁.suspend .ready).procs initSlot = { k₁.procs initSlot with state := .ready } := by
    simp [KernelState.suspend, setSelf, setProc, hCurrent, hNe]
  obtain ⟨k₂, hServing₂, hRunning₂, hCurrent₂, -, hTask₂, hProcs₂, -⟩ :=
    hYield.dispatch (p := child) rfl (.inr (by rw [hYieldProcs.1, hChild]))
  rw [hYieldProcs.1, hChild] at hTask₂
  have hSleep := hServing₂.suspend hRunning₂ (by rw [self, hCurrent₂, hTask₂]; exact h.idle)
    (.inr rfl)
  have hSleepInit : (k₂.suspend .sleeping).procs initSlot =
      { k₁.procs initSlot with state := .ready } := by
    rw [← hYieldProcs.2, ← hProcs₂ initSlot hNe.symm]
    simp [KernelState.suspend, setSelf, setProc, hCurrent₂, hNe.symm]
  obtain ⟨k₃, hServing₃, hRunning₃, hCurrent₃, -, hTask₃, -, -⟩ :=
    hSleep.dispatch (p := initSlot) rfl (.inl (by rw [hSleepInit]))
  rw [hSleepInit, hInit] at hTask₃
  exact ⟨k₃, hServing₃, hRunning₃, hCurrent₃, by rw [self, hCurrent₃, hTask₃]⟩

/-- `sys_fork` up to its first `yield()`, and back. -/
theorem InUser.fork (h : InUser n (frames + 1) k) (hSlots : n + 1 < 512) :
    ∃ k' child table, Cloning (n + 1) frames child 0 table k' := by
  have hState := h.serving.owned.current h.running
  have hSelf : (k.procs initSlot).state = .running := by rw [← hState, self, h.current]
  obtain ⟨child, hFound, hUnused, hLe⟩ :=
    firstUnused_le (h.serving.slots ⟨n + 1, hSlots⟩ (Nat.lt_succ_self n))
  have hNe : child ≠ initSlot := by
    rintro rfl
    simp [hSelf] at hUnused
  have hFrame : k.pool.kalloc.1 ≠ frameUnused := by
    intro hNone
    have hZero := Pool.kalloc_eq_unused_iff.mp hNone
    rw [h.serving.available] at hZero
    cases hZero
  -- the new kernel stack was free, so that it is not the one of "init"
  have hStack : (k.procs initSlot).kernelFrame ≠ k.pool.kalloc.1 := by
    intro hEq
    apply h.serving.owned.stack_not_free (p := initSlot) (by simp [hSelf])
    rw [hEq]
    exact Pool.kalloc_mem_free hFrame
  have hStart : k.forkStart = k.forkInto child := by
    unfold KernelState.forkStart
    rw [hFound]
  have hStep : k.Step (.act .fork) (k.forkInto child) := by
    simp only [Step, perform, h.running, if_true, KernelState.act, h.task, hStart]
  have hInit : (k.forkInto child).procs initSlot =
      { k.procs initSlot with
        state := .ready, task := .fork child 0 (k.pool.entry (k.procs initSlot).kernelFrame) } := by
    simp only [KernelState.forkInto, hFrame, if_false]
    simp [KernelState.suspend, setSelf, setProc, self, h.current, hNe.symm]
  have hChild : ((k.forkInto child).procs child).task = .user := by
    simp only [KernelState.forkInto, hFrame, if_false]
    simp [KernelState.suspend, setSelf, setProc, h.current, hNe]
  have hPool : (k.forkInto child).pool.available = k.pool.kalloc.2.available ∧
      (k.forkInto child).running = false ∧
      (k.forkInto child).pool.entry (k.procs initSlot).kernelFrame =
        k.pool.entry (k.procs initSlot).kernelFrame := by
    simp only [KernelState.forkInto, hFrame, if_false]
    refine ⟨rfl, rfl, ?_⟩
    funext s
    simp [KernelState.suspend, setSelf, setProc, Pool.entry, Pool.setTable, Pool.copyFrame, hStack]
  have hOthers : ∀ q, q ≠ child → q ≠ initSlot → (k.forkInto child).procs q = k.procs q := by
    intro q hq hq'
    simp only [KernelState.forkInto, hFrame, if_false]
    simp [KernelState.suspend, setSelf, setProc, h.current, hq, hq']
  have hServing : Serving (n + 1) frames (k.forkInto child) := by
    refine ⟨reached_step h.serving.reached hStep, h.serving.owned.step hStep trivial, ?_, ?_, ?_⟩
    · intro q hq
      have hNotChild : q ≠ child := by
        rintro rfl
        exact absurd (Fin.le_def.mp hLe) (by simpa using hq)
      have hNotInit : q ≠ initSlot := by
        rintro rfl
        simp [initSlot] at hq
      rw [hOthers q hNotChild hNotInit]
      exact h.serving.slots q (by omega)
    · rw [hInit, hPool.2.2]
      exact h.serving.table
    · have hAvailable := Pool.kalloc_available hFrame
      rw [h.serving.available] at hAvailable
      rw [hPool.1]
      omega
  obtain ⟨k', hServing', hRunning', hCurrent', -, hTask', hProcs', -⟩ :=
    hServing.dispatch (p := initSlot) hPool.2.1 (.inl (by rw [hInit]))
  refine ⟨k', child, k.pool.entry (k.procs initSlot).kernelFrame, hServing', hRunning', hCurrent',
    ?_, h.serving.table, ?_⟩
  · rw [self, hCurrent', hTask', hInit]
  · rw [hProcs' child hNe, hChild]

/-- A segment with a page: it gets a frame and is copied, and "init" yields. -/
theorem Cloning.turn (h : Cloning n (frames + 1) child segment table k) (hLow : segment < 4) :
    ∃ k', Cloning n frames child (segment + 1) table k' ∧
      Usable (k'.pool.entry (k'.procs child).kernelFrame segment) := by
  obtain ⟨hBuilding, hNe, -⟩ := h.building
  have hSegment : segment < pageTableSize := by
    unfold pageTableSize
    omega
  have hState := h.serving.owned.current h.running
  have hSelf : (k.procs initSlot).state = .running := by rw [← hState, self, h.current]
  have hMapped : table segment ≠ frameUnused := by
    rw [Ne, h.pattern segment hSegment]
    omega
  have hFrame : k.pool.kalloc.1 ≠ frameUnused := by
    intro hNone
    have hZero := Pool.kalloc_eq_unused_iff.mp hNone
    rw [h.serving.available] at hZero
    cases hZero
  have hFree := Pool.kalloc_mem_free hFrame
  have hUsable : Usable k.pool.kalloc.1 := ⟨h.serving.owned.free _ hFree, hFrame⟩
  -- `kalloc`
  set k₁ : KernelState :=
    { k.setSelf fun e =>
        { e with task := .forkHolding child ⟨segment, hSegment⟩ table k.pool.kalloc.1 } with
      pool := k.pool.kalloc.2 } with hk₁
  have hEq : k.forkPage child segment table = k₁ := by
    simp only [KernelState.forkPage, dif_pos hSegment, hMapped, hFrame, if_false]
    rfl
  have hStep := h.step
  rw [hEq] at hStep
  have hInit₁ : k₁.procs initSlot = { k.procs initSlot with
      task := .forkHolding child ⟨segment, hSegment⟩ table k.pool.kalloc.1 } := by
    simp [hk₁, setSelf, setProc, h.current]
  have hOthers₁ : ∀ q, q ≠ initSlot → k₁.procs q = k.procs q := by
    intro q hq
    simp [hk₁, setSelf, setProc, h.current, hq]
  have hServing₁ : Serving n frames k₁ := by
    refine ⟨reached_step h.serving.reached hStep,
      h.serving.owned.step hStep (h.safe fun _ => Nat.succ_pos _), ?_, ?_, ?_⟩
    · intro q hq
      rw [hOthers₁ q (h.serving.ne_of_lt (by simp [hSelf]) hq)]
      exact h.serving.slots q hq
    · rw [hInit₁]
      simpa [hk₁, Pool.entry] using h.serving.table
    · have hAvailable := Pool.kalloc_available hFrame
      rw [h.serving.available] at hAvailable
      exact Nat.succ.inj hAvailable
  -- the store, the copy and `yield()`
  have hRunning₁ : k₁.running = true := h.running
  have hCurrent₁ : k₁.current = initSlot := h.current
  have hTask₁ : k₁.self.task = .forkHolding child ⟨segment, hSegment⟩ table k.pool.kalloc.1 := by
    rw [self, hCurrent₁, hInit₁]
  set k₂ := k₁.forkStore child ⟨segment, hSegment⟩ table k.pool.kalloc.1 with hk₂
  have hStep₂ : k₁.Step (.act .proceed) k₂ := by
    simp only [Step, perform, hRunning₁, if_true, KernelState.act, hTask₁, hk₂]
  have hSafe₂ : k₁.Safe (.act .proceed) := by
    intro c s t hEq
    rw [hTask₁] at hEq
    cases hEq
  obtain ⟨hEntries, hEntry⟩ := hServing₁.owned.forkStore_entry hRunning₁ hTask₁
  have hInit₂ : k₂.procs initSlot =
      { k.procs initSlot with state := .ready, task := .fork child (segment + 1) table } := by
    simp [hk₂, KernelState.forkStore, KernelState.suspend, setSelf, setProc, hCurrent₁, hInit₁]
  have hOthers₂ : ∀ q, q ≠ initSlot → k₂.procs q = k.procs q := by
    intro q hq
    rw [← hOthers₁ q hq]
    simp [hk₂, KernelState.forkStore, KernelState.suspend, setSelf, setProc, hCurrent₁, hq]
  have hServing₂ : Serving n frames k₂ := by
    refine ⟨reached_step hServing₁.reached hStep₂, hServing₁.owned.step hStep₂ hSafe₂, ?_, ?_,
      hServing₁.available⟩
    · intro q hq
      rw [hOthers₂ q (h.serving.ne_of_lt (by simp [hSelf]) hq)]
      exact h.serving.slots q hq
    · have hOwn := hEntries initSlot hNe.symm (by simp [hInit₁, hSelf])
      have hTable₁ := hServing₁.table
      rw [hInit₁] at hOwn hTable₁
      rw [hInit₂, hOwn]
      exact hTable₁
  obtain ⟨k₃, hServing₃, hRunning₃, hCurrent₃, hPool₃, hTask₃, hProcs₃, -⟩ :=
    hServing₂.dispatch (p := initSlot) rfl (.inl (by rw [hInit₂]))
  have hChild₃ : k₃.procs child = k.procs child := by rw [hProcs₃ child hNe, hOthers₂ child hNe]
  refine ⟨k₃, ⟨hServing₃, hRunning₃, hCurrent₃, ?_, h.pattern, ?_⟩, ?_⟩
  · rw [self, hCurrent₃, hTask₃, hInit₂]
  · rw [hChild₃]
    exact h.idle
  · rw [hOthers₁ child hNe] at hEntry
    rw [hChild₃, hPool₃, hEntry, Function.update_self]
    exact hUsable

/-- A `sys_fork` with enough memory takes five frames. -/
theorem InUser.clone (h : InUser n (frames + 5) k) (hSlots : n + 1 < 512) :
    ∃ k', InUser (n + 1) frames k' := by
  obtain ⟨k₀, child, table, h₀⟩ := h.fork hSlots
  obtain ⟨k₁, h₁, -⟩ := h₀.turn (by decide)
  obtain ⟨k₂, h₂, -⟩ := h₁.turn (by decide)
  obtain ⟨k₃, h₃, -⟩ := h₂.turn (by decide)
  obtain ⟨k₄, h₄, -⟩ := h₃.turn (by decide)
  obtain ⟨k₅, h₅⟩ := h₄.skips (by decide) (by decide)
  exact h₅.finish

theorem InUser.clones (h : InUser n (frames + 5 * m) k) (hSlots : n + m < 512) :
    ∃ k', InUser (n + m) frames k' := by
  induction m generalizing n k with
  | zero => exact ⟨k, h⟩
  | succ m ih =>
    have hEnough : InUser n (frames + 5 * m + 5) k := h
    obtain ⟨k', hNext⟩ := hEnough.clone (by omega)
    obtain ⟨k'', hLast⟩ := ih hNext (by omega)
    exact ⟨k'', by rwa [Nat.add_assoc, Nat.add_comm 1 m] at hLast⟩

/-- The rollback at segment 1 frees the child's kernel stack and nothing else: its first turn
    finds segment 1 empty, and it has no second one. -/
theorem Cloning.rollback (h : Cloning n 0 child 1 table k) :
    k.forkPage child 1 table =
      ({ k with pool := k.pool.kalloc.2.kfree (k.procs child).kernelFrame }.setProc child fun e =>
        { e with state := .unused }).setSelf fun e => { e with task := .user } := by
  have hMapped : table 1 ≠ frameUnused := by
    rw [Ne, h.pattern 1 (by decide)]
    decide
  have hNone : k.pool.kalloc.1 = frameUnused :=
    Pool.kalloc_eq_unused_iff.mpr h.serving.available
  have hEmpty := h.building.2.2 1 le_rfl (by decide)
  have hLoop : k.pool.kalloc.2.forkRollback (k.procs child).kernelFrame 1 = k.pool.kalloc.2 := by
    simp [Pool.forkRollback, Pool.rollbackLoop, Pool.freeEntry, hEmpty]
  rw [KernelState.forkPage, dif_pos (by decide), if_neg hMapped]
  simp only [hNone, if_true, hLoop]

/-- So the frame of segment 0 is nowhere any more. -/
theorem Cloning.lost (h : Cloning n 0 child 1 table k)
    (hPage : Usable (k.pool.entry (k.procs child).kernelFrame 0)) :
    (k.forkPage child 1 table).occurrences (k.pool.entry (k.procs child).kernelFrame 0) = 0 := by
  obtain ⟨hBuilding, hNe, -⟩ := h.building
  have hNe' : child ≠ k.current := by
    rw [h.current]
    exact hNe
  have hUsed : (k.procs child).state ≠ .unused := by simp [hBuilding]
  set frame := k.pool.entry (k.procs child).kernelFrame 0 with hFrame
  have hState : (k.procs k.current).state = .running := h.serving.owned.current h.running
  have hTask : (k.procs k.current).task = .fork child 1 table := h.task
  have hOne := h.serving.owned.partition frame hPage
  -- before the step the child owns the frame, and nobody else does
  have hOwns : 0 < k.pool.places (k.procs child) frame := by
    rw [places_live hUsed (by simp [hBuilding])]
    have hPos := mappings_pos (Nat.zero_le 0) (show 0 < pageTableSize by decide) hFrame.symm
    omega
  obtain ⟨hFree, hPlace, -⟩ := h.serving.owned.alone hPage hOwns
  have hStack := h.serving.owned.entry_ne_stack hUsed (by simp [hBuilding]) hUsed
    (show 0 < pageTableSize by decide)
  rw [h.rollback]
  set k' := ({ k with pool := k.pool.kalloc.2.kfree (k.procs child).kernelFrame }.setProc child
    fun e => { e with state := .unused }).setSelf fun e => { e with task := .user } with hk'
  have hTable : ∀ q, q ≠ child → (k.procs q).state ≠ .unused →
      k'.pool.entry (k.procs q).kernelFrame = k.pool.entry (k.procs q).kernelFrame := by
    intro q hq hUsedQ
    funext s
    have hMem : k'.pool.mem (k.procs q).kernelFrame = k.pool.kalloc.2.mem (k.procs q).kernelFrame :=
      Pool.kfree_mem_of_ne (h.serving.owned.stack_ne hUsedQ hUsed hq)
    rw [Pool.entry, hMem, Pool.kalloc_mem]
    rfl
  have hSame : ∀ q, q ∉ ({child, k.current} : Finset Slot) → Same k k' q := by
    intro q hq
    simp only [Finset.mem_insert, Finset.mem_singleton, not_or] at hq
    have hProc : k'.procs q = k.procs q := by
      simp [hk', setSelf, setProc, hq.1, hq.2]
    refine ⟨by rw [hProc], by rw [hProc], by rw [hProc], ?_⟩
    intro hUsedQ s _
    rw [hTable q hq.1 hUsedQ]
  have hAccount : k'.occurrences frame + _ = k.occurrences frame + _ :=
    occurrences_account frame {child, k.current} rfl hSame
  have hFree' : k'.pool.free.count frame = 0 := by
    have hFreed : k'.pool.free.count frame = k.pool.kalloc.2.free.count frame + _ :=
      Pool.kfree_count _ hPage
    have hKept : k.pool.kalloc.2.free.count frame + _ = _ := Pool.kalloc_count hPage
    rw [hFreed, if_neg hStack.symm]
    omega
  have hChild' : k'.pool.places (k'.procs child) frame = 0 := by
    simp [hk', setSelf, setProc, hNe', Pool.places]
  have hSelf' : k'.pool.places (k'.procs k.current) frame =
      k.pool.places (k.procs k.current) frame := by
    have hProc : k'.procs k.current = { k.procs k.current with task := .user } := by
      simp [hk', setSelf, setProc, hNe'.symm]
    have hOwn := hTable k.current hNe'.symm (by simp [hState])
    simp [hProc, Pool.places, hState, hTask, Task.held, hOwn]
  rw [Finset.sum_pair hNe', Finset.sum_pair hNe', hFree, hPlace, hFree', hChild', hSelf',
    hOne] at hAccount
  omega

theorem sbrk_procs_of_ne (increment : Word) {p : Slot} (hp : p ≠ k.current) :
    (k.sbrk increment).procs p = k.procs p := by
  unfold KernelState.sbrk
  dsimp only
  split
  · split <;> simp [setSelf, setProc, hp]
  · split <;> simp [setSelf, setProc, hp]

/-- "init" after the first call of `sys_sbrk` in its code. -/
theorem inUser_start : InUser 0 217 (firstDispatch.sbrk 0x3000) := by
  refine ⟨⟨?_, ?_, ?_, ?_, ?_⟩, ?_, ?_, ?_⟩
  · exact reached_step ⟨_, .cons firstDispatch_step (.nil _)⟩ firstDispatch_sbrk
  · exact ((boot_owned _ _).step firstDispatch_step trivial).step firstDispatch_sbrk
      firstDispatch_safe
  · intro p hp
    have hNe : p ≠ initSlot := by
      rintro rfl
      exact absurd hp (Nat.lt_irrefl 0)
    rw [sbrk_procs_of_ne _ hNe]
    simp [firstDispatch, setProc, hNe, boot_procs]
  · decide +kernel
  · decide +kernel
  · rfl
  · rfl
  · rfl

end Serving

/-- The frames are no partition after a `sys_fork` that runs out of memory at segment 1. -/
theorem fork_loses_frame :
    ∃ es k, Run Step (boot (fun _ _ => 0) 0x0400) es k ∧ ¬ k.Partitioned := by
  obtain ⟨k₁, h₁⟩ := InUser.clones (m := 43) inUser_start (by decide)
  obtain ⟨k₂, child, table, h₂⟩ := h₁.fork (by decide)
  obtain ⟨k₃, h₃, hPage⟩ := h₂.turn (by decide)
  obtain ⟨es, hRun⟩ := reached_step h₃.serving.reached h₃.step
  refine ⟨es, _, hRun, fun hPartitioned => ?_⟩
  have hOne := hPartitioned _ hPage
  rw [h₃.lost hPage] at hOne
  cases hOne

end Xv6502.Kernel.KernelState
