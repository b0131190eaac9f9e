import Xv6502.Block.AllocatorSteps

/-!
# Runs of the Block Allocator

From a disk that `mkfs` has made, any processes call `block_alloc` and `block_free`. The promises of
the two hold in every state of such a run (`block_alloc_safe`).
-/

namespace Xv6502.Block

open Xv6502.Emulator Xv6502.Lib

variable {P : Type}

namespace Allocator

section Steps

variable [DecidableEq P] {a : Allocator P} {t : Storage P} {store store' : BlockStore} {p q : P}
  {b c : BufferId} {job new : Job} {task : Task} {e : Storage.Event P} {live' : Word → Bool}
  {block found : Word}

/-! ## §1 Runs from `mkfs` on -/

/-- The last decision of each process, behind an event. -/
def noteDecision (decisions : P → Option Word) : Event P → P → Option Word
  | .decided p found => Function.update decisions p (some found)
  | _ => decisions

/-- The last decision of each process in a run. -/
def lastDecision (es : List (Event P)) : P → Option Word :=
  es.foldl noteDecision fun _ => none

/-- A process allocates the block that it has decided on. -/
theorem Step.allocates {e : Event P} {a' : Allocator P} (hStep : a.Step e a')
    (h : (a'.job q).allocates found) :
    e = .decided q found ∨ (a.job q).allocates found ∧ ∀ n, e ≠ .decided q n := by
  -- the jobs of the others stay as they are
  have hOther : ∀ {p new}, q ≠ p → (Function.update a.job p new q).allocates found →
      (a.job q).allocates found := by
    intro p new hq hNew
    rwa [Function.update_of_ne hq] at hNew
  have hAct : ∀ {p new}, (Function.update a.job p new q).allocates found →
      (new.allocates found → (a.job p).allocates found) → (a.job q).allocates found := by
    intro p new hNew hSame
    by_cases hq : q = p
    · subst hq
      rw [Function.update_self] at hNew
      exact hSame hNew
    · exact hOther hq hNew
  cases hStep with
  | disk _ _ => exact .inr ⟨h, by rintro n ⟨⟩⟩
  | foreign _ _ _ _ => exact .inr ⟨h, by rintro n ⟨⟩⟩
  | alloc p hIdle _ _ => exact .inr ⟨hAct h False.elim, by rintro n ⟨⟩⟩
  | free p block hIdle _ _ => exact .inr ⟨hAct h False.elim, by rintro n ⟨⟩⟩
  | @read p task t hJob _ =>
    refine .inr ⟨hAct h fun hNew => ?_, by rintro n ⟨⟩⟩
    rw [hJob]
    cases task <;> exact hNew
  | wait _ _ _ _ => exact .inr ⟨h, by rintro n ⟨⟩⟩
  | @got e p task b t hJob _ _ =>
    refine .inr ⟨hAct h fun hNew => ?_, by rintro n ⟨⟩⟩
    rw [hJob]
    cases task <;> exact hNew
  | @decide p block n b t hJob _ _ =>
    by_cases hq : q = p
    · subst hq
      left
      have hNew : (Function.update a.job q (.writing (.mark n) b) q).allocates found := h
      rw [Function.update_self] at hNew
      rw [show n = found from hNew]
    · refine .inr ⟨hOther hq h, ?_⟩
      rintro m ⟨⟩
      exact hq rfl
  | pass hJob _ _ _ => exact .inr ⟨hAct h False.elim, by rintro n ⟨⟩⟩
  | full hJob _ _ _ => exact .inr ⟨hAct h False.elim, by rintro n ⟨⟩⟩
  | zero hJob _ =>
    refine .inr ⟨hAct h fun hNew => ?_, by rintro n ⟨⟩⟩
    rw [hJob]
    exact hNew
  | clear hJob _ _ => exact .inr ⟨hAct h False.elim, by rintro n ⟨⟩⟩
  | @written p task b t hJob _ =>
    refine .inr ⟨hAct h fun hNew => ?_, by rintro n ⟨⟩⟩
    rw [hJob]
    cases task <;> exact hNew
  | marked hJob _ =>
    refine .inr ⟨hAct h fun hNew => ?_, by rintro n ⟨⟩⟩
    rw [hJob]
    exact hNew
  | allocated hJob _ => exact .inr ⟨hAct h False.elim, by rintro n ⟨⟩⟩
  | freed hJob _ => exact .inr ⟨hAct h False.elim, by rintro n ⟨⟩⟩

omit [DecidableEq P] in
theorem mounted_sound (input : MkfsInput) (frames : BufferId → Nat → Byte) (pin : Bool) :
    Sound (mounted input frames pin : Allocator P) := by
  have hFollows : Storage.Follows rootDrive
      ((Storage.boot (mkfs input) frames pin : Storage P), blockOf (mkfs input)) := by
    generalize mkfs input = image
    exact ⟨[], Storage.boot_consistent rootDrive image frames pin, fun hQ => absurd rfl hQ⟩
  refine ⟨blockOf (mkfs input), hFollows, mkfs_superBlock input, fun p => ⟨trivial, ?_, ?_⟩,
    ?_, ?_, ?_, ?_⟩
  · exact fun b hOwner => by cases hOwner
  · exact fun d b asleep hCall => by cases hCall
  -- the bitmap is that of mkfs: the blocks of the file system itself are marked, nothing is live
  · intro block hBlock
    have hByte : block.toNat / 8 < blockSize := Nat.div_lt_of_lt_mul hBlock
    have hNone : ¬ Allocated (fun _ : P => Job.idle) (fun _ => false) block := by
      rintro (hLive | ⟨p, hOwns⟩)
      · cases hLive
      · exact hOwns
    have hSame : bit (blockOf (mkfs input) bitmapBlock) block.toNat =
        bit (mkfsBitmap mkfsSuperBlock rootDataBlock bitmapBlocks) block.toNat := by
      rw [bit, bit]
      exact congrArg (BitVec.getLsbD · (block.toNat % 8)) (mkfs_bitmap input hByte)
    rw [hSame, bit_mkfsBitmap hBlock]
    exact ⟨.inl, fun h => h.resolve_right hNone⟩
  · exact fun block hLive => by cases hLive
  · exact fun p q block hp => absurd hp id
  · exact fun p block hp => absurd hp id

theorem run_sound {input : MkfsInput} {frames : BufferId → Nat → Byte} {pin : Bool}
    {es : List (Event P)} (h : Run Step (mounted input frames pin) es a) :
    a.Sound ∧ ∀ p found, (a.job p).allocates found → lastDecision es p = some found := by
  -- the history keeps the last decision of each process
  have hHistory := h.with_history noteDecision fun _ => none
  refine @Run.invariant _ _ _ _ _ _ (fun x => x.1.Sound ∧
    ∀ p found, (x.1.job p).allocates found → x.2 p = some found) ?_ hHistory
    ⟨mounted_sound input frames pin, fun p found hNone => absurd hNone id⟩
  rintro ⟨a, d⟩ e ⟨a', d'⟩ ⟨hSound, hDecisions⟩ ⟨hStep, rfl⟩
  refine ⟨hStep.sound hSound, fun p found hAllocates => ?_⟩
  rcases hStep.allocates hAllocates with rfl | ⟨hBefore, hNot⟩
  · exact Function.update_self ..
  · have hSame := hDecisions p found hBefore
    cases e with
    | decided q n =>
      have hq : p ≠ q := by
        rintro rfl
        exact hNot n rfl
      rw [← hSame]
      exact Function.update_of_ne hq _ _
    | _ => exact hSame

/-! ## §2 The calls, computed -/

/-- Who does something next. -/
inductive Turn (P : Type) where
  /-- A process calls `block_alloc`. -/
  | alloc (p : P)
  /-- A process calls `block_free`. -/
  | free (p : P) (block : Word)
  /-- A process goes on with its call, to its next sleep or return. -/
  | process (p : P)
  /-- The disk finishes an operation, and the kernel takes its interrupt. -/
  | disk
  deriving DecidableEq, Repr

/-- The frame of a buffer is changed and written. -/
def update (s : Storage P) (p : P) (b : BufferId) (frame : Nat → Byte) : Option (Storage P) :=
  (s.perform (.modify p b frame)).bind fun u =>
    u.perform (.write p b (u.buffer b).blockNumber (u.buffer b).frame)

/-- `buffer_read` goes on. -/
def readOn (a : Allocator P) (p : P) (task : Task) : Option (Allocator P) :=
  match a.storage.call p with
  | .got block b =>
    (a.storage.perform (.readFrame p (a.storage.toSubmit p))).bind fun t =>
      -- a miss: the process sleeps in `disk_submit`
      if t.call p ≠ .none then some { a with storage := t }
      -- a hit returns at once, with the block the call has asked for
      else if a.storage.toSubmit p = none ∧ block = task.block a.sb then
        some { a.setJob p (.read task b) with storage := t }
      else none
  | .reading block b false =>
    (a.storage.perform (.readDone p)).bind fun t =>
      if block = task.block a.sb then some { a.setJob p (.read task b) with storage := t }
      else none
  | _ =>
    (a.storage.perform (.retry p)).bind fun t =>
      if t.call p ≠ .none then some { a with storage := t } else none

/-- A process goes on with its call: the event, and what it leads to. -/
def goOn (a : Allocator P) (p : P) : Option (Event P × Allocator P) :=
  match a.job p with
  | .next task =>
    (a.storage.perform (.read p rootDrive (task.block a.sb))).map fun t =>
      (.goOn p, { a.setJob p (.reading task) with storage := t })
  | .reading task => (a.readOn p task).map fun a' => (.goOn p, a')
  | .read (.zero found) b =>
    (update a.storage p b (zeroed (a.frame b))).map fun t =>
      (.goOn p, { a.setJob p (.writing (.zero found) b) with storage := t })
  | .writing task b =>
    (a.storage.perform (.writeDone p)).map fun t =>
      (.goOn p, { a.setJob p (.written task b) with storage := t })
  | .written (.mark found) b =>
    (a.storage.perform (.release p b)).map fun t =>
      (.goOn p, { a.setJob p (.next (.zero found)) with storage := t })
  | .written (.zero found) b =>
    (a.storage.perform (.release p b)).map fun t =>
      (.returned p found,
        { a.setJob p .idle with storage := t, live := Function.update a.live found true })
  | .written (.free _) b =>
    (a.storage.perform (.release p b)).map fun t =>
      (.goOn p, { a.setJob p .idle with storage := t })
  | _ => none

/-- The block that the search has found is marked. -/
def markFound (a : Allocator P) (p : P) (found : Word) : Option (Allocator P) :=
  match a.job p with
  | .read (.search block) b =>
    (update a.storage p b (setBit (a.frame b) (found - block).toNat)).map fun t =>
      { a.setJob p (.writing (.mark found) b) with storage := t }
  | _ => none

/-- The bit of the block is cleared. -/
def clearFreed (a : Allocator P) (p : P) : Option (Allocator P) :=
  match a.job p with
  | .read (.free block) b =>
    (update a.storage p b (clearBit (a.frame b) (bitOffset block))).map fun t =>
      { a.setJob p (.writing (.free block) b) with storage := t }
  | _ => none

/-- A turn: the events, and what they lead to. -/
def turn (a : Allocator P) : Turn P → Option (List (Event P) × Allocator P)
  | .alloc p =>
    if a.job p = .idle ∧ a.storage.call p = .none ∧ 0 < a.sb.size then
      some ([.alloc p], a.setJob p (.next (.search 0)))
    else none
  | .free p block =>
    -- the caller owns the block until it calls `block_free`
    if a.job p = .idle ∧ a.storage.call p = .none ∧ a.live block = true then
      some ([.free p block],
        { a.setJob p (.next (.free block)) with live := Function.update a.live block false })
    else none
  | .process p => (a.goOn p).map fun x => ([x.1], x.2)
  | .disk =>
    (a.storage.perform .transfer).bind fun t =>
      -- the disk finishes a sector and its interrupt is served before anything else happens
      (t.perform (.interrupt t.served)).map fun u =>
        ([.other .transfer, .other (.interrupt t.served)], { a with storage := u })

/-- The turns one after the other. -/
def turns (a : Allocator P) : List (Turn P) → Option (List (Event P) × Allocator P)
  | [] => some ([], a)
  | x :: xs => (a.turn x).bind fun y => (y.2.turns xs).map fun z => (y.1 ++ z.1, z.2)

theorem updates_of_update {s t : Storage P} {frame : Nat → Byte}
    (h : update s p b frame = some t) : Updates s p b frame t := by
  obtain ⟨u, hModify, hWrite⟩ := Option.bind_eq_some_iff.mp h
  have hFrame : frame = (u.buffer b).frame := by
    obtain ⟨-, hSome⟩ := Option.ite_none_right_eq_some.mp hModify
    obtain rfl := Option.some.inj hSome
    simp [Storage.setBuffer]
  exact ⟨u, _, ⟨trivial, hModify⟩, ⟨rfl, hFrame⟩, hWrite⟩

theorem step_of_readOn {a' : Allocator P} (hJob : a.job p = .reading task)
    (h : a.readOn p task = some a') : a.Step (.goOn p) a' := by
  unfold readOn at h
  split at h
  -- the buffer is there: it is valid and the call returns, or it is submitted
  · next block b hCall =>
    obtain ⟨t, hPerform, hRest⟩ := Option.bind_eq_some_iff.mp h
    have hStep : a.storage.Step (.readFrame p (a.storage.toSubmit p)) t := ⟨rfl, hPerform⟩
    by_cases hReturned : t.call p = .none
    · rw [if_neg (not_not_intro hReturned)] at hRest
      obtain ⟨⟨hSubmit, rfl⟩, hSome⟩ := Option.ite_none_right_eq_some.mp hRest
      obtain rfl := Option.some.inj hSome
      exact .got hJob hStep ⟨rfl, hSubmit, hCall⟩
    · rw [if_pos hReturned] at hRest
      obtain rfl := Option.some.inj hRest
      exact .wait (e := .readFrame p _) hJob rfl hStep hReturned
  -- the disk is done
  · next block b hCall =>
    obtain ⟨t, hPerform, hRest⟩ := Option.bind_eq_some_iff.mp h
    obtain ⟨rfl, hSome⟩ := Option.ite_none_right_eq_some.mp hRest
    obtain rfl := Option.some.inj hSome
    exact .got (e := .readDone p) hJob ⟨trivial, hPerform⟩ ⟨rfl, hCall⟩
  -- the buffer was locked: look again
  · obtain ⟨t, hPerform, hRest⟩ := Option.bind_eq_some_iff.mp h
    obtain ⟨hWaits, hSome⟩ := Option.ite_none_right_eq_some.mp hRest
    obtain rfl := Option.some.inj hSome
    exact .wait (e := .retry p) hJob rfl ⟨trivial, hPerform⟩ hWaits

theorem step_of_goOn {x : Event P × Allocator P} (h : a.goOn p = some x) : a.Step x.1 x.2 := by
  unfold goOn at h
  -- one case for each place of the two functions
  split at h
  · next task hJob =>
    obtain ⟨t, hPerform, rfl⟩ := Option.map_eq_some_iff.mp h
    exact .read hJob ⟨trivial, hPerform⟩
  · next task hJob =>
    obtain ⟨a', hRead, rfl⟩ := Option.map_eq_some_iff.mp h
    exact step_of_readOn hJob hRead
  · next found b hJob =>
    obtain ⟨t, hUpdate, rfl⟩ := Option.map_eq_some_iff.mp h
    exact .zero hJob (updates_of_update hUpdate)
  · next task b hJob =>
    obtain ⟨t, hPerform, rfl⟩ := Option.map_eq_some_iff.mp h
    exact .written hJob ⟨trivial, hPerform⟩
  · next found b hJob =>
    obtain ⟨t, hPerform, rfl⟩ := Option.map_eq_some_iff.mp h
    exact .marked hJob ⟨trivial, hPerform⟩
  · next found b hJob =>
    obtain ⟨t, hPerform, rfl⟩ := Option.map_eq_some_iff.mp h
    exact .allocated hJob ⟨trivial, hPerform⟩
  · next block b hJob =>
    obtain ⟨t, hPerform, rfl⟩ := Option.map_eq_some_iff.mp h
    exact .freed hJob ⟨trivial, hPerform⟩
  · cases h

theorem run_of_turn {x : Turn P} {y : List (Event P) × Allocator P} (h : a.turn x = some y) :
    Run Step a y.1 y.2 := by
  -- a turn is one event of the model, and two for the disk
  cases x with
  | alloc p =>
    obtain ⟨⟨hIdle, hCall, hSize⟩, hSome⟩ := Option.ite_none_right_eq_some.mp h
    obtain rfl := Option.some.inj hSome
    exact .cons (.alloc p hIdle hCall hSize) (.nil _)
  | free p block =>
    obtain ⟨⟨hIdle, hCall, hLive⟩, hSome⟩ := Option.ite_none_right_eq_some.mp h
    obtain rfl := Option.some.inj hSome
    exact .cons (.free p block hIdle hCall hLive) (.nil _)
  | process p =>
    obtain ⟨z, hGoOn, rfl⟩ := Option.map_eq_some_iff.mp h
    exact .cons (step_of_goOn hGoOn) (.nil _)
  | disk =>
    obtain ⟨t, hTransfer, hRest⟩ := Option.bind_eq_some_iff.mp h
    obtain ⟨u, hInterrupt, rfl⟩ := Option.map_eq_some_iff.mp hRest
    exact .cons (.disk (e := .transfer) trivial ⟨trivial, hTransfer⟩)
      (.cons (.disk (e := .interrupt t.served) trivial ⟨rfl, hInterrupt⟩) (.nil _))

/-- **Execution**: what the turns compute is a run. -/
theorem run_of_turns {xs : List (Turn P)} {y : List (Event P) × Allocator P}
    (h : a.turns xs = some y) : Run Step a y.1 y.2 := by
  induction xs generalizing a y with
  | nil =>
    obtain rfl := Option.some.inj h
    exact .nil a
  | cons x xs ih =>
    obtain ⟨z, hFirst, hRest⟩ := Option.bind_eq_some_iff.mp h
    obtain ⟨w, hTurns, rfl⟩ := Option.map_eq_some_iff.mp hRest
    exact (run_of_turn hFirst).append (ih hTurns)

theorem step_of_markFound {a' : Allocator P} (h : a.markFound p found = some a')
    (hFound : ∀ block b, a.job p = .read (.search block) b →
      searchBlock (a.frame b) block a.sb.size = some found) : a.Step (.decided p found) a' := by
  unfold markFound at h
  split at h
  · next block b hJob =>
    obtain ⟨t, hUpdate, rfl⟩ := Option.map_eq_some_iff.mp h
    exact .decide hJob (hFound block b hJob) (updates_of_update hUpdate)
  · cases h

theorem step_of_clearFreed {a' : Allocator P} (h : a.clearFreed p = some a')
    (hSet : ¬ a.FreePanics p) : a.Step (.goOn p) a' := by
  unfold clearFreed at h
  split at h
  · next block b hJob =>
    obtain ⟨t, hUpdate, rfl⟩ := Option.map_eq_some_iff.mp h
    refine .clear hJob ?_ (updates_of_update hUpdate)
    by_contra hClear
    exact hSet ⟨block, b, hJob, Bool.eq_false_of_not_eq_true hClear⟩
  · cases h

/-- The block that a call of `block_alloc` returns with an event. -/
def Event.returns : Event P → Option (P × Word)
  | .returned p block => some (p, block)
  | _ => none

/-- A block gets live only when `block_alloc` returns it. -/
theorem live_of_run {es : List (Event P)} {a' : Allocator P} (h : Run Step a es a')
    (hBefore : a.live block = false) (hNone : es.filterMap Event.returns = []) :
    a'.live block = false := by
  have hStep : ∀ (c : Allocator P) e c', True → c.live block = false → Step c e c' →
      c'.live block = false ∨ ∃ p, e = .returned p block := by
    intro c e c' _ hLive hStep
    -- only `free` and `allocated` change what is live
    cases hStep with
    | free p other _ _ hOther =>
      left
      show Function.update c.live other false block = false
      by_cases hSame : block = other
      · rw [hSame, Function.update_self]
      · rw [Function.update_of_ne hSame, hLive]
    | @allocated p found _ _ _ _ =>
      by_cases hSame : block = found
      · exact .inr ⟨p, by rw [hSame]⟩
      · left
        show Function.update c.live found true block = false
        rw [Function.update_of_ne hSame, hLive]
    | _ => exact .inl hLive
  rcases h.until_label (fun _ _ _ _ _ => trivial) hStep trivial hBefore with hLive | ⟨e, hMem, p, rfl⟩
  · exact hLive
  · have hReturned : (p, block) ∈ es.filterMap Event.returns :=
      List.mem_filterMap.mpr ⟨_, hMem, rfl⟩
    rw [hNone] at hReturned
    exact absurd hReturned List.not_mem_nil

/-! ## §3 The promises -/

/-- What `block_alloc` and `block_free` promise in a state behind the events `es`. -/
structure Safe (es : List (Event P)) (a : Allocator P) : Prop where
  /-- `block_alloc` decides on the lowest free block, and returns 0 with no free block only. -/
  decided : ∀ p found a', a.Step (.decided p found) a' → a.LowestFree found
  full : ∀ p a', a.Step (.returned p 0) a' → a.NoneFree
  /-- Behind the search it goes on accordingly. -/
  search : ∀ p block b, a.job p = .read (.search block) b →
    (a.NoneFree → ∃ a', a.Step (.returned p 0) a') ∧
      (¬ a.NoneFree → ∃ found a', a.Step (.decided p found) a')
  /-- It returns the block that it has decided on. Nobody else has got it meanwhile, and the block is
      zero, on the disk and in the cache. -/
  returned : ∀ p found a', a.Step (.returned p found) a' → found ≠ 0 →
    lastDecision es p = some found ∧ isDataBlock found.toNat ∧ a.live found = false ∧
      (∀ q, (a.job q).owns found → q = p) ∧
      (∀ i, i < blockSize → blockOf a.storage.device.image found i = 0) ∧
      ∀ b, (a.storage.buffer b).blockNumber = found → (a.storage.buffer b).valid = true →
        ∀ i, i < blockSize → a.frame b i = 0
  /-- `block_free` finds the bit of its block set. -/
  free : ∀ p, ¬ a.FreePanics p
  /-- `buffer_get` panics with all buffers locked only. -/
  cache : ∀ p, a.CachePanics p → ∀ b, a.storage.use b ≠ .free

/-- A process with a buffer at hand can change and write it. -/
theorem updates_of_holds {s : Storage P} {Q : List BufferId} (h : Storage.Control s Q)
    (hCall : s.call p = .none) (hUse : s.use b = .held p false) (frame : Nat → Byte) :
    ∃ t, Updates s p b frame t := by
  have hHand : s.atHand p b = true := Storage.atHand_iff.mpr ⟨hCall, false, hUse⟩
  have hBusy : (s.buffer b).busy = true := h.busy_of_owner (p := p) (by rw [hUse]; rfl)
  let u : Storage P := { s.setBuffer b fun e => { e with frame := frame } with
    use := Function.update s.use b (.held p true) }
  have hHand' : u.atHand p b = true :=
    Storage.atHand_iff.mpr ⟨hCall, true, Function.update_self ..⟩
  have hBusy' : (u.buffer b).busy = true := by simpa [u, Storage.setBuffer] using hBusy
  have hFrame : frame = (u.buffer b).frame := by simp [u, Storage.setBuffer]
  exact ⟨u.bufferWrite p b, u, (u.buffer b).blockNumber, ⟨trivial, if_pos hHand⟩, ⟨rfl, hFrame⟩,
    if_pos ⟨hHand', hBusy'⟩⟩

/-- A process with a buffer at hand can release it. -/
theorem release_of_holds {s : Storage P} {Q : List BufferId} (h : Storage.Control s Q)
    (hCall : s.call p = .none) (hUse : s.use b = .held p false) :
    s.Step (.release p b) (s.bufferRelease b) := by
  have hHand : s.atHand p b = true := Storage.atHand_iff.mpr ⟨hCall, false, hUse⟩
  exact ⟨trivial, if_pos ⟨hHand, h.busy_of_owner (p := p) (by rw [hUse]; rfl)⟩⟩

omit [DecidableEq P] in
/-- The search finds the lowest free block. -/
theorem Ledger.finds (h : a.Ledger store) (hFollows : Storage.Follows rootDrive (a.storage, store))
    (hJob : a.job p = .read (.search block) b) (hLowest : a.LowestFree found) :
    searchBlock (a.frame b) block a.sb.size = some found := by
  obtain ⟨-, hSome, hNone⟩ := h.search hFollows hJob
  cases hSearch : searchBlock (a.frame b) block a.sb.size with
  | none => exact absurd (hNone hSearch found hLowest.1) hLowest.2.1
  | some other =>
    obtain ⟨hData, hFree, hBelow⟩ := hSome other hSearch
    have hLe : ¬ found.toNat < other.toNat := fun hLt => hLowest.2.1 (hBelow found hLowest.1 hLt)
    have hGe : ¬ other.toNat < found.toNat := fun hLt => hFree (hLowest.2.2 other hData hLt)
    exact congrArg some (BitVec.eq_of_toNat_eq (by omega))

/-- Behind the search `block_alloc` can do what it has found out. -/
theorem Ledger.search_goes_on (h : a.Ledger store)
    (hFollows : Storage.Follows rootDrive (a.storage, store))
    (hJob : a.job p = .read (.search block) b) :
    (a.NoneFree → ∃ a', a.Step (.returned p 0) a') ∧
      (¬ a.NoneFree → ∃ found a', a.Step (.decided p found) a') := by
  have hControl := hFollows.choose_spec.1.control
  obtain ⟨rfl, hFound, hNone⟩ := h.search hFollows hJob
  have hTask := (h.procs p).jobOk
  rw [hJob] at hTask
  -- the loop over the bitmap has found a free block, or has come to the end of the disk
  cases hSearch : searchBlock (a.frame b) 0 a.sb.size with
  | some found =>
    obtain ⟨hData, hFree, -⟩ := hFound found hSearch
    refine ⟨fun hFull => absurd (hFull found hData) hFree, fun _ => ?_⟩
    obtain ⟨t, hUpdates⟩ := updates_of_holds hControl hTask.1 hTask.2.1.1
      (setBit (a.frame b) (found - 0).toNat)
    exact ⟨found, _, .decide hJob hSearch hUpdates⟩
  | none =>
    refine ⟨fun _ => ⟨_, .full hJob hSearch ?_ (release_of_holds hControl hTask.1 hTask.2.1.1)⟩,
      fun hSome => absurd (hNone hSearch) hSome⟩
    rw [h.sb]
    decide

omit [DecidableEq P] in
/-- Behind `block_zero` the block is the one of the process alone, and zero. -/
theorem Ledger.zero_written (h : a.Ledger store)
    (hFollows : Storage.Follows rootDrive (a.storage, store))
    (hJob : a.job p = .written (.zero found) b) :
    isDataBlock found.toNat ∧ a.live found = false ∧ (∀ q, (a.job q).owns found → q = p) ∧
      (∀ i, i < blockSize → blockOf a.storage.device.image found i = 0) ∧
      ∀ c, (a.storage.buffer c).blockNumber = found → (a.storage.buffer c).valid = true →
        ∀ i, i < blockSize → a.frame c i = 0 := by
  have hTask := (h.procs p).jobOk
  rw [hJob] at hTask
  obtain ⟨hCall, hHolds, hData, hDone⟩ := hTask
  have hControl := hFollows.choose_spec.1.control
  have hBytes := hFollows.choose_spec.1.bytes
  have hOwns : (a.job p).owns found := by
    rw [hJob]
    exact rfl
  have hBusy : (a.storage.buffer b).busy = true :=
    hControl.busy_of_owner (p := p) (by rw [hHolds.1]; rfl)
  -- the buffer of the process is the only one with the block
  have hOnly : ∀ c, (a.storage.buffer c).blockNumber = found →
      (a.storage.buffer c).busy = true ∨ (a.storage.buffer c).valid = true → c = b := by
    intro c hBlock hUsed
    exact hControl.unique hUsed (.inl hBusy)
      ((hBytes.key c hUsed).1.trans (hBytes.key b (.inl hBusy)).1.symm) (hBlock.trans hHolds.2.symm)
  have hNotQueued := hControl.not_queued_of_owner (p := p) (b := b) (by rw [hHolds.1]; rfl)
    (by rw [hCall]; exact id)
  refine ⟨hData, h.accounts.reserved p found hOwns,
    fun q hq => h.accounts.exclusive q p found hq hOwns, ?_, ?_⟩
  · -- a block that the disk has not got yet would be in a buffer in the queue
    intro i hi
    rcases hBytes.image found hData.2 with hSame | ⟨c, hDirty, hBlock⟩
    · rw [hSame i hi]
      exact hDone i hi
    · obtain ⟨hQueued, q, hUse⟩ := hBytes.dirty c hDirty
      obtain rfl := hOnly c hBlock (.inr (hBytes.held c q false hUse))
      exact absurd hQueued hNotQueued
  · intro c hBlock hValid i hi
    obtain rfl := hOnly c hBlock (.inr hValid)
    have hFrame := hBytes.frame c hValid (by simp [hHolds.1]) i hi
    rw [hBlock] at hFrame
    exact hFrame.trans (hDone i hi)

omit [DecidableEq P] in
/-- The bit of a block that `block_free` has been called for is set, since nobody else could have
    cleared it. -/
theorem Ledger.not_freePanics (h : a.Ledger store)
    (hFollows : Storage.Follows rootDrive (a.storage, store)) : ¬ a.FreePanics p := by
  rintro ⟨block, b, hJob, hClear⟩
  have hTask := (h.procs p).jobOk
  rw [hJob] at hTask
  obtain ⟨-, hHolds, hData⟩ := hTask
  have hLimit : block.toNat < bitsPerBlock.toNat := lt_trans hData.2 (by decide)
  have hOwns : (a.job p).owns block := by
    rw [hJob]
    exact rfl
  rw [bitOffset_of_data hData, bit_frame hFollows hHolds (bitBlock_of_data hData) hLimit] at hClear
  have hSet := (h.accounts.bits block hLimit).mpr (.inr (.inr ⟨p, hOwns⟩))
  rw [hClear] at hSet
  cases hSet

/-- **Block allocation**: in every run from the disk of `mkfs` on the promises hold. The bits of the
    bitmap are the accounts of the blocks (`Accounts`), and they hold because a process changes the
    bitmap only while it has it locked, and gives a block away only when it is done with it. -/
theorem block_alloc_safe {input : MkfsInput} {frames : BufferId → Nat → Byte} {pin : Bool}
    {es : List (Event P)} (hRun : Run Step (mounted input frames pin) es a) : Safe es a := by
  obtain ⟨⟨store, hFollows, hLedger⟩, hDecisions⟩ := run_sound hRun
  constructor
  · intro p found a' hStep
    cases hStep with
    | decide hJob hFound _ => exact (hLedger.search hFollows hJob).2.1 found hFound
  · intro p a' hStep
    cases hStep with
    | full hJob hNone _ _ => exact (hLedger.search hFollows hJob).2.2 hNone
    | allocated hJob _ =>
      -- block 0 is no data block
      exact absurd (hLedger.zero_written hFollows hJob).1.1 (by decide)
  · exact fun p block b hJob => hLedger.search_goes_on hFollows hJob
  · intro p found a' hStep hFound
    cases hStep with
    | full => exact absurd rfl hFound
    | allocated hJob _ =>
      exact ⟨hDecisions p found (by rw [hJob]; exact rfl), hLedger.zero_written hFollows hJob⟩
  · exact fun p => hLedger.not_freePanics hFollows
  · rintro p ⟨task, -, hPanic⟩ b hFree
    have hSome := hFollows.choose_spec.1.control.bufferGet_isSome hFree p rootDrive
      (task.block a.sb)
    rw [hPanic] at hSome
    cases hSome

end Steps

/-- The process sleeps for the eight sectors of a block. -/
def wait8 (p : Bool) : List (Turn Bool) := List.replicate sectorsPerBlock .disk ++ [.process p]

/-- `block_alloc` until it has got the bitmap. -/
def untilSearch : List (Turn Bool) := [.alloc false, .process false, .process false] ++ wait8 false

/-- It writes the bitmap, reads the block, clears and writes it, and returns. -/
def untilReturn : List (Turn Bool) :=
  wait8 false ++ [.process false, .process false, .process false] ++ wait8 false ++
    [.process false] ++ wait8 false ++ [.process false]

/-- `block_free` by the other process, until it has got the bitmap. -/
def untilFree (block : Word) : List (Turn Bool) :=
  [.free true block, .process true, .process true]

/-- It writes the bitmap and returns. -/
def untilFreed : List (Turn Bool) := wait8 true ++ [.process true]

/-- One process allocates the first block behind the root directory, and the other one frees it. -/
theorem block_alloc_safe_calls :
    let input : MkfsInput := ⟨fun _ => 0, fun _ => 0, fun _ => 0, fun _ => 0⟩
    ∃ (es : List (Event Bool)) (a : Allocator Bool),
      Run Step (mounted input (fun _ _ => 0) false) es a ∧
      es.filterMap Event.returns = [(false, rootDataBlock + 1)] ∧ a.job true = .idle ∧
      a.live (rootDataBlock + 1) = false ∧ Safe es a := by
  intro input
  let first : Word := rootDataBlock + 1
  have hCalls : ((mounted input (fun _ _ => 0) false : Allocator Bool).turns untilSearch).any
      (fun x => x.1.filterMap Event.returns == [] && x.2.job false == .read (.search 0) 0 &&
        x.2.job true == .idle &&
      (x.2.markFound false first).any fun a =>
      (a.turns untilReturn).any fun y => y.1.filterMap Event.returns == [(false, first)] &&
      (y.2.turns (untilFree first)).any fun z => z.1.filterMap Event.returns == [] &&
      (z.2.clearFreed true).any fun b =>
      (b.turns untilFreed).any fun w => w.1.filterMap Event.returns == [] &&
        w.2.job true == .idle && w.2.live first == false) = true := by
    decide +kernel
  simp only [Option.any_eq_true, Bool.and_eq_true, beq_iff_eq] at hCalls
  obtain ⟨x, hx, ⟨⟨hNoneX, hJob⟩, hIdle⟩, a, ha, y, hy, hReturns, z, hz, hNoneZ, b, hb, w, hw,
    ⟨hNoneW, hDone⟩, hLive⟩ := hCalls
  have hRunX := run_of_turns hx
  obtain ⟨⟨store, hFollows, hLedger⟩, -⟩ := run_sound hRunX
  -- nothing is allocated yet
  have hFree : ∀ block, ¬ Allocated x.2.job x.2.live block := by
    rintro block (hLiveX | ⟨p, hOwns⟩)
    · rw [live_of_run hRunX rfl hNoneX] at hLiveX
      cases hLiveX
    · cases p with
      | false =>
        rw [hJob] at hOwns
        exact hOwns
      | true =>
        rw [hIdle] at hOwns
        exact hOwns
  have hLowest : x.2.LowestFree first := by
    refine ⟨⟨by decide, by decide⟩, hFree first, fun lower hData hLower => ?_⟩
    have hAbove : rootDataBlock.toNat < lower.toNat := hData.1
    have hFirst : first.toNat = rootDataBlock.toNat + 1 := by decide
    omega
  have hMark : x.2.Step (.decided false first) a := by
    refine step_of_markFound ha fun block c hSearch => ?_
    exact hLedger.finds hFollows hSearch hLowest
  have hRunZ := ((hRunX.append (.cons hMark (run_of_turns hy))).append (run_of_turns hz))
  have hClear : z.2.Step (.goOn true) b := step_of_clearFreed hb ((block_alloc_safe hRunZ).free true)
  have hRunW := hRunZ.append (.cons hClear (run_of_turns hw))
  refine ⟨_, w.2, hRunW, ?_, hDone, hLive, block_alloc_safe hRunW⟩
  simp only [List.filterMap_append, List.filterMap_cons, Event.returns, hNoneX, hReturns, hNoneZ,
    hNoneW]
  rfl

end Allocator

end Xv6502.Block
