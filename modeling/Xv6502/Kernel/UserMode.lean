import Xv6502.Emulator.VirtualMemory
import Xv6502.Kernel.PageTables

/-!
# The Kernel's View of User Mode

To the kernel of `Frames` a process in user mode is something that stores bytes through its page
table. Here this is held against the machine: from a machine whose frames hold what the kernel has
put there, and whose MMU has the page table of the current process, every run in user mode, with
any program and any device, does what some stores of the kernel's model do (`byStores_run`).

With the address spaces of the kernel it follows that a process in user mode changes nothing but
its own pages: no other process, no page table, no free frame and no buffer
(`user_mode_isolated`).
-/

namespace Xv6502.Kernel

open Xv6502.Emulator
open Xv6502.Lib

namespace KernelState

/-! ## §1 The machine of a kernel -/

/-- The board holds what the kernel's model says: the frames of `kalloc` have their bytes, and the
    MMU has the page table of the current process. -/
structure Shows (k : KernelState) (b : Board) : Prop where
  memory : ∀ frame offset, Usable frame → offset < 0x1000 →
    b.ram (frame.toNat * 0x1000 + offset) = k.pool.mem frame offset
  table : ∀ s : Segment, b.mmu.pageTable s = k.pool.entry k.self.kernelFrame s

/-- The kernel's model is in user mode, and its invariants hold. -/
structure UserMode (k : KernelState) : Prop where
  owned : Owned k
  tabled : Tabled k
  running : k.running = true
  task : k.self.task = .user

/-- A store of the process through its page table. -/
def storeEvent (store : Word × Byte) : Occurrence := .act (.store store.1 store.2)

/-- What stores of the current process leave alone. -/
structure LeftByStores (k k' : KernelState) : Prop where
  procs : k'.procs = k.procs
  current : k'.current = k.current
  cache : k'.cache = k.cache
  free : k'.pool.free = k.pool.free
  table : ∀ s, s < pageTableSize →
    k'.pool.entry k.self.kernelFrame s = k.pool.entry k.self.kernelFrame s
  mem : ∀ frame, (∀ s, s < pageTableSize → k.pool.entry k.self.kernelFrame s ≠ frame) →
    k'.pool.mem frame = k.pool.mem frame

section Stores

variable {k k' k'' : KernelState} {b : Board} {va : Word}

theorem LeftByStores.refl (k : KernelState) : LeftByStores k k :=
  ⟨rfl, rfl, rfl, rfl, fun _ _ => rfl, fun _ _ => rfl⟩

theorem LeftByStores.self (h : LeftByStores k k') : k'.self = k.self := by
  rw [KernelState.self, KernelState.self, h.procs, h.current]

theorem LeftByStores.trans (h : LeftByStores k k') (h' : LeftByStores k' k'') :
    LeftByStores k k'' where
  procs := h'.procs.trans h.procs
  current := h'.current.trans h.current
  cache := h'.cache.trans h.cache
  free := h'.free.trans h.free
  table s hs := by
    rw [← h.table s hs, ← h.self]
    exact h'.table s hs
  mem frame hNot := by
    rw [← h.mem frame hNot]
    refine h'.mem frame fun s hs => ?_
    rw [h.self, h.table s hs]
    exact hNot s hs

theorem segment_lt (va : Word) : va.toNat / 0x1000 < pageTableSize := by
  have hAddress := va.isLt
  unfold pageTableSize
  omega

theorem UserMode.entries (h : UserMode k) (hShows : Shows k b) (s : Segment) :
    0x10 ≤ (b.mmu.pageTable s).toNat := by
  rw [hShows.table]
  exact h.tabled.entries k.current (live_current h.owned h.running) s s.isLt

/-- One store in the model. -/
theorem UserMode.store (h : UserMode k) (hShows : Shows k b) (hMapped : ¬ b.mmu.faults va)
    (byte : Byte) :
    ∃ k', Guarded Step Clean k (storeEvent (va, byte)) k' ∧ UserMode k' ∧ LeftByStores k k' ∧
      Shows k' { b with ram := Function.update b.ram (physicalAddress b.mmu va) byte } := by
  have hSelf := live_current h.owned h.running
  have hSegment := segment_lt va
  have hEntry : b.mmu.pageTable (segmentOf va) =
      k.pool.entry k.self.kernelFrame (va.toNat / 0x1000) := hShows.table (segmentOf va)
  generalize hFrame : k.pool.entry k.self.kernelFrame (va.toNat / 0x1000) = frame at hEntry
  have hUsed : frame ≠ frameUnused := hEntry ▸ hMapped
  have hUsable : Usable frame :=
    ⟨hFrame ▸ h.tabled.entries k.current hSelf _ hSegment, hUsed⟩
  have hStack : ∀ q, (k.procs q).state ≠ .unused → (k.procs q).kernelFrame ≠ frame :=
    fun q hq hEq => h.owned.entry_ne_stack hSelf.1 hSelf.2 hq hSegment (hFrame.trans hEq.symm)
  have hPhysical : physicalAddress b.mmu va = frame.toNat * 0x1000 + va.toNat % 0x1000 := by
    rw [physicalAddress_of_mapped hMapped, hEntry, offsetOf]
  -- the page of the process that the store goes to
  let k' : KernelState := { k with pool := k.pool.store frame (va.toNat % 0x1000) byte }
  have hStore : k.userStore va byte = some k' := by
    unfold userStore
    rw [hFrame]
    exact if_neg hUsed
  have hAct : k.act (.store va byte) = some k' := by
    unfold KernelState.act
    rw [h.task]
    exact hStore
  have hStep : k.Step (storeEvent (va, byte)) k' := by
    show (if k.running = true then k.act (.store va byte) else none) = some k'
    rw [if_pos h.running, hAct]
  have hTable : ∀ s, k'.pool.entry k.self.kernelFrame s = k.pool.entry k.self.kernelFrame s :=
    fun s => Pool.store_mem_of_ne (.inl (hStack k.current hSelf.1))
  refine ⟨k', ⟨hStep, trivial⟩, ⟨h.owned.userStore h.running hStore,
    h.tabled.act h.owned h.running hAct trivial, h.running, h.task⟩,
    ⟨rfl, rfl, rfl, rfl, fun s _ => hTable s, fun f hNot => ?_⟩, ⟨fun f offset hf ho => ?_,
    fun s => (hShows.table s).trans (hTable s).symm⟩⟩
  · exact Function.update_of_ne (fun hEq => hNot _ hSegment (hFrame.trans hEq.symm)) _ _
  · show Function.update b.ram (physicalAddress b.mmu va) byte (f.toNat * 0x1000 + offset) =
      (k.pool.store frame (va.toNat % 0x1000) byte).mem f offset
    rw [hPhysical]
    -- the byte stored, and every other one
    by_cases hSame : f = frame ∧ offset = va.toNat % 0x1000
    · obtain ⟨rfl, rfl⟩ := hSame
      simp [Pool.store]
    · have hNe : f ≠ frame ∨ offset ≠ va.toNat % 0x1000 := by
        by_contra hBoth
        push Not at hBoth
        exact hSame hBoth
      rw [Pool.store_mem_of_ne hNe, ← hShows.memory f offset hf ho]
      refine Function.update_of_ne (fun hEq => hSame ?_) _ _
      exact ⟨BitVec.eq_of_toNat_eq (by omega), by omega⟩

/-! ## §2 The core -/

/-- The board shows what some stores of the process make of the model. -/
def ReachesByStores (k : KernelState) (b : Board) : Prop :=
  ∃ (stores : List (Word × Byte)) (k' : KernelState),
    Run (Guarded Step Clean) k (stores.map storeEvent) k' ∧ UserMode k' ∧ LeftByStores k k' ∧
      Shows k' b

/-- What has happened on the board is what some stores do in the model. -/
def ByStores (b b' : Board) : Prop := ∀ k, UserMode k → Shows k b → ReachesByStores k b'

instance : Std.Refl ByStores :=
  ⟨fun _ k hUser hShows => ⟨[], k, .nil k, hUser, .refl k, hShows⟩⟩

instance : IsTrans Board ByStores := by
  refine ⟨fun a b c hab hbc k hUser hShows => ?_⟩
  obtain ⟨stores, k', hRun, hUser', hLeft, hShows'⟩ := hab k hUser hShows
  obtain ⟨stores', k'', hRun', hUser'', hLeft', hShows''⟩ := hbc k' hUser' hShows'
  refine ⟨stores ++ stores', k'', ?_, hUser'', hLeft.trans hLeft', hShows''⟩
  rw [List.map_append]
  exact hRun.append hRun'

/-- The model does not show the latches of the MMU, nor the devices. -/
theorem byStores_of_same {b b' : Board} (hRam : b'.ram = b.ram)
    (hTable : b'.mmu.pageTable = b.mmu.pageTable) : ByStores b b' := by
  intro k hUser hShows
  refine ⟨[], k, .nil k, hUser, .refl k, ?_, ?_⟩
  · rw [hRam]
    exact hShows.memory
  · rw [hTable]
    exact hShows.table

/-- An access of a program is a store, or nothing. -/
theorem keptByAccess_byStores : KeptByAccess machineBus ByStores where
  read va b k hUser hShows := by
    show ReachesByStores k (machineRead va b).2
    rw [machineRead_user (hUser.entries hShows)]
    have hSame : ByStores b (b.translate va) :=
      byStores_of_same rfl (mmuTranslate_pageTable b.mmu va)
    exact hSame k hUser hShows
  write va byte b k hUser hShows := by
    show ReachesByStores k (machineWrite va byte b)
    by_cases hFault : b.mmu.faults va
    · have hLatched : ByStores b (machineWrite va byte b) := by
        rw [machineWrite_unmapped byte hFault]
        exact byStores_of_same rfl rfl
      exact hLatched k hUser hShows
    · obtain ⟨k', hStep, hUser', hLeft, hShows'⟩ := hUser.store hShows hFault byte
      refine ⟨[(va, byte)], k', .cons hStep (.nil k'), hUser', hLeft, ?_⟩
      rw [machineWrite_mapped byte hFault (not_inDevicePage_user (hUser.entries hShows) va)]
      exact hShows'

end Stores

/-! ## §3 Runs -/

section Runs

variable {k k' : KernelState} {m m' : Machine} {e : MachineEvent} {us : List MachineEvent}

/-- **One event of the machine**: the core stores, the devices do not. -/
theorem byStores_step (hStep : UserStep m e m') (h : UserMachine m) :
    UserMachine m' ∧ ByStores m.bus m'.bus := by
  refine ⟨(hStep.confined h (confined_refl m.bus)).1, ?_⟩
  obtain ⟨hPerform, hGuard⟩ := hStep
  -- the devices store to no RAM
  have hDevice : (e.onBoard m.bus).map (fun b => (⟨m.cpu, b⟩ : Machine)) = some m' →
      ByStores m.bus m'.bus := by
    intro hMap
    obtain ⟨c, hEvent, rfl⟩ := Option.map_eq_some_iff.mp hMap
    obtain ⟨hRam, hMmu⟩ := onBoard_frame hEvent
    exact byStores_of_same hRam (congrArg Mmu.pageTable hMmu)
  cases e with
  | uart c => exact hDevice hPerform
  | disk result => exact hDevice hPerform
  | timer => exact hDevice hPerform
  | cpu =>
    have hStays := hGuard rfl
    rw [MachineEvent.perform, cpuIteration_of_stays h hStays] at hPerform
    obtain rfl := Option.some.inj hPerform
    have hRam : (preExecFetch m).bus.ram = m.bus.ram := by
      rw [preExecFetch_user h]
      rfl
    have hFetch : ByStores m.bus (preExecFetch m).bus :=
      byStores_of_same hRam (preExecFetch_pageTable h)
    have hEntries : ∀ s, 0x10 ≤ ((preExecFetch m).bus.mmu.pageTable s).toNat := by
      rw [preExecFetch_pageTable h]
      exact h.entries
    -- the guard: the iteration does not enter the kernel, so it fetches and executes in user mode
    have hInUser : (execNext (preExecFetch m)).bus.mmu.inUser = true :=
      (keeps_execNext keptByAccess_userAccess (preExecFetch m) hEntries).2.trans
        (inPreExec_fetch h).inUser
    have hExec : ByStores (preExecFetch m).bus (execNext (preExecFetch m)).bus :=
      keeps_execNext keptByAccess_byStores (preExecFetch m)
    rw [cpuStepIteration, mmuPreExec_of_stays h hStays, mmuPostExec_inUser hInUser]
    exact IsTrans.trans _ _ _ hFetch hExec

/-- A whole run. -/
theorem byStores_run (hRun : Run UserStep m us m') (h : UserMachine m) :
    ByStores m.bus m'.bus := by
  induction hRun with
  | nil m => exact Std.Refl.refl m.bus
  | cons hHead _ ih =>
    obtain ⟨hUser, hFirst⟩ := byStores_step hHead h
    exact IsTrans.trans _ _ _ hFirst (ih hUser)

/-- What a process in user mode does not touch. -/
structure UntouchedByUser (k k' : KernelState) : Prop where
  procs : k'.procs = k.procs
  current : k'.current = k.current
  cache : k'.cache = k.cache
  free : k'.pool.free = k.pool.free
  /-- Kernel stacks, with the page tables in them. -/
  stack : ∀ p, (k.procs p).state ≠ .unused →
    k'.pool.mem (k.procs p).kernelFrame = k.pool.mem (k.procs p).kernelFrame
  /-- The pages of the others. -/
  page : ∀ p, k.Live p → p ≠ k.current → ∀ s, s < pageTableSize →
    Usable (k.pool.entry (k.procs p).kernelFrame s) →
    k'.pool.mem (k.pool.entry (k.procs p).kernelFrame s) =
      k.pool.mem (k.pool.entry (k.procs p).kernelFrame s)
  freePage : ∀ frame ∈ k.pool.free, Usable frame → k'.pool.mem frame = k.pool.mem frame
  buffer : ∀ frame ∈ k.cache, Usable frame → k'.pool.mem frame = k.pool.mem frame

theorem LeftByStores.untouched (hLeft : LeftByStores k k') (h : UserMode k) :
    UntouchedByUser k k' := by
  have hSelf := live_current h.owned h.running
  have hPrivate : ∀ s, s < pageTableSize → Usable (k.pool.entry k.self.kernelFrame s) →
      Private k k.current s := fun s hs => h.owned.private hSelf hs
  refine ⟨hLeft.procs, hLeft.current, hLeft.cache, hLeft.free, fun p hp => ?_,
    fun p hp hOther s hs hUsable => ?_, fun frame hFree hUsable => ?_, fun frame hCache hUsable => ?_⟩
  · exact hLeft.mem _ fun s hs => h.owned.entry_ne_stack hSelf.1 hSelf.2 hp hs
  · refine hLeft.mem _ fun s' hs' hSame => hOther ?_
    have hMine := hPrivate s' hs' (hSame ▸ hUsable)
    exact (hMine.alone p s hp hs hSame.symm).1
  · refine hLeft.mem _ fun s hs hSame => ?_
    subst hSame
    exact (hPrivate s hs hUsable).free hFree
  · refine hLeft.mem _ fun s hs hSame => ?_
    subst hSame
    exact (hPrivate s hs hUsable).cache hCache

/-- **User mode refines the kernel's view of it**: a kernel that runs from boot without one of the
    rollbacks that go wrong hands the machine to a process. Whatever the process executes, and
    whatever comes in at the devices meanwhile, the kernel runs on with some stores of that process,
    and these leave everything alone but its own pages. -/
theorem user_mode_isolated {mem : Frame → Nat → Byte} {top : Word} {es : List Occurrence}
    (hReach : Run (Guarded Step Clean) (boot mem top) es k) (hRunning : k.running = true)
    (hTask : k.self.task = .user) (hShows : Shows k m.bus) (h : UserMachine m)
    (hRun : Run UserStep m us m') :
    ∃ (stores : List (Word × Byte)) (k' : KernelState),
      Run (Guarded Step Clean) (boot mem top) (es ++ stores.map storeEvent) k' ∧
        Shows k' m'.bus ∧ UntouchedByUser k k' := by
  obtain ⟨hOwned, hTabled⟩ := reachable_tabled hReach
  have hUser : UserMode k := ⟨hOwned, hTabled, hRunning, hTask⟩
  obtain ⟨stores, k', hStores, -, hLeft, hShows'⟩ := byStores_run hRun h k hUser hShows
  exact ⟨stores, k', hReach.append hStores, hShows', hLeft.untouched hUser⟩

end Runs

/-- The kernel behind the first dispatch; every byte is an `STA` of the zero page. -/
def storing : KernelState :=
  { boot (fun _ _ => 0x85) 0x0400 with
    procs := Function.update (boot (fun _ _ => 0x85) 0x0400).procs initSlot
      ⟨.running, 33, initSlot, 0x0400, .user⟩
    running := true }

/-- The machine of "init". -/
def storingMachine : Machine :=
  let m := zeroedMachine 0x0200
  { m with
    bus := { m.bus with
      ram := fun addr => storing.pool.mem (BitVec.ofNat 8 (addr / 0x1000)) (addr % 0x1000)
      mmu := { m.bus.mmu with pageTable := fun s => storing.pool.entry 33 s } } }

theorem storing_reached :
    Run (Guarded Step Clean) (boot (fun _ _ => 0x85) 0x0400) [.dispatch initSlot] storing :=
  .cons ⟨rfl, trivial⟩ (.nil _)

theorem storing_shows : Shows storing storingMachine.bus where
  memory frame offset _ hOffset := by
    have hFrame : (frame.toNat * 0x1000 + offset) / 0x1000 = frame.toNat := by omega
    have hRest : (frame.toNat * 0x1000 + offset) % 0x1000 = offset := by omega
    show storing.pool.mem (BitVec.ofNat 8 ((frame.toNat * 0x1000 + offset) / 0x1000))
      ((frame.toNat * 0x1000 + offset) % 0x1000) = _
    rw [hFrame, hRest, BitVec.ofNat_toNat, BitVec.setWidth_eq]
  table _ := rfl

theorem storing_userMachine : UserMachine storingMachine where
  entries s := by
    show 0x10 ≤ ((boot (fun _ _ => 0x85) 0x0400).pool.entry 33 s).toNat
    rw [boot_entry _ _ s.isLt]
    split
    · decide
    · decide
  stack := by
    show (boot (fun _ _ => 0x85) 0x0400).pool.entry 33 0 ≠ mmuFrameInvalid
    rw [boot_entry _ _ (by decide)]
    decide
  idle := rfl

/-- "init" stores a byte. -/
theorem user_mode_isolated_boot :
    ∃ (stores : List (Word × Byte)) (k' : KernelState),
      Run (Guarded Step Clean) (boot (fun _ _ => 0x85) 0x0400)
        ([.dispatch initSlot] ++ stores.map storeEvent) k' ∧
      Shows k' (cpuStepIteration storingMachine).bus ∧ UntouchedByUser storing k' := by
  have hStays : ¬ EntersKernel storingMachine := by decide +kernel
  have hRun : Run UserStep storingMachine [.cpu] (cpuStepIteration storingMachine) :=
    .cons ⟨cpuIteration_of_stays storing_userMachine hStays, fun _ => hStays⟩ (.nil _)
  exact user_mode_isolated storing_reached rfl rfl storing_shows storing_userMachine hRun

end KernelState

end Xv6502.Kernel
