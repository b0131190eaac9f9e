import Xv6502.Emulator.MemoryMap
import Mathlib.Tactic.Tauto

/-!
# The Memory Windows under Interrupts

`kernel/mmu.c` keeps every window mapping in three places: the MMU register, the
shadow table `kernel_page_table` and `current_process->kernel_low_memory`. They are
written by separate stores, and an interrupt handler that maps and unmaps the same
window can run between any two of them.

This module models the two routines store by store and settles when the three copies
agree at their return:

- `Handler.run_spec`: a properly nested handler resets the hardware entry and the
  tracking entry of every window it touches to the shadow entry, and changes nothing else.
- `mmuMapWindow_coherent_iff`, `mmuUnmapWindow_coherent_iff`: one call.
- `returnsCoherent_iff`: whole kernel runs.
-/

namespace Xv6502.Kernel

open Xv6502.Emulator

/-! ## §1 The three copies -/

/-- The segments `mmu_map_window` accepts: for any other it panics. -/
inductive Window where
  | window1
  | window2
  deriving DecidableEq, Repr

/-- The window entries of the three tables. `kernelLowMemory` is the table of
    `current_process`, or `none` while `current_process` is `NULL`. -/
structure WindowState where
  mmuPageTable : Window → Frame
  kernelPageTable : Window → Frame
  kernelLowMemory : Option (Window → Frame)

namespace WindowState

/-- `MMIO8(MMU_PAGE_TABLE + window) = frame`. -/
def storeMmu (s : WindowState) (w : Window) (f : Frame) : WindowState :=
  { s with mmuPageTable := Function.update s.mmuPageTable w f }

/-- `kernel_page_table[window] = frame`. -/
def storeShadow (s : WindowState) (w : Window) (f : Frame) : WindowState :=
  { s with kernelPageTable := Function.update s.kernelPageTable w f }

/-- `if(current_process != NULL) current_process->kernel_low_memory[window] = frame`. -/
def storeTracking (s : WindowState) (w : Window) (f : Frame) : WindowState :=
  { s with kernelLowMemory := s.kernelLowMemory.map fun k => Function.update k w f }

/-- All three copies of the entry of `w` hold `f`. -/
def Coherent (s : WindowState) (w : Window) (f : Frame) : Prop :=
  s.mmuPageTable w = f ∧ s.kernelPageTable w = f ∧ ∀ k ∈ s.kernelLowMemory, k w = f

/-- Reset the hardware and the tracking entries of the windows in `t` to their shadow. -/
def resync (t : Window → Bool) (s : WindowState) : WindowState :=
  { s with
    mmuPageTable := fun w => if t w then s.kernelPageTable w else s.mmuPageTable w
    kernelLowMemory := s.kernelLowMemory.map fun k w =>
      if t w then s.kernelPageTable w else k w }

theorem resync_resync (t u : Window → Bool) (s : WindowState) :
    resync u (resync t s) = resync (fun w => t w || u w) s := by
  obtain ⟨hw, shadow, track⟩ := s
  simp only [resync, Option.map_map, mk.injEq, true_and]
  constructor
  · funext w
    cases t w <;> cases u w <;> simp
  · congr 1
    funext k w
    cases ht : t w <;> cases hu : u w <;> simp [ht, hu]

@[simp] theorem resync_false (s : WindowState) : resync (fun _ => false) s = s := by
  obtain ⟨hw, shadow, track⟩ := s
  simp [resync]

end WindowState

open WindowState

/-! ## §2 The two routines, store by store -/

/-- The points of `mmu_map_window` and `mmu_unmap_window` between two accesses, named
    by the access that has just been made. -/
inductive StorePoint where
  | readOld
  | storedMmu
  | storedShadow
  | storedTracking
  deriving DecidableEq, Repr

/-- `mmu_map_window`: returns the old frame from the shadow table. `irq` is what the
    interrupt handlers do at each point. -/
def mmuMapWindow (irq : StorePoint → WindowState → WindowState) (w : Window) (f : Frame)
    (s : WindowState) : Frame × WindowState :=
  let outOldFrame := s.kernelPageTable w
  let s := irq .readOld s
  let s := irq .storedMmu (s.storeMmu w f)
  let s := irq .storedShadow (s.storeShadow w f)
  let s := irq .storedTracking (s.storeTracking w f)
  (outOldFrame, s)

/-- `mmu_unmap_window`: it reads no shadow entry, so `readOld` is not one of its points. -/
def mmuUnmapWindow (irq : StorePoint → WindowState → WindowState) (w : Window)
    (oldFrame : Frame) (s : WindowState) : WindowState :=
  let s := irq .storedMmu (s.storeMmu w oldFrame)
  let s := irq .storedShadow (s.storeShadow w oldFrame)
  irq .storedTracking (s.storeTracking w oldFrame)

/-! ## §3 Interrupt handlers -/

/-- The window operations of an interrupt handler, properly nested: `nest w f inner rest`
    maps `w` to `f`, does `inner`, unmaps `w` and goes on with `rest` (`wakeup` is a
    sequence of these on window 2, one for each sleeping process). -/
inductive Handler where
  | done
  | nest (w : Window) (f : Frame) (inner rest : Handler)
  deriving DecidableEq, Repr

namespace Handler

/-- A handler runs with interrupts masked, so nothing comes between its own stores. -/
def run : Handler → WindowState → WindowState
  | .done, s => s
  | .nest w f inner rest, s =>
    let (oldFrame, s) := mmuMapWindow (fun _ => id) w f s
    let s := inner.run s
    rest.run (mmuUnmapWindow (fun _ => id) w oldFrame s)

/-- The handler maps `w` at some point. -/
def touches : Handler → Window → Bool
  | .done, _ => false
  | .nest w _ inner rest, v => v == w || inner.touches v || rest.touches v

/-- **What a nested handler leaves behind**: every window it maps has its hardware and
    tracking entries reset to the shadow entry; nothing else changes. -/
theorem run_spec (h : Handler) (s : WindowState) : h.run s = resync h.touches s := by
  -- on the nesting; an inner handler resets its own windows before the outer one goes on
  induction h generalizing s with
  | done => simp [run, touches]
  | nest w f inner rest ihInner ihRest =>
    have hNest : mmuUnmapWindow (fun _ => id) w (s.kernelPageTable w)
        (resync inner.touches (mmuMapWindow (fun _ => id) w f s).2) =
        resync (fun v => v == w || inner.touches v) s := by
      obtain ⟨hw, shadow, track⟩ := s
      simp only [mmuUnmapWindow, mmuMapWindow, id, storeMmu, storeShadow, storeTracking,
        resync, Option.map_map, Function.update_idem, WindowState.mk.injEq]
      refine ⟨?_, ?_, ?_⟩
      · funext v
        by_cases hv : v = w
        · subst hv; simp
        · simp [hv]
      · simp
      · congr 1
        funext k v
        by_cases hv : v = w
        · subst hv; simp
        · simp [hv]
    simp only [run, ihInner, ihRest]
    rw [show (mmuMapWindow (fun _ => id) w f s).1 = s.kernelPageTable w from rfl, hNest,
      resync_resync]
    rfl

end Handler

/-- The handlers that run at one point, in order. -/
def runHandlers (hs : List Handler) (s : WindowState) : WindowState :=
  hs.foldl (fun s h => h.run s) s

/-- Some handler of the list maps `w`. -/
def anyTouches (hs : List Handler) (w : Window) : Bool :=
  hs.any fun h => h.touches w

theorem runHandlers_spec (hs : List Handler) (s : WindowState) :
    runHandlers hs s = resync (anyTouches hs) s := by
  induction hs generalizing s with
  | nil => exact (resync_false s).symm
  | cons h hs ih =>
    have : runHandlers (h :: hs) s = runHandlers hs (h.run s) := rfl
    rw [this, ih, Handler.run_spec, resync_resync]
    rfl

/-! ## §4 One call -/

/-- The handlers that interrupt a call at each of its points: none while the I flag masks
    them. -/
def irqAt (enabled : Bool) (hs : StorePoint → List Handler) (pt : StorePoint) :
    WindowState → WindowState :=
  runHandlers (if enabled then hs pt else [])

/-- The call that stores `f` in the entry of `w` is not spoiled: no handler maps `w`
    between the store to the MMU and the store to the shadow table, or a later one does so
    before the call returns, or `f` is what the shadow entry holds already. -/
def Undisturbed (enabled : Bool) (hs : StorePoint → List Handler) (w : Window) (f : Frame)
    (s : WindowState) : Prop :=
  enabled = true → anyTouches (hs .storedMmu) w = true →
    anyTouches (hs .storedShadow) w = true ∨ anyTouches (hs .storedTracking) w = true ∨
      s.kernelPageTable w = f

instance (enabled : Bool) (hs : StorePoint → List Handler) (w : Window) (f : Frame)
    (s : WindowState) : Decidable (Undisturbed enabled hs w f s) :=
  inferInstanceAs (Decidable (_ → _ → _))

/-- The handlers of one point as a resynchronisation, whether they are masked or not. -/
theorem irqAt_spec (enabled : Bool) (hs : StorePoint → List Handler) (pt : StorePoint)
    (s : WindowState) :
    irqAt enabled hs pt s = resync (fun w => enabled && anyTouches (hs pt) w) s := by
  unfold irqAt
  rw [runHandlers_spec]
  cases enabled
  · rfl
  · rfl

/-- The three stores of `f`, with a resynchronisation after each, leave the copies in
    agreement exactly when the first one is harmless or repaired. -/
private theorem stores_coherent_iff (t₁ t₂ t₃ : Window → Bool) (w : Window) (f : Frame)
    (s : WindowState) :
    (resync t₃ ((resync t₂ ((resync t₁ (s.storeMmu w f)).storeShadow w f)).storeTracking w f)
      ).Coherent w f ↔
    (t₁ w = true → t₂ w = true ∨ t₃ w = true ∨ s.kernelPageTable w = f) := by
  obtain ⟨hw, shadow, track⟩ := s
  simp only [Coherent, resync, storeMmu, storeShadow, storeTracking, Function.update_self]
  -- the shadow and the tracking copies always end as `f`: only the hardware entry varies
  cases t₁ w <;> cases t₂ w <;> cases t₃ w <;> simp

/-- **One `mmu_map_window`**: the copies agree at its return exactly when the call was
    undisturbed. -/
theorem mmuMapWindow_coherent_iff (enabled : Bool) (hs : StorePoint → List Handler)
    (w : Window) (f : Frame) (s : WindowState) :
    (mmuMapWindow (irqAt enabled hs) w f s).2.Coherent w f ↔ Undisturbed enabled hs w f s := by
  simp only [mmuMapWindow, irqAt_spec, stores_coherent_iff, Undisturbed]
  cases enabled <;> simp [resync]

/-- **One `mmu_unmap_window`**, likewise. -/
theorem mmuUnmapWindow_coherent_iff (enabled : Bool) (hs : StorePoint → List Handler)
    (w : Window) (oldFrame : Frame) (s : WindowState) :
    (mmuUnmapWindow (irqAt enabled hs) w oldFrame s).Coherent w oldFrame ↔
      Undisturbed enabled hs w oldFrame s := by
  simp only [mmuUnmapWindow, irqAt_spec, stores_coherent_iff, Undisturbed]
  cases enabled <;> simp

/-! ## §5 Kernel runs -/

/-- What kernel code outside the handlers does: mask and unmask interrupts, take an
    interrupt between two window calls, map a window, and unmap a window with the frame that
    some `mmu_map_window` has given back. The calls need not be nested: `sys_fork` maps window 1,
    maps window 2, unmaps window 1 and unmaps window 2. -/
inductive Op where
  | interOn
  | interOff
  | interrupt (hs : List Handler)
  | map (w : Window) (f : Frame) (hs : StorePoint → List Handler)
  | unmap (w : Window) (oldFrame : Frame) (hs : StorePoint → List Handler)

/-- A kernel run: the tables, the I flag (`enabled` when clear) and the windows mapped
    and not yet unmapped, each with the frame its `mmu_map_window` gave back. -/
structure KernelRun where
  windows : WindowState
  enabled : Bool
  mapped : List (Window × Frame)

namespace KernelRun

/-- One operation of the run. An `unmap` closes the `map` that it matches. -/
def step (r : KernelRun) : Op → KernelRun
  | .interOn => { r with enabled := true }
  | .interOff => { r with enabled := false }
  | .interrupt hs =>
    { r with windows := runHandlers (if r.enabled then hs else []) r.windows }
  | .map w f hs =>
    -- the caller keeps the frame the window showed before, for its `unmap`
    let (oldFrame, s) := mmuMapWindow (irqAt r.enabled hs) w f r.windows
    { r with windows := s, mapped := (w, oldFrame) :: r.mapped }
  | .unmap w oldFrame hs =>
    { r with windows := mmuUnmapWindow (irqAt r.enabled hs) w oldFrame r.windows
             mapped := r.mapped.erase (w, oldFrame) }

/-- An `unmap` matches a `map`: it is handed the frame that an open `map` of its window gave
    back. -/
def Matched (r : KernelRun) : Op → Prop
  | .unmap w oldFrame _ => (w, oldFrame) ∈ r.mapped
  | _ => True

/-- The window call that `op` makes, if it is one: the window and the frame that all copies
    should hold when it returns. -/
def target : Op → Option (Window × Frame)
  | .map w f _ => some (w, f)
  | .unmap w oldFrame _ => some (w, oldFrame)
  | _ => none

/-- The window call of `op`, if it is one, leaves the copies in agreement when it returns. -/
def ReturnCoherent (r : KernelRun) (op : Op) : Prop :=
  ∀ wf ∈ target op, (r.step op).windows.Coherent wf.1 wf.2

/-- The window call of `op`, if it is one, is undisturbed. -/
def OpUndisturbed (r : KernelRun) (op : Op) : Prop :=
  match op with
  | .map w f hs => Undisturbed r.enabled hs w f r.windows
  | .unmap w oldFrame hs => Undisturbed r.enabled hs w oldFrame r.windows
  | _ => True

/-- `P` holds of every operation of the run, at the state it starts from. -/
def Always (P : KernelRun → Op → Prop) : KernelRun → List Op → Prop
  | _, [] => True
  | r, op :: ops => P r op ∧ Always P (r.step op) ops

theorem Always.congr {P Q : KernelRun → Op → Prop} (h : ∀ r op, P r op ↔ Q r op)
    (r : KernelRun) (ops : List Op) : Always P r ops ↔ Always Q r ops := by
  induction ops generalizing r with
  | nil => exact Iff.rfl
  | cons op ops ih => exact and_congr (h r op) (ih (r.step op))

/-- One operation of a run: its window call returns with the copies in agreement exactly
    when it is undisturbed. -/
theorem returnCoherent_iff_opUndisturbed (r : KernelRun) (op : Op) :
    r.ReturnCoherent op ↔ r.OpUndisturbed op := by
  cases op with
  | interOn => simp [ReturnCoherent, target, OpUndisturbed]
  | interOff => simp [ReturnCoherent, target, OpUndisturbed]
  | interrupt hs => simp [ReturnCoherent, target, OpUndisturbed]
  | map w f hs =>
    simp only [ReturnCoherent, target, OpUndisturbed, Option.mem_def, Option.some.injEq,
      forall_eq']
    exact mmuMapWindow_coherent_iff r.enabled hs w f r.windows
  | unmap w oldFrame hs =>
    simp only [ReturnCoherent, target, OpUndisturbed, Option.mem_def, Option.some.injEq,
      forall_eq']
    exact mmuUnmapWindow_coherent_iff r.enabled hs w oldFrame r.windows

end KernelRun

open KernelRun

/-- **Window coherence over kernel runs**: in every run, from every state of the tables and with
    the calls in any order, every `mmu_map_window` and every `mmu_unmap_window`, whatever frame it
    is handed, returns with all three copies in agreement exactly when no call of the run is
    disturbed between its store to the MMU and its store to the shadow table. A handler leaves the
    windows that it has used as the shadow table has them, which is right wherever it interrupts a
    call but between the first two of its stores. -/
theorem returnsCoherent_iff (r : KernelRun) (ops : List Op) :
    Always ReturnCoherent r ops ↔ Always OpUndisturbed r ops :=
  Always.congr returnCoherent_iff_opUndisturbed r ops

/-- Interrupts enabled, both windows in their default state. -/
def quietRun : KernelRun where
  windows :=
    { mmuPageTable := fun | .window1 => 1 | .window2 => 2
      kernelPageTable := fun | .window1 => 1 | .window2 => 2
      kernelLowMemory := some fun | .window1 => 1 | .window2 => 2 }
  enabled := true
  mapped := []

/-- The window calls that `sys_fork` makes to copy the frame 16 of a parent to the frame 17 of its
    child, with a `wakeup` on window 2 right before the return of each. -/
def forkWindows : List Op :=
  let hs : StorePoint → List Handler
    | .storedTracking => [.nest .window2 18 .done .done]
    | _ => []
  [.map .window1 16 hs, .map .window2 17 hs, .unmap .window1 1 hs, .unmap .window2 2 hs]

-- the calls of `sys_fork` are matched, though they are not nested
example : Always Matched quietRun forkWindows := by
  refine ⟨trivial, trivial, ?_, ?_, trivial⟩
  · show (Window.window1, (1 : Frame)) ∈ [(Window.window2, (2 : Frame)), (.window1, 1)]
    decide
  · show (Window.window2, (2 : Frame)) ∈ [(Window.window2, (2 : Frame))]
    decide

/-- `MAP_PCB` of the process in frame 16, interrupted right after its store to the MMU by a
    `wakeup` that looks at the process in frame 17. -/
def interruptedMapPcb : Op :=
  .map .window2 16 fun
    | .storedMmu => [.nest .window2 17 .done .done]
    | _ => []

/-- The interrupted `MAP_PCB` returns with window 2 of the hardware still on frame 2, while
    the shadow table and the process say 16. -/
theorem interruptedMapPcb_not_coherent :
    ¬ Always ReturnCoherent quietRun [interruptedMapPcb] := by
  intro h
  have hHardware : (quietRun.step interruptedMapPcb).windows.mmuPageTable .window2 = 16 :=
    (h.1 (.window2, 16) rfl).1
  exact absurd hHardware (by decide)

end Xv6502.Kernel
