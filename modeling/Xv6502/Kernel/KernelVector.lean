import Xv6502.Kernel.HandlerViews
import Mathlib.Logic.Relation

/-!
# Interrupts of the Kernel are Transparent

The parts of `_kernel_vector` as triples over views: the bytes of the interrupt frame, of the
registers and of the zero page go to the stack and come back in the opposite order, whatever the C
function has done to the zero page meanwhile. By induction on the depth of the nesting, what
interrupts the handler or the C function is transparent itself.
-/

namespace Xv6502.Kernel.Vector

open Xv6502.Emulator Xv6502.Lib.Interruptible

/-! ## §1 The handler -/

section Handler

variable {n : Byte} {calls : Calls} {handled : Interruption → Machine → Machine → Prop}
  {P Q : View → Prop} {v₀ v w : View}

/-- The nested interruptions are transparent. -/
def Keeps (n : Byte) (handled : Interruption → Machine → Machine → Prop) : Prop :=
  ∀ k m m', handled k m m' → Resumed n m m' (resumesAt k m.cpu.pc)

/-- The machine shows one of the views. -/
def Holds (n : Byte) (P : View → Prop) (m : Machine) : Prop := ∃ v, P v ∧ At n m v

theorem stable_holds (hKeeps : Keeps n handled) : Stable (semantics calls handled) (Holds n P) := by
  rintro m m' ⟨v, hP, hAt⟩ hBetween
  refine ⟨v, hP, ?_⟩
  cases hBetween with
  | inl hDevices => exact hAt.devices hDevices
  | inr hHandled => exact hAt.resume (hKeeps .irq m m' hHandled)

/-- Straight code on views. -/
inductive DoesAll (n : Byte) : List (Statement Board) → View → View → Prop
  | nil (u : View) : DoesAll n [] u u
  | cons {i : Statement Board} {code : List (Statement Board)} {u₁ u₂ u₃ : View} :
      Does n i u₁ u₂ → DoesAll n code u₂ u₃ → DoesAll n (i :: code) u₁ u₃

theorem triple_doesAll (hKeeps : Keeps n handled) {code : List (Statement Board)}
    (h : DoesAll n code v w) :
    Triple (semantics calls handled) (Holds n (· = v)) (.ops code) (Holds n (· = w)) := by
  induction h with
  | nil => exact Triple.skip (stable_holds hKeeps)
  | cons hDoes _ ih =>
    refine Triple.seq (stable_holds hKeeps) (stable_holds hKeeps)
      (Triple.op (stable_holds hKeeps) (stable_holds hKeeps) ?_) ih
    rintro m ⟨_, rfl, hAt⟩
    exact ⟨_, rfl, hDoes m hAt⟩

/-- Straight code. -/
theorem triple_ops (hKeeps : Keeps n handled) {code : List (Statement Board)}
    (h : ∀ v, P v → ∃ w, Q w ∧ DoesAll n code v w) :
    Triple (semantics calls handled) (Holds n P) (.ops code) (Holds n Q) := by
  rintro m m' ⟨v, hP, hAt⟩ hRun
  obtain ⟨w, hQ, hDoes⟩ := h v hP
  obtain ⟨_, rfl, hAt'⟩ := triple_doesAll hKeeps hDoes m m' ⟨v, rfl, hAt⟩ hRun
  exact ⟨_, hQ, hAt'⟩

/-- The bytes of the zero page that have been pushed. -/
def zeroPageBytes (zeroPage : Nat → Byte) : Nat → List Byte
  | 0 => []
  | k + 1 => zeroPage k :: zeroPageBytes zeroPage k

theorem length_zeroPageBytes (zeroPage : Nat → Byte) (k : Nat) :
    (zeroPageBytes zeroPage k).length = k := by
  induction k with
  | zero => rfl
  | succ k ih => rw [zeroPageBytes, List.length_cons, ih]

/-- The frame that the interrupt and the handler push, the last byte first. -/
def interruptFrame (v₀ : View) (status : Byte) (pc : Word) : List Byte :=
  [v₀.cpu.y, v₀.cpu.x, v₀.cpu.a, status, lowByte pc, highByte pc]

/-- So many bytes of the zero page lie on the frame. -/
def Saved (v₀ : View) (status : Byte) (pc : Word) (k : Nat) (v : View) : Prop :=
  Pushed v₀ (zeroPageBytes v₀.zeroPage k ++ interruptFrame v₀ status pc) v

theorem unpushed_break (p : Byte) : (pushedFlags false p &&& 0x10 == 0) = true := by
  revert p
  decide

theorem pushed_break (p : Byte) : (pushedFlags true p &&& 0x10 == 0) = false := by
  revert p
  decide

theorem flags_pushed (b : Bool) (p : Byte) : flags (pushedFlags b p) = flags p := by
  revert p
  cases b <;> decide

/-- The entry has pushed its frame. -/
theorem entryView_pushed {k : Interruption} {m : Machine} (hRoom : n.toNat + 6 ≤ m.cpu.sp.toNat) :
    Pushed (viewOf m) [pushedFlags (k == .brk) m.cpu.p, lowByte (resumesAt k m.cpu.pc),
      highByte (resumesAt k m.cpu.pc)] (entryView k m) := by
  have hSp : (viewOf m).cpu.sp.toNat = m.cpu.sp.toNat := rfl
  have hLast := (((pushed_nil (viewOf m)).push (by rw [hSp, List.length_nil]; omega)
    (highByte (resumesAt k m.cpu.pc))).push (by
      rw [hSp, List.length_cons, List.length_nil]; omega)
    (lowByte (resumesAt k m.cpu.pc))).push (by
      rw [hSp, List.length_cons, List.length_cons, List.length_nil]; omega)
    (pushedFlags (k == .brk) m.cpu.p)
  exact hLast.cpu rfl

/-- What holds when the registers are pushed. -/
structure Entered (v₀ : View) (status : Byte) (pc : Word) (v : View) : Prop where
  pushed : Pushed v₀ [status, lowByte pc, highByte pc] v
  a : v.cpu.a = v₀.cpu.a
  x : v.cpu.x = v₀.cpu.x
  y : v.cpu.y = v₀.cpu.y
  zeroPage : v.zeroPage = v₀.zeroPage

/-- So many bytes are pushed, and `x` counts them. -/
def Pushing (v₀ : View) (status : Byte) (pc : Word) (k : Nat) (v : View) : Prop :=
  Saved v₀ status pc k v ∧ v.cpu.x.toNat = k ∧ v.zeroPage = v₀.zeroPage

theorem triple_registers (status : Byte) (pc : Word) (hKeeps : Keeps n handled)
    (hRoom : 6 ≤ v₀.cpu.sp.toNat) :
    Triple (semantics calls handled) (Holds n (Entered v₀ status pc))
      (.ops [(.pha, implied), (.txa, implied), (.pha, implied), (.tya, implied), (.pha, implied),
        (.ldx, immediate 0)])
      (Holds n (Pushing v₀ status pc 0)) := by
  apply triple_ops hKeeps
  intro v hv
  -- the view behind each instruction
  let v₁ := v.push v.cpu.a
  let v₂ : View := { v₁ with cpu := loadA v.cpu.x v₁.cpu }
  let v₃ := v₂.push v.cpu.x
  let v₄ : View := { v₃ with cpu := loadA v.cpu.y v₃.cpu }
  let v₅ := v₄.push v.cpu.y
  let v₆ : View := { v₅ with cpu := loadX 0 v₅.cpu }
  have hRun : DoesAll n [(.pha, implied), (.txa, implied), (.pha, implied), (.tya, implied),
      (.pha, implied), (.ldx, immediate 0)] v v₆ :=
    .cons does_pha (.cons does_txa (.cons does_pha (.cons does_tya (.cons does_pha
      (.cons (does_ldx 0) (.nil _))))))
  have hA : Pushed v₀ [v.cpu.a, status, lowByte pc, highByte pc] v₁ :=
    hv.pushed.push (by show 3 < _; omega) _
  have hX : Pushed v₀ [v.cpu.x, v.cpu.a, status, lowByte pc, highByte pc] v₃ :=
    (hA.cpu (c := v₂.cpu) rfl).push (by show 4 < _; omega) _
  have hY : Pushed v₀ [v.cpu.y, v.cpu.x, v.cpu.a, status, lowByte pc, highByte pc] v₅ :=
    (hX.cpu (c := v₄.cpu) rfl).push (by show 5 < _; omega) _
  rw [hv.a, hv.x, hv.y] at hY
  exact ⟨v₆, ⟨hY.cpu rfl, rfl, hv.zeroPage⟩, hRun⟩

/-- A turn of the loop `@push`. -/
theorem triple_push (status : Byte) (pc : Word) (hKeeps : Keeps n handled)
    (hRoom : n.toNat + 6 ≤ v₀.cpu.sp.toNat) {k : Nat} (hk : k < n.toNat) :
    Triple (semantics calls handled) (Holds n (Pushing v₀ status pc k))
      (.ops [(.lda, indexedX machineBus 0), (.pha, implied), (.inx, implied), (.cpx, immediate n)])
      (Holds n fun v => Pushing v₀ status pc (k + 1) v ∧
        v.cpu.isSet statusZ = (v.cpu.x - n == 0)) := by
  apply triple_ops hKeeps
  rintro v ⟨hSaved, hX, hZero⟩
  have hN := n.isLt
  -- the view behind each instruction of the turn
  let v₁ : View := { v with cpu := loadA (v₀.zeroPage k) v.cpu }
  let v₂ := v₁.push (v₀.zeroPage k)
  let v₃ : View := { v₂ with cpu := loadX (v.cpu.x + 1) v₂.cpu }
  let v₄ : View := { v₃ with cpu := v₃.cpu.compare v₃.cpu.x n }
  have hLoad : Does n (.lda, indexedX machineBus 0) v v₁ := by
    apply does_lda k (by omega)
    · show (0#16 + v.cpu.x.setWidth 16).toNat = k
      rw [BitVec.zero_add, BitVec.toNat_setWidth]
      omega
    · intro m hAt
      rw [hAt.zeroPage k hk, hZero]
  have hRun : DoesAll n [(.lda, indexedX machineBus 0), (.pha, implied), (.inx, implied),
      (.cpx, immediate n)] v v₄ :=
    .cons hLoad (.cons does_pha (.cons does_inx (.cons (does_cpx n) (.nil _))))
  have hPushed : Saved v₀ status pc (k + 1) v₂ := by
    apply (hSaved.cpu (c := v₁.cpu) rfl).push
    rw [List.length_append, length_zeroPageBytes]
    show k + 6 < _
    omega
  refine ⟨v₄, ⟨⟨(hPushed.cpu (c := v₃.cpu) rfl).cpu rfl, ?_, hZero⟩, ?_⟩, hRun⟩
  · show (v.cpu.x + 1).toNat = k + 1
    bv_omega
  · exact isSet_zero _ _

/-- The loop goes on while there are bytes left. -/
theorem pushing_again {status : Byte} {pc : Word} {k : Nat} (hk : k < n.toNat)
    (h : Pushing v₀ status pc (k + 1) v) (hTest : (!(v.cpu.x - n == 0)) = true) :
    k + 1 < n.toNat := by
  have hDifferent : k + 1 ≠ n.toNat := by
    intro hEq
    have hSame : v.cpu.x = n := BitVec.eq_of_toNat_eq (h.2.1.trans hEq)
    rw [hSame, BitVec.sub_self] at hTest
    exact Bool.noConfusion hTest
  omega

/-- What `bne` and `beq` see. -/
theorem At.zeroSet {m : Machine} (h : At n m v) : zeroSet m = v.cpu.isSet statusZ :=
  h.isSet rfl

/-- What `bpl` sees. -/
theorem At.negativeSet {m : Machine} (h : At n m v) : negativeSet m = v.cpu.isSet statusN :=
  h.isSet rfl

/-- The loop `@push`: it ends with all the bytes on the stack. -/
theorem triple_pushLoop (status : Byte) (pc : Word) (hKeeps : Keeps n handled)
    (hRoom : n.toNat + 6 ≤ v₀.cpu.sp.toNat) (hPos : 0 < n.toNat) :
    Triple (semantics calls handled) (Holds n (Pushing v₀ status pc 0))
      (.again (.ops [(.lda, indexedX machineBus 0), (.pha, implied), (.inx, implied),
        (.cpx, immediate n)]) fun m => !zeroSet m)
      (Holds n (Saved v₀ status pc n.toNat)) := by
  -- a turn pushes one byte more and sets Z at the last one
  have hTurn : Triple (semantics calls handled)
      (Holds n fun v => ∃ k < n.toNat, Pushing v₀ status pc k v)
      (.ops [(.lda, indexedX machineBus 0), (.pha, implied), (.inx, implied), (.cpx, immediate n)])
      (Holds n fun v => ∃ k < n.toNat, Pushing v₀ status pc (k + 1) v ∧
        v.cpu.isSet statusZ = (v.cpu.x - n == 0)) := by
    rintro m m' ⟨v, ⟨k, hk, hPushing⟩, hAt⟩ hRun
    obtain ⟨w, hw, hAt'⟩ := triple_push status pc hKeeps hRoom hk m m' ⟨v, hPushing, hAt⟩ hRun
    exact ⟨w, ⟨k, hk, hw⟩, hAt'⟩
  refine (Triple.again (stable_holds hKeeps) (stable_holds hKeeps) hTurn ?_ ?_).weaken ?_ fun _ h => h
  · rintro m ⟨v, ⟨k, hk, hPushing, hFlag⟩, hAt⟩ hTest
    rw [hAt.zeroSet, hFlag] at hTest
    exact ⟨v, ⟨k + 1, pushing_again hk hPushing hTest, hPushing⟩, hAt⟩
  · rintro m ⟨v, ⟨k, hk, hPushing, hFlag⟩, hAt⟩ hTest
    rw [hAt.zeroSet, hFlag, Bool.not_eq_false', beq_iff_eq] at hTest
    have hEq : k + 1 = n.toNat := by
      rw [← hPushing.2.1]
      bv_omega
    rw [hEq] at hPushing
    exact ⟨v, hPushing.1, hAt⟩
  · rintro m ⟨v, hPushing, hAt⟩
    exact ⟨v, ⟨0, hPos, hPushing⟩, hAt⟩

/-- The status lies behind the zero page and the registers, and the "B" flag decides. -/
theorem triple_test (status : Byte) (pc : Word) (hKeeps : Keeps n handled) :
    Triple (semantics calls handled) (Holds n (Saved v₀ status pc n.toNat))
      (.ops [(.tsx, implied), (.lda, indexedX machineBus (0x0104 + n.setWidth 16)),
        (.and, immediate 0x10)])
      (Holds n fun v => Saved v₀ status pc n.toNat v ∧
        v.cpu.isSet statusZ = (status &&& 0x10 == 0)) := by
  apply triple_ops hKeeps
  intro v hSaved
  let v₁ : View := { v with cpu := loadX v.cpu.sp v.cpu }
  let v₂ : View := { v₁ with cpu := loadA status v₁.cpu }
  let v₃ : View := { v₂ with cpu := loadA (v₂.cpu.a &&& 0x10) v₂.cpu }
  have hDepth := hSaved.depth
  have hTop := v₀.cpu.sp.isLt
  rw [List.length_append, length_zeroPageBytes] at hDepth
  change v.cpu.sp.toNat + (n.toNat + 6) = _ at hDepth
  -- the page does not wrap: saved bytes and registers lie above the pointer, and the status
  -- behind them
  have hN : (BitVec.ofNat 8 (v.cpu.sp.toNat + n.toNat + 4)).toNat = v.cpu.sp.toNat + n.toNat + 4 := by
    rw [BitVec.toNat_ofNat]
    omega
  have hStatus : v.stack (v.cpu.sp.toNat + n.toNat + 4) = status := by
    have hTop : OnTop v.stack v.cpu.sp.toNat
        ((zeroPageBytes v₀.zeroPage n.toNat ++ [v₀.cpu.y, v₀.cpu.x, v₀.cpu.a]) ++
          status :: [lowByte pc, highByte pc]) := by
      rw [List.append_assoc]
      exact hSaved.onTop
    have hGet := hTop.get
    rw [List.length_append, length_zeroPageBytes] at hGet
    rw [← hGet]
    congr 1
    show _ = v.cpu.sp.toNat + 1 + (n.toNat + 3)
    omega
  -- `lda` at `0x0104 + n` from the pointer of `tsx`
  have hLoad : Does n (.lda, indexedX machineBus (0x0104 + n.setWidth 16)) v₁ v₂ := by
    apply does_lda (0x100 + (v.cpu.sp.toNat + n.toNat + 4)) (by omega)
    · show (0x104#16 + n.setWidth 16 + v.cpu.sp.setWidth 16).toNat = _
      rw [BitVec.toNat_add, BitVec.toNat_add, BitVec.toNat_setWidth, BitVec.toNat_setWidth]
      show ((0x104 + _) % _ + _) % _ = _
      omega
    · intro m hAt
      have hByte := hAt.stack (BitVec.ofNat 8 (v.cpu.sp.toNat + n.toNat + 4))
        (by show v.cpu.sp < _; rw [BitVec.lt_def, hN]; omega)
      rw [hN] at hByte
      exact hByte.trans hStatus
  have hRun : DoesAll n [(.tsx, implied), (.lda, indexedX machineBus (0x0104 + n.setWidth 16)),
      (.and, immediate 0x10)] v v₃ :=
    .cons does_tsx (.cons hLoad (.cons (does_and 0x10) (.nil _)))
  exact ⟨v₃, ⟨hSaved.cpu rfl, isSet_zero _ _⟩, hRun⟩

theorem Devices.resumed {m m' : Machine} (hInside : Inside m) (h : Devices m m') :
    Resumed n m m' m.cpu.pc :=
  ((at_viewOf hInside).devices h).resumed ⟨rfl, rfl, rfl, rfl, rfl⟩ (fun _ _ => rfl) (fun _ _ => rfl)
    rfl

/-- The C function, whichever it is. -/
theorem triple_call (status : Byte) (pc : Word) (hKeeps : Keeps n handled)
    (hBalanced : Balanced n calls) (r : Routine) :
    Triple (semantics calls handled) (Holds n (Saved v₀ status pc n.toNat)) (.call r)
      (Holds n (Saved v₀ status pc n.toNat)) := by
  refine Triple.call (stable_holds hKeeps) (stable_holds hKeeps) ?_
  rintro m m' ⟨v, hSaved, hAt⟩ hCall
  obtain ⟨hInside, hSp, hFrame, hStack⟩ := hBalanced _ (by
    intro m₁ m₂ hInside₁ hMeanwhile
    cases hMeanwhile with
    | inl hDevices => exact ⟨_, hDevices.resumed hInside₁⟩
    | inr hHandled =>
      obtain ⟨k, hHandled⟩ := hHandled
      exact ⟨_, hKeeps k m₁ m₂ hHandled⟩) r m m' hAt.inside hCall
  obtain ⟨-, -, hM⟩ := hAt.registers
  refine ⟨viewOf m', hSaved.keep (hSp.trans hM) (fun s hs => ?_) (hFrame.trans hAt.frame),
    at_viewOf hInside⟩
  have hAbove : m.cpu.sp < s := by rwa [hM]
  exact (hStack s hAbove).trans (hAt.stack s hs)

/-- The bytes of the zero page from an index on are back. -/
def Restored (n : Byte) (v₀ : View) (j : Nat) (v : View) : Prop :=
  ∀ i, j ≤ i → i < n.toNat → v.zeroPage i = v₀.zeroPage i

/-- So many bytes are still to be pulled, and `x` is the index of the next one. -/
def Popping (n : Byte) (v₀ : View) (status : Byte) (pc : Word) (k : Nat) (v : View) : Prop :=
  Saved v₀ status pc k v ∧ v.cpu.x = BitVec.ofNat 8 k - 1 ∧ Restored n v₀ k v

theorem triple_index (status : Byte) (pc : Word) (hKeeps : Keeps n handled) :
    Triple (semantics calls handled) (Holds n (Saved v₀ status pc n.toNat))
      (.ops [(.ldx, immediate n), (.dex, implied)])
      (Holds n (Popping n v₀ status pc n.toNat)) := by
  apply triple_ops hKeeps
  intro v hSaved
  let v₁ : View := { v with cpu := loadX n v.cpu }
  let v₂ : View := { v₁ with cpu := loadX (n - 1) v₁.cpu }
  have hRun : DoesAll n [(.ldx, immediate n), (.dex, implied)] v v₂ :=
    .cons (does_ldx n) (.cons does_dex (.nil _))
  refine ⟨v₂, ⟨hSaved.cpu rfl, ?_, fun i hLo hHi => by omega⟩, hRun⟩
  show n - 1 = BitVec.ofNat 8 n.toNat - 1
  rw [BitVec.ofNat_toNat, BitVec.setWidth_eq]

/-- A turn of the loop `@pop`. -/
theorem triple_pop (status : Byte) (pc : Word) (hKeeps : Keeps n handled) {j : Nat}
    (hj : j < n.toNat) :
    Triple (semantics calls handled) (Holds n (Popping n v₀ status pc (j + 1)))
      (.ops [(.pla, implied), (.sta, indexedX machineBus 0), (.dex, implied)])
      (Holds n fun v => Popping n v₀ status pc j v ∧
        v.cpu.isSet statusN = (v.cpu.x &&& 0x80 != 0)) := by
  apply triple_ops hKeeps
  rintro v ⟨hSaved, hIndex, hRestored⟩
  have hX : v.cpu.x.toNat = j := by
    rw [hIndex]
    bv_omega
  obtain ⟨hSp, hA, hPulled⟩ := Pushed.pull hSaved
  let v₁ : View := { v.pull with zeroPage := Function.update v.zeroPage j (v₀.zeroPage j) }
  let v₂ : View := { v₁ with cpu := loadX (v.cpu.x - 1) v₁.cpu }
  -- the byte is pulled into the place it was pushed from
  have hStore : Does n (.sta, indexedX machineBus 0) v.pull v₁ := by
    have hDoes := does_sta (n := n) (v := v.pull) (by show v.cpu.x.toNat < _; omega)
    rw [hA] at hDoes
    change Does n _ _ { v.pull with
      zeroPage := Function.update v.zeroPage v.cpu.x.toNat (v₀.zeroPage j) } at hDoes
    rwa [hX] at hDoes
  have hRun : DoesAll n [(.pla, implied), (.sta, indexedX machineBus 0), (.dex, implied)] v v₂ :=
    .cons (does_pla hSp) (.cons hStore (.cons does_dex (.nil _)))
  refine ⟨v₂, ⟨⟨hPulled.keep rfl (fun _ _ => rfl) rfl, ?_, fun i hLo hHi => ?_⟩, ?_⟩, hRun⟩
  · show v.cpu.x - 1 = BitVec.ofNat 8 j - 1
    rw [← hX, BitVec.ofNat_toNat, BitVec.setWidth_eq]
  · show Function.update v.zeroPage j (v₀.zeroPage j) i = _
    by_cases hEq : i = j
    · rw [hEq, Function.update_self]
    · rw [Function.update_of_ne hEq]
      exact hRestored i (by omega) hHi
  · exact isSet_negative _ _

theorem negative_iff (byte : Byte) : (byte &&& 0x80 != 0) = decide (128 ≤ byte.toNat) := by
  revert byte
  decide

/-- The loop goes on until the first byte is restored: below 128 no index is negative. -/
theorem popping_again {status : Byte} {pc : Word} {j : Nat} (hj : j < n.toNat)
    (hMax : n.toNat ≤ 128) (h : Popping n v₀ status pc j v) :
    (v.cpu.x &&& 0x80 != 0) = (j == 0) := by
  rw [negative_iff, h.2.1]
  cases j with
  | zero => rfl
  | succ i =>
    rw [beq_eq_false_iff_ne.mpr (Nat.succ_ne_zero i), decide_eq_false_iff_not]
    bv_omega

/-- The loop `@pop`: it ends with the whole zero page of the compiled code restored. -/
theorem triple_popLoop (status : Byte) (pc : Word) (hKeeps : Keeps n handled)
    (hPos : 0 < n.toNat) (hMax : n.toNat ≤ 128) :
    Triple (semantics calls handled) (Holds n (Popping n v₀ status pc n.toNat))
      (.again (.ops [(.pla, implied), (.sta, indexedX machineBus 0), (.dex, implied)])
        fun m => !negativeSet m)
      (Holds n (Popping n v₀ status pc 0)) := by
  -- the index goes down and is negative behind the first byte
  have hTurn : Triple (semantics calls handled)
      (Holds n fun v => ∃ j < n.toNat, Popping n v₀ status pc (j + 1) v)
      (.ops [(.pla, implied), (.sta, indexedX machineBus 0), (.dex, implied)])
      (Holds n fun v => ∃ j < n.toNat, Popping n v₀ status pc j v ∧
        v.cpu.isSet statusN = (v.cpu.x &&& 0x80 != 0)) := by
    rintro m m' ⟨v, ⟨j, hj, hPopping⟩, hAt⟩ hRun
    obtain ⟨w, hw, hAt'⟩ := triple_pop status pc hKeeps hj m m' ⟨v, hPopping, hAt⟩ hRun
    exact ⟨w, ⟨j, hj, hw⟩, hAt'⟩
  refine (Triple.again (stable_holds hKeeps) (stable_holds hKeeps) hTurn ?_ ?_).weaken ?_ fun _ h => h
  · rintro m ⟨v, ⟨j, hj, hPopping, hFlag⟩, hAt⟩ hTest
    rw [hAt.negativeSet, hFlag, popping_again hj hMax hPopping] at hTest
    obtain ⟨i, rfl⟩ := Nat.exists_eq_succ_of_ne_zero (by simpa using hTest)
    exact ⟨v, ⟨i, by omega, hPopping⟩, hAt⟩
  · rintro m ⟨v, ⟨j, hj, hPopping, hFlag⟩, hAt⟩ hTest
    rw [hAt.negativeSet, hFlag, popping_again hj hMax hPopping] at hTest
    have hZero : j = 0 := by simpa using hTest
    rw [hZero] at hPopping
    exact ⟨v, hPopping, hAt⟩
  · rintro m ⟨v, hPopping, hAt⟩
    have hLast : n.toNat - 1 + 1 = n.toNat := by omega
    rw [← hLast] at hPopping
    exact ⟨v, ⟨n.toNat - 1, by omega, hPopping⟩, hAt⟩

/-- What the interrupted code finds in the end. -/
structure Returned (n : Byte) (v₀ : View) (status : Byte) (pc : Word) (v : View) : Prop where
  a : v.cpu.a = v₀.cpu.a
  x : v.cpu.x = v₀.cpu.x
  y : v.cpu.y = v₀.cpu.y
  p : v.cpu.p = flags status
  sp : v.cpu.sp = v₀.cpu.sp
  pc : v.cpu.pc = pc
  restored : Restored n v₀ 0 v
  below : ∀ s < 0x100, v₀.cpu.sp.toNat < s → v.stack s = v₀.stack s
  frame : v.frame = v₀.frame

/-- The registers, and `RTI`. -/
theorem triple_return (status : Byte) (pc : Word) (hKeeps : Keeps n handled) :
    Triple (semantics calls handled)
      (Holds n (Popping n v₀ status pc 0))
      (.ops [(.pla, implied), (.tay, implied), (.pla, implied), (.tax, implied), (.pla, implied),
        (.rti, implied)])
      (Holds n (Returned n v₀ status pc)) := by
  apply triple_ops hKeeps
  rintro v ⟨hSaved, -, hRestored⟩
  -- the three registers in the reverse order, then status and return address
  obtain ⟨hSp₁, hY, hPulled₁⟩ := Pushed.pull hSaved
  let v₁ : View := { v.pull with cpu := loadY v.pull.cpu.a v.pull.cpu }
  obtain ⟨hSp₂, hX, hPulled₂⟩ := Pushed.pull (hPulled₁.cpu (c := v₁.cpu) rfl)
  let v₂ : View := { v₁.pull with cpu := loadX v₁.pull.cpu.a v₁.pull.cpu }
  obtain ⟨hSp₃, hA, hPulled₃⟩ := Pushed.pull (hPulled₂.cpu (c := v₂.cpu) rfl)
  obtain ⟨hRoom, hSp, hP, hPc⟩ := hPulled₃.return
  have hRun : DoesAll n [(.pla, implied), (.tay, implied), (.pla, implied), (.tax, implied),
      (.pla, implied), (.rti, implied)] v v₂.pull.return :=
    .cons (does_pla hSp₁) (.cons does_tay (.cons (does_pla hSp₂) (.cons does_tax
      (.cons (does_pla hSp₃) (.cons (does_rti hRoom) (.nil _))))))
  exact ⟨v₂.pull.return,
    { a := hA
      x := hX
      y := hY
      p := hP
      sp := hSp
      pc := hPc.trans (wordOf_low_high pc)
      restored := hRestored
      below := hPulled₃.below
      frame := hPulled₃.frame }, hRun⟩

/-- The first part of the handler ends before the call, and the flag tells the two ways in apart. -/
theorem triple_saveContext {k : Interruption} {m : Machine} (hKeeps : Keeps n handled)
    (hRoom : n.toNat + 6 ≤ m.cpu.sp.toNat) (hPos : 0 < n.toNat) :
    Triple (semantics calls handled) (Holds n (· = entryView k m)) (saveContext n)
      (Holds n fun v => Saved (viewOf m) (pushedFlags (k == .brk) m.cpu.p) (resumesAt k m.cpu.pc)
        n.toNat v ∧ v.cpu.isSet statusZ = (k == .irq)) := by
  have hStable : ∀ P, Stable (semantics calls handled) (Holds n P) := fun P => stable_holds hKeeps
  have hRoom₀ : n.toNat + 6 ≤ (viewOf m).cpu.sp.toNat := hRoom
  refine Triple.seq (hStable _) (hStable _) ?_ (Triple.seq (hStable _) (hStable _)
    (triple_pushLoop (pushedFlags (k == .brk) m.cpu.p) (resumesAt k m.cpu.pc) hKeeps hRoom₀ hPos) ?_)
  · refine (@triple_registers n calls handled (viewOf m) (pushedFlags (k == .brk) m.cpu.p)
      (resumesAt k m.cpu.pc) hKeeps (by omega)).weaken ?_ fun _ h => h
    rintro m' ⟨v, rfl, hAt⟩
    exact ⟨_, ⟨entryView_pushed hRoom, rfl, rfl, rfl, rfl⟩, hAt⟩
  · refine (triple_test _ _ hKeeps).weaken (fun _ h => h) ?_
    rintro m' ⟨v, ⟨hSaved, hFlag⟩, hAt⟩
    refine ⟨v, ⟨hSaved, hFlag.trans ?_⟩, hAt⟩
    cases k with
    | irq => exact unpushed_break m.cpu.p
    | brk => exact pushed_break m.cpu.p

theorem triple_restoreContext (status : Byte) (pc : Word) (hKeeps : Keeps n handled)
    (hPos : 0 < n.toNat) (hMax : n.toNat ≤ 128) :
    Triple (semantics calls handled) (Holds n (Saved v₀ status pc n.toNat)) (restoreContext n)
      (Holds n (Returned n v₀ status pc)) := by
  have hStable : ∀ P, Stable (semantics calls handled) (Holds n P) := fun P => stable_holds hKeeps
  exact Triple.seq (hStable _) (hStable _) (triple_index status pc hKeeps) (Triple.seq (hStable _)
    (hStable _) (triple_popLoop status pc hKeeps hPos hMax) (triple_return status pc hKeeps))

/-- The whole handler. -/
theorem triple_kernelVector {k : Interruption} {m : Machine} (hKeeps : Keeps n handled)
    (hBalanced : Balanced n calls) (hRoom : n.toNat + 6 ≤ m.cpu.sp.toNat) (hPos : 0 < n.toNat)
    (hMax : n.toNat ≤ 128) :
    Triple (semantics calls handled) (Holds n (· = entryView k m)) (kernelVector n)
      (Holds n (Returned n (viewOf m) (pushedFlags (k == .brk) m.cpu.p)
        (resumesAt k m.cpu.pc))) := by
  have hStable : ∀ P, Stable (semantics calls handled) (Holds n P) := fun P => stable_holds hKeeps
  refine Triple.seq (hStable _) (hStable _) (triple_saveContext hKeeps hRoom hPos)
    (Triple.seq (hStable _) (hStable _) ?_ (triple_restoreContext _ _ hKeeps hPos hMax))
  refine Triple.weaken (Triple.branch (hStable (Saved (viewOf m) _ _ n.toNat)) (hStable _)
    ((triple_call _ _ hKeeps hBalanced .deviceInterrupt).weaken (fun _ h => h.1) fun _ h => h)
    ((triple_call _ _ hKeeps hBalanced .kernelDebugger).weaken (fun _ h => h.1) fun _ h => h)) ?_
    fun _ h => h
  rintro m' ⟨v, ⟨hSaved, -⟩, hAt⟩
  exact ⟨v, hSaved, hAt⟩

/-! The handler gets to its call, and back from it. -/

/-- The loop `@push` has a run: every turn leaves one byte less. -/
theorem exists_pushLoop {status : Byte} {pc : Word} {m : Machine} (hKeeps : Keeps n handled)
    (hRoom : n.toNat + 6 ≤ v₀.cpu.sp.toNat) (hPos : 0 < n.toNat)
    (hAt : Holds n (Pushing v₀ status pc 0) m) :
    ∃ m', Runs (semantics calls handled) (.again (.ops [(.lda, indexedX machineBus 0),
      (.pha, implied), (.inx, implied), (.cpx, immediate n)]) fun m => !zeroSet m) m m' := by
  refine Runs.exists_again (P := fun left m => ∃ k < n.toNat, n.toNat - k = left ∧
    Holds n (Pushing v₀ status pc k) m) ?_ n.toNat m ⟨0, hPos, rfl, hAt⟩
  rintro left m₁ ⟨k, hk, rfl, hAt₁⟩
  obtain ⟨m₂, hRun, v, ⟨hPushing, hFlag⟩, hAt₂⟩ :=
    (@triple_push n calls handled v₀ status pc hKeeps hRoom k hk).exists_ops hAt₁
  refine ⟨m₂, hRun, fun hTest => ?_⟩
  rw [hAt₂.zeroSet, hFlag] at hTest
  have hMore := pushing_again hk hPushing hTest
  exact ⟨n.toNat - (k + 1), by omega, k + 1, hMore, rfl, v, hPushing, hAt₂⟩

/-- So has the loop `@pop`. -/
theorem exists_popLoop {status : Byte} {pc : Word} {m : Machine} (hKeeps : Keeps n handled)
    (hPos : 0 < n.toNat) (hMax : n.toNat ≤ 128) (hAt : Holds n (Popping n v₀ status pc n.toNat) m) :
    ∃ m', Runs (semantics calls handled) (.again (.ops [(.pla, implied),
      (.sta, indexedX machineBus 0), (.dex, implied)]) fun m => !negativeSet m) m m' := by
  have hLast : n.toNat - 1 + 1 = n.toNat := by omega
  rw [← hLast] at hAt
  refine Runs.exists_again (P := fun j m => j < n.toNat ∧ Holds n (Popping n v₀ status pc (j + 1)) m)
    ?_ (n.toNat - 1) m ⟨by omega, hAt⟩
  rintro j m₁ ⟨hj, hAt₁⟩
  obtain ⟨m₂, hRun, v, ⟨hPopping, hFlag⟩, hAt₂⟩ :=
    (@triple_pop n calls handled v₀ status pc hKeeps j hj).exists_ops hAt₁
  refine ⟨m₂, hRun, fun hTest => ?_⟩
  rw [hAt₂.negativeSet, hFlag, popping_again hj hMax hPopping] at hTest
  obtain ⟨i, rfl⟩ := Nat.exists_eq_succ_of_ne_zero (n := j) (by simpa using hTest)
  exact ⟨i, by omega, by omega, v, hPopping, hAt₂⟩

theorem exists_saveContext {k : Interruption} {m : Machine} (hKeeps : Keeps n handled)
    (hReady : Ready n k m) (hPos : 0 < n.toNat) :
    ∃ m', Runs (semantics calls handled) (saveContext n) (enter k m) m' := by
  have hRoom : n.toNat + 6 ≤ (viewOf m).cpu.sp.toNat := hReady.room
  have hEntered : Entered (viewOf m) (pushedFlags (k == .brk) m.cpu.p) (resumesAt k m.cpu.pc)
      (entryView k m) := ⟨entryView_pushed hReady.room, rfl, rfl, rfl, rfl⟩
  obtain ⟨m₁, hRun₁, hAt₁⟩ := (@triple_registers n calls handled (viewOf m) _ _ hKeeps (by omega)).exists_ops
    ⟨_, hEntered, enter_at hReady.toInterruptible⟩
  obtain ⟨m₂, hRun₂⟩ := @exists_pushLoop n calls handled (viewOf m) _ _ m₁ hKeeps hRoom hPos hAt₁
  have hAt₂ := triple_pushLoop _ _ hKeeps hRoom hPos m₁ m₂ hAt₁ hRun₂
  obtain ⟨m₃, hRun₃, -⟩ := (@triple_test n calls handled (viewOf m) _ _ hKeeps).exists_ops hAt₂
  exact ⟨m₃, .seq hRun₁ (.seq hRun₂ hRun₃)⟩

theorem exists_restoreContext {status : Byte} {pc : Word} {m : Machine} (hKeeps : Keeps n handled)
    (hPos : 0 < n.toNat) (hMax : n.toNat ≤ 128) (hAt : Holds n (Saved v₀ status pc n.toNat) m) :
    ∃ m', Runs (semantics calls handled) (restoreContext n) m m' := by
  obtain ⟨m₁, hRun₁, hAt₁⟩ := (@triple_index n calls handled v₀ status pc hKeeps).exists_ops hAt
  obtain ⟨m₂, hRun₂⟩ := @exists_popLoop n calls handled v₀ status pc m₁ hKeeps hPos hMax hAt₁
  have hAt₂ := triple_popLoop status pc hKeeps hPos hMax m₁ m₂ hAt₁ hRun₂
  obtain ⟨m₃, hRun₃, -⟩ := (@triple_return n calls handled v₀ status pc hKeeps).exists_ops hAt₂
  exact ⟨m₃, .seq hRun₁ (.seq hRun₂ hRun₃)⟩

end Handler

/-! ## §2 Transparency -/

/-- The routine for an interruption. -/
def routineOf : Interruption → Routine
  | .irq => .deviceInterrupt
  | .brk => .kernelDebugger

/-- The routine that the branch behind `saveContext` calls. -/
def selected (m : Machine) : Routine := if zeroSet m then .deviceInterrupt else .kernelDebugger

section Transparency

variable {n : Byte} {calls : Calls}

/-- What the interrupted code finds is what `Resumed` says. -/
theorem Returned.resumed {m m' : Machine} {v : View} {k : Interruption} {pc : Word}
    (h : Returned n (viewOf m) (pushedFlags (k == .brk) m.cpu.p) pc v) (hAt : At n m' v) :
    Resumed n m m' pc := by
  have hResumed := hAt.resumed (m := m)
    ⟨h.a, h.x, h.y, h.p.trans (flags_pushed _ _), h.sp⟩
    (fun i hi => h.restored i (Nat.zero_le i) hi) (fun s hs => h.below s.toNat s.isLt hs) h.frame
  rwa [h.pc] at hResumed

/-- **Nested interruptions are transparent**, however deep they are nested. -/
theorem handled_keeps (hBalanced : Balanced n calls) (hPos : 0 < n.toNat) (hMax : n.toNat ≤ 128)
    (depth : Nat) : Keeps n (Handled n calls depth) := by
  induction depth with
  | zero => exact fun _ _ _ hHandled => hHandled.elim
  | succ depth ih =>
    rintro k m m' ⟨hReady, hRun⟩
    obtain ⟨v, hReturned, hAt⟩ := triple_kernelVector ih hBalanced hReady.room hPos hMax
      (enter k m) m' ⟨_, rfl, enter_at hReady.toInterruptible⟩ hRun
    exact hReturned.resumed hAt

/-- What is said of an interruption of the kernel. -/
structure Transparent (n : Byte) (calls : Calls) (depth : Nat) (k : Interruption) (m : Machine) :
    Prop where
  /-- The handler gets to its call. -/
  reaches : ∃ m', Runs (semantics calls (Handled n calls depth)) (saveContext n) (enter k m) m'
  /-- It calls the routine for the interruption. -/
  routes : ∀ m', Runs (semantics calls (Handled n calls depth)) (saveContext n) (enter k m) m' →
    selected m' = routineOf k
  /-- If the routine returns, so does the handler. -/
  finishes : ∀ m₁ m₂, Runs (semantics calls (Handled n calls depth)) (saveContext n) (enter k m) m₁ →
    Runs (semantics calls (Handled n calls depth)) (.call (routineOf k)) m₁ m₂ →
    ∃ m', Handled n calls (depth + 1) k m m'
  /-- Behind the `RTI` the interrupted code finds everything as it was. -/
  resumes : ∀ m', Handled n calls (depth + 1) k m m' → Resumed n m m' (resumesAt k m.cpu.pc)

theorem selected_eq {m' : Machine} {k : Interruption} (h : zeroSet m' = (k == .irq)) :
    selected m' = routineOf k := by
  unfold selected
  rw [h]
  cases k <;> rfl

/-- **Interrupts of the kernel are transparent.** By induction on the depth: what is saved on the
    way in lies above the stack pointer of everything that runs in between, interrupts in the
    handler included. -/
theorem kernelVector_transparent (hPos : 0 < n.toNat) (hMax : n.toNat ≤ 128)
    (hBalanced : Balanced n calls) (depth : Nat) (k : Interruption) (m : Machine)
    (hReady : Ready n k m) : Transparent n calls depth k m := by
  have hKeeps := handled_keeps hBalanced hPos hMax depth
  have hEnter : Holds n (· = entryView k m) (enter k m) :=
    ⟨_, rfl, enter_at hReady.toInterruptible⟩
  have hSave := @triple_saveContext n calls _ k m hKeeps hReady.room hPos
  -- the saved "B" flag tells the two entries apart
  have hFlag : ∀ m', Runs (semantics calls (Handled n calls depth)) (saveContext n) (enter k m) m' →
      zeroSet m' = (k == .irq) := by
    intro m' hRun
    obtain ⟨v, ⟨-, hZero⟩, hAt⟩ := hSave _ m' hEnter hRun
    exact hAt.zeroSet.trans hZero
  refine
    { reaches := exists_saveContext hKeeps hReady hPos
      routes := fun m' hRun => selected_eq (hFlag m' hRun)
      finishes := ?_
      resumes := handled_keeps hBalanced hPos hMax (depth + 1) k m }
  intro m₁ m₂ hRun hCall
  obtain ⟨v, ⟨hSaved, -⟩, hAt⟩ := hSave _ m₁ hEnter hRun
  -- the handler is balanced and returns with the saved bytes still on the stack; interrupts
  -- inside it are covered by the depth below
  have hBack := triple_call _ _ hKeeps hBalanced (routineOf k) m₁ m₂ ⟨v, hSaved, hAt⟩ hCall
  obtain ⟨m', hRest⟩ := @exists_restoreContext n calls _ _ _ _ m₂ hKeeps hPos hMax hBack
  have hBranch : Runs (semantics calls (Handled n calls depth))
      (.branch zeroSet (.call .deviceInterrupt) (.call .kernelDebugger)) m₁ m₂ := by
    have hZero := hFlag m₁ hRun
    cases k with
    | irq => exact .left hZero hCall
    | brk => exact .right hZero hCall
  exact ⟨m', hReady, .seq hRun (.seq hBranch hRest)⟩

end Transparency

/-! ## §3 A kernel with a pending interrupt -/

/-- C functions that find nothing to do. -/
def idleCalls : Calls := fun meanwhile _ m m' => Relation.ReflTransGen meanwhile m m'

theorem idleCalls_balanced (n : Byte) : Balanced n idleCalls := by
  intro meanwhile hMeanwhile _ m m' hInside hCall
  induction hCall with
  | refl => exact ⟨hInside, rfl, rfl, fun _ _ => rfl⟩
  | tail _ hStep ih =>
    obtain ⟨hInside₁, hSp, hFrame, hStack⟩ := ih
    obtain ⟨pc, hResumed⟩ := hMeanwhile _ _ hInside₁ hStep
    refine ⟨hResumed.inside, hResumed.sp.trans hSp, hResumed.frame.trans hFrame, fun s hs => ?_⟩
    exact (hResumed.stack s (by rw [hSp]; exact hs)).trans (hStack s hs)

/-- The kernel on the frame 16, with a byte at `0x0204`. -/
def interruptedKernel (sp byte : Byte) : Machine where
  cpu := ⟨1, 2, 3, sp, 0x4000, 0, 0, 0, false, false⟩
  bus :=
    { ram := fun addr => if addr = 0x10204 then byte else 0
      rom := ⟨0, fun _ => 0⟩
      uart := ⟨0, 0, 0⟩
      disk := ⟨fun _ => 0, fun _ => 0, 0, 0, 0, 0, 0⟩
      mmu :=
        { pageTable := fun s => if s = 0 then 16 else BitVec.ofNat 8 s
          prev := 15, watchdog := 0, cause := 0, va := 0, opcode := 0, inUser := false
          pendingNmi := false }
      timer := ⟨0, 0, 0, 0, 0⟩
      plic := ⟨0, true⟩ }

theorem interruptedKernel_interruptible (sp byte : Byte) :
    Interruptible .irq (interruptedKernel sp byte) where
  mapped :=
    { low := by show (16 : Byte) ≠ 15; decide
      valid := by show (16 : Byte) ≠ 0xff; decide
      kernel := rfl }
  idle := rfl
  takes := by
    show (true && !((0 : Byte) &&& statusI != 0)) = true
    decide

/-- Everything is found again, with room for the frame of one byte of zero page. -/
theorem interruptedKernel_transparent :
    Transparent 1 idleCalls 3 .irq (interruptedKernel 0x80 0) :=
  kernelVector_transparent (by decide) (by decide) (idleCalls_balanced 1) 3 .irq _
    ⟨interruptedKernel_interruptible 0x80 0, by decide⟩

/-- Where the frame just fits, the pointer is `0xFF` behind it, and the status is looked for behind
    the stack page. -/
theorem kernelVector_misroutes :
    ¬ ∀ (n : Byte) (calls : Calls) (depth : Nat) (k : Interruption) (m : Machine), 0 < n.toNat →
      n.toNat ≤ 128 → Balanced n calls → Interruptible k m → n.toNat + 5 ≤ m.cpu.sp.toNat →
        Transparent n calls depth k m := by
  intro hAll
  have hRoutes := (hAll 1 idleCalls 0 .irq (interruptedKernel 6 0x10) (by decide) (by decide)
    (idleCalls_balanced 1) (interruptedKernel_interruptible 6 0x10) (by decide)).routes
  have hRun := hRoutes _ (.seq (.ops _ _) (.seq (.done (.ops _ _) (by decide +kernel)) (.ops _ _)))
  exact absurd hRun (by decide +kernel)

end Xv6502.Kernel.Vector
