import Xv6502.Kernel.Trampoline

/-!
# What the Life Raft Carries

The machine runs through `_irq_handler` in 101 instructions and through `_return_from_trap` in 96,
whatever its devices do meanwhile. Behind the first the registers of the program and its last segment
are in the life raft and the kernel is mapped (`irq_handler_saves`); behind the second the program that
the life raft describes goes on, with the page table that is there (`return_from_trap_resumes`).
-/

namespace Xv6502.Kernel.Trap

open Xv6502.Emulator Xv6502.Lib

/-! ## §1 The registers of the program -/

/-- The byte of the life raft at this offset. -/
def raft (L : Layout) (ram : Nat → Byte) (i : Nat) : Byte := ram (L.userContext.toNat + i)

/-- The memory when the registers are in the life raft. -/
def contextRam (L : Layout) (v : Inner) : Nat → Byte :=
  let base := L.userContext.toNat
  let top := Inner.stackAt v
  Function.update (Function.update (Function.update (Function.update (Function.update
    (Function.update (Function.update v.ram (base + 4) v.a) (base + 6) v.y) (base + 5) v.x)
    (base + 1) (v.ram (top (v.sp + 1)))) (base + 2) (v.ram (top (v.sp + 1 + 1))))
    (base + 3) (v.ram (top (v.sp + 1 + 1 + 1)))) (base + 0) (v.sp + 1 + 1 + 1)

/-- The registers are in the life raft, and the kernel's own stack is in use. -/
structure ContextSaved (L : Layout) (v w : Inner) : Prop where
  x : w.x = 0
  y : w.y = v.y
  sp : w.sp = raft L v.ram 7
  ram : w.ram = contextRam L v
  pageTable : w.pageTable = v.pageTable
  prev : w.prev = v.prev

section Entry

variable {L : Layout} {start : Word} {code : List Line} {v w : Inner}

/-- The stack is not in the life raft. -/
theorem Linked.stackAt_ne (hLinked : Linked L start code) (h : Mapped v) (sp : Byte) {i : Nat}
    (hi : i < 40) : Inner.stackAt v sp ≠ L.userContext.toNat + i := by
  have hOutside := h.stackAt_outside sp
  obtain ⟨hBase, hRaft⟩ := hLinked.bounds
  omega

theorem saveContext_straight (hLinked : Linked L start code) (h : Mapped v)
    (hMasked : v.masked = true) :
    ∃ w, Straight L v (saveContext L) v w ∧ ContextSaved L v w := by
  let base := L.userContext.toNat
  let p := v.ram (Inner.stackAt v (v.sp + 1))
  let pcl := v.ram (Inner.stackAt v (v.sp + 1 + 1))
  let pch := v.ram (Inner.stackAt v (v.sp + 1 + 1 + 1))
  let v₁ := Inner.store v (base + 4) v.a
  let v₂ := Inner.store v₁ (base + 6) v.y
  let v₃ := Inner.store v₂ (base + 5) v.x
  let v₄ := Inner.loadA { v₃ with sp := v.sp + 1 } p
  let v₅ := Inner.store v₄ (base + 1) p
  let v₆ := Inner.loadA { v₅ with sp := v.sp + 1 + 1 } pcl
  let v₇ := Inner.store v₆ (base + 2) pcl
  let v₈ := Inner.loadA { v₇ with sp := v.sp + 1 + 1 + 1 } pch
  let v₉ := Inner.store v₈ (base + 3) pch
  let v₁₀ := Inner.loadX v₉ (v.sp + 1 + 1 + 1)
  let v₁₁ := Inner.store v₁₀ (base + 0) (v.sp + 1 + 1 + 1)
  let v₁₂ := Inner.loadX v₁₁ (raft L v.ram 7)
  let v₁₃ : Inner := { v₁₂ with sp := raft L v.ram 7 }
  let v₁₄ := Inner.loadX v₁₃ (lowByte (BitVec.setWidth 16 (0 : Byte)))
  have hRaft : ∀ i, base + i < 0xf000 ∨ base ≤ base + i := fun i => .inr (Nat.le_add_right _ _)
  have k₀ : Kept L v v := ⟨hMasked, h.kernel, fun _ _ _ => rfl⟩
  have k₁ : Kept L v v₁ := k₀.store (hRaft 4) _
  have k₂ : Kept L v v₂ := k₁.store (hRaft 6) _
  have k₃ : Kept L v v₃ := k₂.store (hRaft 5) _
  have k₄ : Kept L v v₄ := k₃.registers rfl rfl rfl
  have k₅ : Kept L v v₅ := k₄.store (hRaft 1) _
  have k₆ : Kept L v v₆ := k₅.registers rfl rfl rfl
  have k₇ : Kept L v v₇ := k₆.store (hRaft 2) _
  have k₈ : Kept L v v₈ := k₇.registers rfl rfl rfl
  have k₉ : Kept L v v₉ := k₈.store (hRaft 3) _
  have k₁₀ : Kept L v v₁₀ := k₉.registers rfl rfl rfl
  have k₁₁ : Kept L v v₁₁ := k₁₀.store (hRaft 0) _
  have k₁₂ : Kept L v v₁₂ := k₁₁.registers rfl rfl rfl
  have k₁₃ : Kept L v v₁₃ := k₁₂.registers rfl rfl rfl
  have k₁₄ : Kept L v v₁₄ := k₁₃.registers rfl rfl rfl
  -- the stores so far are not on the stack of the program
  have hP : ReadsAs v₃ (stackAddress (v.sp + 1)) p := by
    have hRead := readsAs_stack (v := v₃) ⟨h.low, h.valid, h.kernel⟩ (v.sp + 1)
    have hSame : v₃.ram (Inner.stackAt v₃ (v.sp + 1)) = p := by
      show Function.update (Function.update (Function.update v.ram (base + 4) _) (base + 6) _)
        (base + 5) _ (Inner.stackAt v (v.sp + 1)) = _
      rw [Function.update_of_ne (hLinked.stackAt_ne h _ (by omega)),
        Function.update_of_ne (hLinked.stackAt_ne h _ (by omega)),
        Function.update_of_ne (hLinked.stackAt_ne h _ (by omega))]
    rwa [hSame] at hRead
  have hPcl : ReadsAs v₅ (stackAddress (v.sp + 1 + 1)) pcl := by
    have hRead := readsAs_stack (v := v₅) ⟨h.low, h.valid, h.kernel⟩ (v.sp + 1 + 1)
    have hSame : v₅.ram (Inner.stackAt v₅ (v.sp + 1 + 1)) = pcl := by
      show Function.update (Function.update (Function.update (Function.update v.ram (base + 4) _)
        (base + 6) _) (base + 5) _) (base + 1) _ (Inner.stackAt v (v.sp + 1 + 1)) = _
      rw [Function.update_of_ne (hLinked.stackAt_ne h _ (by omega)),
        Function.update_of_ne (hLinked.stackAt_ne h _ (by omega)),
        Function.update_of_ne (hLinked.stackAt_ne h _ (by omega)),
        Function.update_of_ne (hLinked.stackAt_ne h _ (by omega))]
    rwa [hSame] at hRead
  have hPch : ReadsAs v₇ (stackAddress (v.sp + 1 + 1 + 1)) pch := by
    have hRead := readsAs_stack (v := v₇) ⟨h.low, h.valid, h.kernel⟩ (v.sp + 1 + 1 + 1)
    have hSame : v₇.ram (Inner.stackAt v₇ (v.sp + 1 + 1 + 1)) = pch := by
      show Function.update (Function.update (Function.update (Function.update (Function.update v.ram
        (base + 4) _) (base + 6) _) (base + 5) _) (base + 1) _) (base + 2) _
          (Inner.stackAt v (v.sp + 1 + 1 + 1)) = _
      rw [Function.update_of_ne (hLinked.stackAt_ne h _ (by omega)),
        Function.update_of_ne (hLinked.stackAt_ne h _ (by omega)),
        Function.update_of_ne (hLinked.stackAt_ne h _ (by omega)),
        Function.update_of_ne (hLinked.stackAt_ne h _ (by omega)),
        Function.update_of_ne (hLinked.stackAt_ne h _ (by omega))]
    rwa [hSame] at hRead
  have hKsp : v₁₁.ram (base + 7) = raft L v.ram 7 := by
    show contextRam L v (base + 7) = _
    simp (disch := omega) only [contextRam, Function.update_of_ne, base]
    rfl
  refine ⟨v₁₄, ?_, ⟨rfl, rfl, rfl, rfl, rfl, rfl⟩⟩
  refine .cons does_cld id (by decide) rfl ?_
  refine .cons (does_sta_absolute (writesAs_raft hLinked k₀ (i := 4) (by omega) _))
    (fun _ => k₁) (by decide) rfl ?_
  refine .cons (does_sty_absolute (writesAs_raft hLinked k₁ (i := 6) (by omega) _))
    (fun _ => k₂) (by decide) rfl ?_
  refine .cons (does_stx_absolute (writesAs_raft hLinked k₂ (i := 5) (by omega) _))
    (fun _ => k₃) (by decide) rfl ?_
  refine .cons (does_pla hP) (fun _ => k₄) (by decide) rfl ?_
  refine .cons (does_sta_absolute (writesAs_raft hLinked k₄ (i := 1) (by omega) _))
    (fun _ => k₅) (by decide) rfl ?_
  refine .cons (does_pla hPcl) (fun _ => k₆) (by decide) rfl ?_
  refine .cons (does_sta_absolute (writesAs_raft hLinked k₆ (i := 2) (by omega) _))
    (fun _ => k₇) (by decide) rfl ?_
  refine .cons (does_pla hPch) (fun _ => k₈) (by decide) rfl ?_
  refine .cons (does_sta_absolute (writesAs_raft hLinked k₈ (i := 3) (by omega) _))
    (fun _ => k₉) (by decide) rfl ?_
  refine .cons does_tsx (fun _ => k₁₀) (by decide) rfl ?_
  refine .cons (does_stx_absolute (writesAs_raft hLinked k₁₀ (i := 0) (by omega) _))
    (fun _ => k₁₁) (by decide) rfl ?_
  refine .cons (does_ldx_absolute (readsAs_raft hLinked k₁₁ (i := 7) (by omega) hKsp))
    (fun _ => k₁₂) (by decide) rfl ?_
  refine .cons does_txs (fun _ => k₁₃) (by decide) rfl ?_
  exact .cons does_ldx_immediate (fun _ => k₁₄) (by decide) rfl (.nil _)

/-! ## §2 Into the kernel -/

/-- The registers of the program and its last segment are in the life raft, and the kernel is mapped:
    what the handler has made of the machine. -/
structure UserSaved (L : Layout) (v w : Inner) : Prop where
  userSp : raft L w.ram 0 = v.sp + 3
  userP : raft L w.ram 1 = v.ram (Inner.stackAt v (v.sp + 1))
  userPcl : raft L w.ram 2 = v.ram (Inner.stackAt v (v.sp + 2))
  userPch : raft L w.ram 3 = v.ram (Inner.stackAt v (v.sp + 3))
  userA : raft L w.ram 4 = v.a
  userX : raft L w.ram 5 = v.x
  userY : raft L w.ram 6 = v.y
  userLast : raft L w.ram 23 = v.prev
  vectorLow : w.ram 0xfffe = lowByte L.kernelVector
  vectorHigh : w.ram 0xffff = highByte L.kernelVector
  other : ∀ addr, ¬ (L.userContext.toNat ≤ addr ∧ addr < L.userContext.toNat + 7) →
    addr ≠ L.userContext.toNat + 23 → addr ≠ 0xfffe → addr ≠ 0xffff → w.ram addr = v.ram addr
  sp : w.sp = raft L v.ram 7
  pageTable : ∀ s : Segment, w.pageTable s =
    if s = mmuLastSegment then kernelFrame else raft L v.ram (24 + s.val)
  prev : w.prev = raft L v.ram 39
  masked : w.masked = true

theorem lowByte_setWidth (b : Byte) : lowByte (b.setWidth 16) = b := by
  unfold lowByte
  simp

/-- The memory behind the handler. -/
def handlerRam (L : Layout) (v : Inner) : Nat → Byte :=
  Function.update (Function.update (Function.update (contextRam L v) (L.userContext.toNat + 23) v.prev)
    0xfffe (lowByte L.kernelVector)) 0xffff (highByte L.kernelVector)

theorem contextRam_above (L : Layout) (v : Inner) {i : Nat} (hi : 7 ≤ i) :
    contextRam L v (L.userContext.toNat + i) = raft L v.ram i := by
  simp (disch := omega) only [contextRam, Function.update_of_ne]
  rfl

/-- The lines between the loop and the calls. -/
theorem switchLast_straight (hLinked : Linked L start code) {u : Inner} (hKept : Kept L v u)
    (hX : u.x.toNat = 15) (hRam : u.ram = contextRam L v) (hPrev : u.prev = v.prev) :
    ∃ w, Straight L v (switchLast L ++ testBreak L) u w ∧ w.ram = handlerRam L v ∧ w.sp = u.sp ∧
      w.pageTable = u.pageTable ∧ w.prev = raft L v.ram 39 ∧
      w.zero = (v.ram (Inner.stackAt v (v.sp + 1)) &&& 0x10 == 0) := by
  let base := L.userContext.toNat
  let p := v.ram (Inner.stackAt v (v.sp + 1))
  -- the state behind each line
  let u₁ := Inner.loadA u u.prev
  let u₂ := Inner.store u₁ (base + (8 + u.x.toNat)) u.prev
  let u₃ := Inner.loadA u₂ (raft L v.ram 39)
  let u₄ : Inner := { u₃ with prev := raft L v.ram 39 }
  let u₅ := Inner.loadA u₄ (lowByte (BitVec.setWidth 16 (lowByte L.kernelVector)))
  let u₆ := Inner.store u₅ 0xfffe (lowByte (BitVec.setWidth 16 (lowByte L.kernelVector)))
  let u₇ := Inner.loadA u₆ (lowByte (BitVec.setWidth 16 (highByte L.kernelVector)))
  let u₈ := Inner.store u₇ 0xffff (lowByte (BitVec.setWidth 16 (highByte L.kernelVector)))
  let u₉ := Inner.loadA u₈ p
  let u₁₀ := Inner.loadA u₉ (p &&& lowByte (BitVec.setWidth 16 (0x10 : Byte)))
  obtain ⟨hBase, hTop⟩ := hLinked.bounds
  -- the three stores to RAM: the last segment of the program, and the vector
  have hEnd : u₈.ram = handlerRam L v := by
    show Function.update (Function.update (Function.update u.ram (base + (8 + u.x.toNat)) u.prev)
      0xfffe _) 0xffff _ = _
    rw [hRam, hPrev, hX, lowByte_setWidth, lowByte_setWidth]
    rfl
  have k₁ : Kept L v u₁ := hKept.registers rfl rfl rfl
  have k₂ : Kept L v u₂ := k₁.store (.inr (Nat.le_add_right _ _)) _
  have k₃ : Kept L v u₃ := k₂.registers rfl rfl rfl
  have k₄ : Kept L v u₄ := k₃.registers rfl rfl rfl
  have k₅ : Kept L v u₅ := k₄.registers rfl rfl rfl
  have k₆ : Kept L v u₆ := k₅.store (.inr (by omega)) _
  have k₇ : Kept L v u₇ := k₆.registers rfl rfl rfl
  have k₈ : Kept L v u₈ := k₇.store (.inr (by omega)) _
  have k₉ : Kept L v u₉ := k₈.registers rfl rfl rfl
  have k₁₀ : Kept L v u₁₀ := k₉.registers rfl rfl rfl
  -- the store to the page table of the program leaves that of the kernel alone
  have hLast : u₂.ram (base + (24 + u.x.toNat)) = raft L v.ram 39 := by
    show Function.update u.ram (base + (8 + u.x.toNat)) _ (base + (24 + u.x.toNat)) = _
    rw [Function.update_of_ne (by omega), hRam, hX]
    exact contextRam_above L v (by omega)
  have hP : u₈.ram (base + 1) = p := by
    rw [hEnd]
    simp (disch := omega) only [handlerRam, contextRam, Function.update_of_ne, base]
    exact Function.update_self ..
  refine ⟨u₁₀, ?_, hEnd, rfl, rfl, rfl, ?_⟩
  · refine .cons (does_lda_absolute (readsAs_prev hKept.kernel)) (fun _ => k₁) (by decide) rfl ?_
    refine .cons (does_sta_absoluteX (writesAs_raftX hLinked k₁ (i := 8) ?_ _))
      (fun _ => k₂) (by decide) rfl ?_
    · show 8 + u.x.toNat < 40
      omega
    refine .cons (does_lda_absoluteX (readsAs_raftX hLinked k₂ (i := 24) ?_ hLast))
      (fun _ => k₃) (by decide) rfl ?_
    · show 24 + u.x.toNat < 40
      omega
    refine .cons (does_sta_absolute (writesAs_prev k₃.kernel _)) (fun _ => k₄) (by decide) rfl ?_
    refine .cons does_lda_immediate (fun _ => k₅) (by decide) rfl ?_
    refine .cons (does_sta_absolute (writesAs_vector k₅.kernel (by decide) (.inl rfl) _))
      (fun _ => k₆) (by decide) rfl ?_
    refine .cons does_lda_immediate (fun _ => k₇) (by decide) rfl ?_
    refine .cons (does_sta_absolute (writesAs_vector k₇.kernel (by decide) (.inr rfl) _))
      (fun _ => k₈) (by decide) rfl ?_
    refine .cons (does_lda_absolute (readsAs_raft hLinked k₈ (i := 1) (by omega) hP))
      (fun _ => k₉) (by decide) rfl ?_
    exact .cons does_and (fun _ => k₁₀) (by decide) rfl (.nil _)
  · show (p &&& lowByte (BitVec.setWidth 16 (0x10 : Byte)) == 0) = _
    rw [lowByte_setWidth]

/-- A part of the code. -/
theorem lines_at {A B C ls : List Line} (h : ls = A ++ (B ++ C)) {k : Nat} (hk : A.length = k) (j : Nat)
    (l : Line) (hl : B[j]? = some l) : ls[k + j]? = some l := by
  obtain ⟨hLess, -⟩ := List.getElem?_eq_some_iff.mp hl
  rw [h, ← hk, List.getElem?_append_right (Nat.le_add_right _ _), Nat.add_sub_cancel_left,
    List.getElem?_append_left hLess]
  exact hl

/-- Where the handler calls the kernel, by the "B" flag that has been pushed. -/
def callLine (v : Inner) : Nat := if v.ram (Inner.stackAt v (v.sp + 1)) &&& 0x10 = 0 then 33 else 31

/-- The label behind the calls is six bytes on. -/
theorem irqHandler_branch (L : Layout) : (beq 33).Ok (irqHandler L) 30 := by
  have h₁ : offsetOfLine (irqHandler L) 31 = offsetOfLine (irqHandler L) 30 + 2 :=
    offsetOfLine_succ (l := beq 33) rfl
  have h₂ : offsetOfLine (irqHandler L) 32 = offsetOfLine (irqHandler L) 31 + 3 :=
    offsetOfLine_succ (l := jsr L.kernelBrk) rfl
  have h₃ : offsetOfLine (irqHandler L) 33 = offsetOfLine (irqHandler L) 32 + 3 :=
    offsetOfLine_succ (l := jmp L.returnFromTrap) rfl
  have hNumber : (beq 33).number (irqHandler L) 30 = 6 := by
    show BitVec.ofNat 16 (offsetOfLine (irqHandler L) 33) -
      (BitVec.ofNat 16 (offsetOfLine (irqHandler L) 30) + 2) = _
    rw [show offsetOfLine (irqHandler L) 33 = offsetOfLine (irqHandler L) 30 + 8 by omega,
      BitVec.ofNat_add]
    generalize BitVec.ofNat 16 (offsetOfLine (irqHandler L) 30) = here
    bv_omega
  refine ⟨by decide, rfl, rfl, ?_⟩
  rw [hNumber]
  decide

/-- The whole of `_irq_handler` up to the call. -/
theorem irqHandler_path (hLinked : Linked L start (irqHandler L))
    (hCode : CodeLies start (assemble (irqHandler L)) v.ram) (h : Mapped v)
    (hMasked : v.masked = true) :
    ∃ w, Path start (irqHandler L) 101 (0, v) (callLine v, w) ∧ UserSaved L v w := by
  have hKept : Kept L v v := ⟨hMasked, h.kernel, fun _ _ _ => rfl⟩
  obtain ⟨w₁, hSave, hSaved⟩ := saveContext_straight hLinked h hMasked
  obtain ⟨hPath₁, hKept₁⟩ := hSave.path hLinked hCode (k := 0)
    (lines_at (A := []) (C := mmuLoop L.kernelPageTable 15 ++ (switchLast L ++ (testBreak L ++
      [beq 33, jsr L.kernelBrk, jmp L.returnFromTrap, jsr L.kernelIrq, jmp L.returnFromTrap])))
      (by simp [irqHandler]) rfl) hKept
  -- the loop over the segments
  have hStart : Turning L w₁ 24 0 w₁ := by
    refine ⟨?_, rfl, rfl, rfl, rfl, fun s => ?_⟩
    · rw [hSaved.x]
      rfl
    · rw [if_neg (Nat.not_lt_zero _)]
  obtain ⟨w₂, hLoop, hKept₂, hPath₂⟩ := hStart.loop (k := 15) (d := 15) rfl (by omega) (by omega)
    hLinked hCode (lines_at (A := saveContext L) (C := switchLast L ++ (testBreak L ++
      [beq 33, jsr L.kernelBrk, jmp L.returnFromTrap, jsr L.kernelIrq, jmp L.returnFromTrap]))
      (by simp [irqHandler, Layout.kernelPageTable]) rfl) hKept₁
  obtain ⟨w₃, hSwitch, hRam, hSp, hTable, hPrev, hZero⟩ :=
    switchLast_straight hLinked hKept₂ hLoop.x (hLoop.ram.trans hSaved.ram)
      (hLoop.prev.trans hSaved.prev)
  obtain ⟨hPath₃, hKept₃⟩ := hSwitch.path hLinked hCode (k := 20)
    (lines_at (A := saveContext L ++ mmuLoop L.kernelPageTable 15)
      (C := [beq 33, jsr L.kernelBrk, jmp L.returnFromTrap, jsr L.kernelIrq, jmp L.returnFromTrap])
      (by simp [irqHandler]) rfl) hKept₂
  -- the test of the "B" flag
  have hBeq : Path start (irqHandler L) 1 (30, w₃) (callLine v, w₃) := by
    have hMoves : Moves (irqHandler L) (30, w₃) (callLine v, w₃) := by
      refine ⟨beq 33, rfl, irqHandler_branch L, does_branch _ _, fun m hm => ?_⟩
      have hFlag : m.cpu.isSet statusZ = w₃.zero := congrArg Inner.zero hm
      show (if some (m.cpu.isSet statusZ) = some true then 33 else 30 + 1) = _
      rw [hFlag, hZero]
      unfold callLine
      simp
    exact .cons (hKept₃.quiet hLinked hCode) hMoves (.nil _)
  have hPath : Path start (irqHandler L) (15 + (5 * 15 + (10 + 1))) (0, v) (callLine v, w₃) :=
    hPath₁.append (hPath₂.append (hPath₃.append hBeq))
  have hTwo : v.sp + 1 + 1 = v.sp + 2 := by bv_omega
  have hThree : v.sp + 2 + 1 = v.sp + 3 := by bv_omega
  obtain ⟨hBase, hTop⟩ := hLinked.bounds
  refine ⟨w₃, hPath, ?_⟩
  have hByte : ∀ i, raft L w₃.ram i = handlerRam L v (L.userContext.toNat + i) := by
    intro i
    unfold raft
    rw [hRam]
  exact
    { userSp := by
        rw [hByte]
        simp (disch := omega) only [handlerRam, contextRam, Function.update_of_ne, hTwo, hThree]
        exact Function.update_self ..
      userP := by
        rw [hByte]
        simp (disch := omega) only [handlerRam, contextRam, Function.update_of_ne]
        exact Function.update_self ..
      userPcl := by
        rw [hByte]
        simp (disch := omega) only [handlerRam, contextRam, Function.update_of_ne, hTwo]
        exact Function.update_self ..
      userPch := by
        rw [hByte]
        simp (disch := omega) only [handlerRam, contextRam, Function.update_of_ne, hTwo, hThree]
        exact Function.update_self ..
      userA := by
        rw [hByte]
        simp (disch := omega) only [handlerRam, contextRam, Function.update_of_ne]
        exact Function.update_self ..
      userX := by
        rw [hByte]
        simp (disch := omega) only [handlerRam, contextRam, Function.update_of_ne]
        exact Function.update_self ..
      userY := by
        rw [hByte]
        simp (disch := omega) only [handlerRam, contextRam, Function.update_of_ne]
        exact Function.update_self ..
      userLast := by
        rw [hByte]
        simp (disch := omega) only [handlerRam, Function.update_of_ne]
        exact Function.update_self ..
      vectorLow := by
        rw [hRam]
        simp (disch := omega) only [handlerRam, Function.update_of_ne]
        exact Function.update_self ..
      vectorHigh := by
        rw [hRam]
        exact Function.update_self ..
      other := fun addr hContext hLast hLow hHigh => by
        rw [hRam]
        simp (disch := omega) only [handlerRam, contextRam, Function.update_of_ne]
      sp := by rw [hSp, hLoop.sp, hSaved.sp]
      pageTable := fun s => by
        rw [hTable, hLoop.pageTable, hSaved.ram, hSaved.pageTable]
        by_cases hLast : s = mmuLastSegment
        · subst hLast
          rw [if_neg (by decide), if_pos rfl]
          exact h.kernel
        · have hs : s.val < 15 := by
            have hVal : s.val ≠ 15 := fun hEq => hLast (Fin.ext hEq)
            have hLess := s.isLt
            omega
          rw [if_pos hs, if_neg hLast]
          exact contextRam_above L v (by omega)
      prev := hPrev
      masked := hKept₃.masked }

end Entry

/-! ## §3 Back to the program -/

section Return

variable {L : Layout} {start : Word} {code : List Line} {v w : Inner} {m k : Machine}

/-- The memory in front of the `RTI`. -/
def returnRam (L : Layout) (v : Inner) (top : Byte → Nat) : Nat → Byte :=
  let base := L.userContext.toNat
  let sp := raft L v.ram 0
  Function.update (Function.update (Function.update (Function.update (Function.update
    (Function.update v.ram 0xfffe (lowByte L.irqHandler)) 0xffff (highByte L.irqHandler))
    (base + 7) v.sp) (top sp) (raft L v.ram 3)) (top (sp - 1)) (raft L v.ram 2))
    (top (sp - 1 - 1)) (raft L v.ram 1)

/-- The memory in front of the `RTI`, byte by byte. -/
structure Returned (L : Layout) (v : Inner) (top : Byte → Nat) (ram : Nat → Byte) : Prop where
  vectorLow : ram 0xfffe = lowByte L.irqHandler
  vectorHigh : ram 0xffff = highByte L.irqHandler
  ksp : ram (L.userContext.toNat + 7) = v.sp
  pch : ram (top (raft L v.ram 0)) = raft L v.ram 3
  pcl : ram (top (raft L v.ram 0 - 1)) = raft L v.ram 2
  status : ram (top (raft L v.ram 0 - 1 - 1)) = raft L v.ram 1
  other : ∀ addr, addr ≠ 0xfffe → addr ≠ 0xffff → addr ≠ L.userContext.toNat + 7 →
    addr ≠ top (raft L v.ram 0) → addr ≠ top (raft L v.ram 0 - 1) →
    addr ≠ top (raft L v.ram 0 - 1 - 1) → ram addr = v.ram addr

/-- The stack page, the life raft and the vectors are apart, so that no store hides another. -/
theorem returned_returnRam {top : Byte → Nat} (hApart : ∀ s t, s ≠ t → top s ≠ top t)
    (hRaft : ∀ s, top s ≠ L.userContext.toNat + 7) (hLow : ∀ s, top s ≠ 0xfffe)
    (hHigh : ∀ s, top s ≠ 0xffff) (hBase : L.userContext.toNat + 7 < 0xfffe) :
    Returned L v top (returnRam L v top) where
  vectorLow := by
    rw [returnRam, Function.update_of_ne (hLow _).symm, Function.update_of_ne (hLow _).symm,
      Function.update_of_ne (hLow _).symm, Function.update_of_ne (by omega),
      Function.update_of_ne (by omega)]
    exact Function.update_self ..
  vectorHigh := by
    rw [returnRam, Function.update_of_ne (hHigh _).symm, Function.update_of_ne (hHigh _).symm,
      Function.update_of_ne (hHigh _).symm, Function.update_of_ne (by omega)]
    exact Function.update_self ..
  ksp := by
    rw [returnRam, Function.update_of_ne (hRaft _).symm, Function.update_of_ne (hRaft _).symm,
      Function.update_of_ne (hRaft _).symm]
    exact Function.update_self ..
  pch := by
    rw [returnRam, Function.update_of_ne (hApart _ _ (by bv_omega)),
      Function.update_of_ne (hApart _ _ (by bv_omega))]
    exact Function.update_self ..
  pcl := by
    rw [returnRam, Function.update_of_ne (hApart _ _ (by bv_omega))]
    exact Function.update_self ..
  status := Function.update_self ..
  other addr hLo hHi hKsp hPch hPcl hStatus := by
    rw [returnRam, Function.update_of_ne hStatus, Function.update_of_ne hPcl,
      Function.update_of_ne hPch, Function.update_of_ne hKsp, Function.update_of_ne hHi,
      Function.update_of_ne hLo]

theorem restoreVector_straight (hLinked : Linked L start code) (hKept : Kept L v v) :
    ∃ w, Straight L v (restoreVector L) v w ∧ w.x = 0 ∧ w.sp = v.sp ∧ w.pageTable = v.pageTable ∧
      w.ram = Function.update (Function.update v.ram 0xfffe (lowByte L.irqHandler)) 0xffff
        (highByte L.irqHandler) := by
  -- the state behind each line
  let u₁ := Inner.loadA v (lowByte (BitVec.setWidth 16 (lowByte L.irqHandler)))
  let u₂ := Inner.store u₁ 0xfffe (lowByte (BitVec.setWidth 16 (lowByte L.irqHandler)))
  let u₃ := Inner.loadA u₂ (lowByte (BitVec.setWidth 16 (highByte L.irqHandler)))
  let u₄ := Inner.store u₃ 0xffff (lowByte (BitVec.setWidth 16 (highByte L.irqHandler)))
  let u₅ := Inner.loadX u₄ (lowByte (BitVec.setWidth 16 (0 : Byte)))
  have hTop := hLinked.raft
  have k₁ : Kept L v u₁ := hKept.registers rfl rfl rfl
  have k₂ : Kept L v u₂ := k₁.store (.inr (by omega)) _
  have k₃ : Kept L v u₃ := k₂.registers rfl rfl rfl
  have k₄ : Kept L v u₄ := k₃.store (.inr (by omega)) _
  have k₅ : Kept L v u₅ := k₄.registers rfl rfl rfl
  refine ⟨u₅, ?_, rfl, rfl, rfl, ?_⟩
  · refine .cons does_lda_immediate (fun _ => k₁) (by decide) rfl ?_
    refine .cons (does_sta_absolute (writesAs_vector k₁.kernel (by decide) (.inl rfl) _))
      (fun _ => k₂) (by decide) rfl ?_
    refine .cons does_lda_immediate (fun _ => k₃) (by decide) rfl ?_
    refine .cons (does_sta_absolute (writesAs_vector k₃.kernel (by decide) (.inr rfl) _))
      (fun _ => k₄) (by decide) rfl ?_
    exact .cons does_ldx_immediate (fun _ => k₅) (by decide) rfl (.nil _)
  · show Function.update (Function.update v.ram 0xfffe _) 0xffff _ = _
    rw [lowByte_setWidth, lowByte_setWidth]

/-- The registers of the program are loaded, and its return frame is on its stack. -/
structure ContextRestored (L : Layout) (v w : Inner) : Prop where
  a : w.a = raft L v.ram 4
  x : w.x = raft L v.ram 5
  y : w.y = raft L v.ram 6
  sp : w.sp = raft L v.ram 0 - 1 - 1 - 1
  prev : w.prev = raft L v.ram 23

theorem restoreContext_straight (hLinked : Linked L start code) {u : Inner} (hKept : Kept L v u)
    (hMapped : Mapped u) (hX : u.x.toNat = 15) (hSp : u.sp = v.sp)
    (hRam : u.ram = Function.update (Function.update v.ram 0xfffe (lowByte L.irqHandler)) 0xffff
      (highByte L.irqHandler)) :
    ∃ w, Straight L v (restoreContext L) u w ∧ ContextRestored L v w ∧
      w.pageTable = u.pageTable ∧ w.ram = returnRam L v (Inner.stackAt u) := by
  let base := L.userContext.toNat
  let sp := raft L v.ram 0
  let top := Inner.stackAt u
  let r₁ := Inner.loadA u (raft L v.ram 23)
  let r₂ : Inner := { r₁ with prev := raft L v.ram 23 }
  let r₃ := Inner.loadX r₂ u.sp
  let r₄ := Inner.store r₃ (base + 7) u.sp
  let r₅ := Inner.loadX r₄ sp
  let r₆ : Inner := { r₅ with sp := sp }
  let r₇ := Inner.loadA r₆ (raft L v.ram 3)
  let r₈ : Inner := { Inner.store r₇ (top sp) (raft L v.ram 3) with sp := sp - 1 }
  let r₉ := Inner.loadA r₈ (raft L v.ram 2)
  let r₁₀ : Inner := { Inner.store r₉ (top (sp - 1)) (raft L v.ram 2) with sp := sp - 1 - 1 }
  let r₁₁ := Inner.loadA r₁₀ (raft L v.ram 1)
  let r₁₂ : Inner :=
    { Inner.store r₁₁ (top (sp - 1 - 1)) (raft L v.ram 1) with sp := sp - 1 - 1 - 1 }
  let r₁₃ := Inner.loadX r₁₂ (raft L v.ram 5)
  let r₁₄ := Inner.loadY r₁₃ (raft L v.ram 6)
  let r₁₅ := Inner.loadA r₁₄ (raft L v.ram 4)
  obtain ⟨hBase, hEnd⟩ := hLinked.bounds
  have hTop : ∀ s, top s < 0xf000 ∨ base ≤ top s := by
    intro s
    have hOutside : top s < 0xf000 ∨ 0x10000 ≤ top s := hMapped.stackAt_outside s
    omega
  have hStack : ∀ s, ∀ i < 40, base + i ≠ top s := fun s i hi =>
    (hLinked.stackAt_ne hMapped s hi).symm
  have k₁ : Kept L v r₁ := hKept.registers rfl rfl rfl
  have k₂ : Kept L v r₂ := k₁.registers rfl rfl rfl
  have k₃ : Kept L v r₃ := k₂.registers rfl rfl rfl
  have k₄ : Kept L v r₄ := k₃.store (.inr (Nat.le_add_right _ _)) _
  have k₅ : Kept L v r₅ := k₄.registers rfl rfl rfl
  have k₆ : Kept L v r₆ := k₅.registers rfl rfl rfl
  have k₇ : Kept L v r₇ := k₆.registers rfl rfl rfl
  have k₈ : Kept L v r₈ := (k₇.store (hTop sp) (raft L v.ram 3)).registers rfl rfl rfl
  have k₉ : Kept L v r₉ := k₈.registers rfl rfl rfl
  have k₁₀ : Kept L v r₁₀ := (k₉.store (hTop (sp - 1)) (raft L v.ram 2)).registers rfl rfl rfl
  have k₁₁ : Kept L v r₁₁ := k₁₀.registers rfl rfl rfl
  have k₁₂ : Kept L v r₁₂ := (k₁₁.store (hTop (sp - 1 - 1)) (raft L v.ram 1)).registers rfl rfl rfl
  have k₁₃ : Kept L v r₁₃ := k₁₂.registers rfl rfl rfl
  have k₁₄ : Kept L v r₁₄ := k₁₃.registers rfl rfl rfl
  have k₁₅ : Kept L v r₁₅ := k₁₄.registers rfl rfl rfl
  -- the life raft is read as it was, the byte of the stack pointer apart
  have h₀ : ∀ i < 40, u.ram (base + i) = raft L v.ram i := by
    intro i hi
    rw [hRam, Function.update_of_ne (by omega), Function.update_of_ne (by omega)]
    rfl
  have h₄ : ∀ i < 40, i ≠ 7 → r₄.ram (base + i) = raft L v.ram i := by
    intro i hi hi'
    show Function.update u.ram (base + 7) _ (base + i) = _
    rw [Function.update_of_ne (by omega)]
    exact h₀ i hi
  have h₈ : ∀ i < 40, i ≠ 7 → r₈.ram (base + i) = raft L v.ram i := by
    intro i hi hi'
    show Function.update r₄.ram (top sp) _ (base + i) = _
    rw [Function.update_of_ne (hStack _ i hi)]
    exact h₄ i hi hi'
  have h₁₀ : ∀ i < 40, i ≠ 7 → r₁₀.ram (base + i) = raft L v.ram i := by
    intro i hi hi'
    show Function.update r₈.ram (top (sp - 1)) _ (base + i) = _
    rw [Function.update_of_ne (hStack _ i hi)]
    exact h₈ i hi hi'
  have h₁₂ : ∀ i < 40, i ≠ 7 → r₁₂.ram (base + i) = raft L v.ram i := by
    intro i hi hi'
    show Function.update r₁₀.ram (top (sp - 1 - 1)) _ (base + i) = _
    rw [Function.update_of_ne (hStack _ i hi)]
    exact h₁₀ i hi hi'
  have hIndex : u.ram (base + (8 + u.x.toNat)) = raft L v.ram 23 := by
    rw [hX]
    exact h₀ 23 (by omega)
  refine ⟨r₁₅, ?_, ⟨rfl, rfl, rfl, rfl, rfl⟩, rfl, ?_⟩
  · refine .cons (does_lda_absoluteX (readsAs_raftX hLinked hKept (i := 8) (by omega) hIndex))
      (fun _ => k₁) (by decide) rfl ?_
    refine .cons (does_sta_absolute (writesAs_prev k₁.kernel _)) (fun _ => k₂) (by decide) rfl ?_
    refine .cons does_tsx (fun _ => k₃) (by decide) rfl ?_
    refine .cons (does_stx_absolute (writesAs_raft hLinked k₃ (i := 7) (by omega) _))
      (fun _ => k₄) (by decide) rfl ?_
    refine .cons (does_ldx_absolute (readsAs_raft hLinked k₄ (i := 0) (by omega)
      (h₄ 0 (by omega) (by omega)))) (fun _ => k₅) (by decide) rfl ?_
    refine .cons does_txs (fun _ => k₆) (by decide) rfl ?_
    refine .cons (does_lda_absolute (readsAs_raft hLinked k₆ (i := 3) (by omega)
      (h₄ 3 (by omega) (by omega)))) (fun _ => k₇) (by decide) rfl ?_
    refine .cons (does_pha (writesAs_stack (v := r₇) ⟨hMapped.low, hMapped.valid, hMapped.kernel⟩ _ _))
      (fun _ => k₈) (by decide) rfl ?_
    refine .cons (does_lda_absolute (readsAs_raft hLinked k₈ (i := 2) (by omega)
      (h₈ 2 (by omega) (by omega)))) (fun _ => k₉) (by decide) rfl ?_
    refine .cons (does_pha (writesAs_stack (v := r₉) ⟨hMapped.low, hMapped.valid, hMapped.kernel⟩ _ _))
      (fun _ => k₁₀) (by decide) rfl ?_
    refine .cons (does_lda_absolute (readsAs_raft hLinked k₁₀ (i := 1) (by omega)
      (h₁₀ 1 (by omega) (by omega)))) (fun _ => k₁₁) (by decide) rfl ?_
    refine .cons (does_pha (writesAs_stack (v := r₁₁) ⟨hMapped.low, hMapped.valid, hMapped.kernel⟩ _ _))
      (fun _ => k₁₂) (by decide) rfl ?_
    refine .cons (does_ldx_absolute (readsAs_raft hLinked k₁₂ (i := 5) (by omega)
      (h₁₂ 5 (by omega) (by omega)))) (fun _ => k₁₃) (by decide) rfl ?_
    refine .cons (does_ldy_absolute (readsAs_raft hLinked k₁₃ (i := 6) (by omega)
      (h₁₂ 6 (by omega) (by omega)))) (fun _ => k₁₄) (by decide) rfl ?_
    exact .cons (does_lda_absolute (readsAs_raft hLinked k₁₄ (i := 4) (by omega)
      (h₁₂ 4 (by omega) (by omega)))) (fun _ => k₁₅) (by decide) rfl (.nil _)
  · show Function.update (Function.update (Function.update (Function.update u.ram (base + 7) u.sp)
      (top sp) _) (top (sp - 1)) _) (top (sp - 1 - 1)) _ = _
    rw [hRam, hSp]
    rfl

theorem executeOp_rti {σ : Type} {bus : DataBus σ} (o : Operand σ) (branch : Bool → CoreM σ Unit)
    (c : Ctx σ) : (executeOp bus .rti o branch).run c = (true, exec bus (.rti, implied) c) := rfl

/-- The core at an `RTI`. -/
theorem execNext_rti {σ : Type} {bus : DataBus σ} {I : σ → Prop} {base number : Word} {c : Ctx σ}
    (hAt : LineAt bus I base ⟨0x40, .rti, .implied, 6, false⟩ number) (hIrq : c.cpu.irqPending = false)
    (hNmi : c.cpu.nmiPending = false) (hPc : c.cpu.pc = base) (hCode : I c.bus) {e : Ctx σ}
    (hExec : exec bus (.rti, implied)
      ⟨{ c.cpu with pendingTiming := 0, timingForLastOperation := 0 }, c.bus⟩ = e) :
    ((mcs6502ExecNext bus).run c).2 = ⟨Cpu.addTiming 6 e.cpu, e.bus⟩ := by
  rw [hAt.execNext rfl hIrq hNmi hPc hCode, execute_run_jump (executeOp_rti _ _ _), hExec]

/-- The iteration of the `RTI`: the MMU exchanges the last segment behind it. -/
theorem AtSpot.rti {n : Nat} (h : AtSpot start code (n, w) m) (hQuiet : Quiet start code w)
    (hMapped : Mapped w) (hLine : code[n]? = some Trap.rti) :
    cpuIteration m = some (cpuStepIteration m) ∧
      (cpuStepIteration m).bus = { m.bus with mmu := { m.bus.mmu with
        opcode := opcodeRti, inUser := false
        pageTable := Function.update w.pageTable mmuLastSegment w.prev } } ∧
      (cpuStepIteration m).cpu.work = ⟨w.a, w.x, w.y, w.sp + 1 + 1 + 1,
        w.ram (Inner.stackAt w (w.sp + 1)) &&& ~~~(0x20 ||| statusB)⟩ ∧
      (cpuStepIteration m).cpu.pc = wordOf (w.ram (Inner.stackAt w (w.sp + 1 + 1)))
        (w.ram (Inner.stackAt w (w.sp + 1 + 1 + 1))) := by
  have hInner : innerOf m = w := h.inner
  obtain ⟨⟨hKernel, hLies⟩, hMasked⟩ := AtSpot.executable h hQuiet
  have hAt := (reads_machine start (assemble code)).lineAt hLine
  have hRead : machineRead m.cpu.pc m.bus = (opcodeRti, m.bus) := by
    rw [h.pc]
    exact hAt.opcode m.bus ⟨hKernel, hLies⟩
  have hPre := mmuPreExec_masked hRead hKernel hMasked h.clear (by decide)
  have hIrq : m.cpu.irqPending = false := congrArg InterruptQueue.irqPending h.idle
  have hNmi : m.cpu.nmiPending = false := congrArg InterruptQueue.nmiPending h.idle
  let c : Machine := ⟨{ m.cpu with pendingTiming := 0, timingForLastOperation := 0 },
    (fetched opcodeRti m).bus⟩
  have hC : innerOf c = w := hInner
  have hSp : c.cpu.sp = w.sp := congrArg Inner.sp hC
  have hStack : ∀ s, machineBus.readByte (stackAddress s) c.bus = (w.ram (Inner.stackAt w s), c.bus) :=
    fun s => readsAs_stack hMapped s c hC
  -- what the core pulls: status, and the two bytes of the return address
  let d : Cpu := { c.cpu with
    sp := w.sp + 1 + 1 + 1
    p := w.ram (Inner.stackAt w (w.sp + 1)) &&& ~~~(0x20 ||| statusB)
    pc := wordOf (w.ram (Inner.stackAt w (w.sp + 1 + 1)))
      (w.ram (Inner.stackAt w (w.sp + 1 + 1 + 1))) }
  have hOp : exec machineBus (.rti, implied) c = ⟨d, c.bus⟩ := by
    rw [exec_rti, hSp]
    simp only [hStack]
    rfl
  have hExec : execNext (fetched opcodeRti m) = ⟨Cpu.addTiming 6 d, c.bus⟩ :=
    execNext_rti (c := fetched opcodeRti m) hAt hIrq hNmi h.pc ⟨hKernel, hLies⟩ hOp
  have hPost : cpuStepIteration m = mmuPostExec (execNext (fetched opcodeRti m)) := by
    rw [cpuStepIteration, hPre]
  -- the exchange of the last segment is made behind an `RTI` of the kernel only
  have hUser : (fetched opcodeRti m).bus.mmu.inUser = false := by
    show (m.bus.mmu.pageTable mmuLastSegment != kernelFrame) = false
    rw [hKernel]
    rfl
  have hMmu : mmuPostExec (execNext (fetched opcodeRti m)) =
      (execNext (fetched opcodeRti m)).setMmu fun u =>
        { u with pageTable := Function.update u.pageTable mmuLastSegment u.prev } := by
    rw [hExec]
    exact if_pos ⟨rfl, hUser⟩
  refine ⟨?_, ?_, ?_, ?_⟩
  · apply if_neg
    rw [hPre, execNext_invalid_iff]
    rintro ⟨-, -, hNone⟩
    have hAgain : machineBus.readByte m.cpu.pc (fetched opcodeRti m).bus =
        (opcodeRti, (fetched opcodeRti m).bus) := by
      rw [h.pc]
      exact hAt.opcode _ ⟨hKernel, hLies⟩
    have hDecoded : opcodeTable (machineBus.readByte m.cpu.pc (fetched opcodeRti m).bus).1 = none :=
      hNone
    have hTable : opcodeTable opcodeRti = some ⟨0x40, .rti, .implied, 6, false⟩ := by decide
    rw [hAgain, hTable] at hDecoded
    cases hDecoded
  · rw [hPost, hMmu, hExec]
    show { (fetched opcodeRti m).bus with mmu := { (fetched opcodeRti m).bus.mmu with
      pageTable := Function.update m.bus.mmu.pageTable mmuLastSegment m.bus.mmu.prev } } = _
    unfold fetched Ctx.setMmu
    dsimp only
    rw [show (m.bus.mmu.pageTable mmuLastSegment != kernelFrame) = false from hUser]
    subst hInner
    rfl
  · rw [hPost, hMmu, hExec]
    subst hInner
    rfl
  · rw [hPost, hMmu, hExec]
    rfl

/-- The whole of `_return_from_trap` up to the `RTI`. -/
theorem returnFromTrap_path (hLinked : Linked L start (returnFromTrap L))
    (hCode : CodeLies start (assemble (returnFromTrap L)) v.ram) (hKept : Kept L v v)
    (hLow : raft L v.ram 8 ≠ kernelFrame) (hValid : raft L v.ram 8 ≠ mmuFrameInvalid) :
    ∃ w, Path start (returnFromTrap L) 95 (0, v) (25, w) ∧ Kept L v w ∧ Mapped w ∧
      ContextRestored L v w ∧ w.ram = returnRam L v (Inner.stackAt w) ∧
      ∀ s : Segment, w.pageTable s =
        if s = mmuLastSegment then kernelFrame else raft L v.ram (8 + s.val) := by
  obtain ⟨hBase, hTop⟩ := hLinked.bounds
  obtain ⟨w₁, hVector, hX, hSp, hTable, hRam⟩ := restoreVector_straight hLinked hKept
  obtain ⟨hPath₁, hKept₁⟩ := hVector.path hLinked hCode (k := 0)
    (lines_at (A := []) (C := mmuLoop L.userPageTable 5 ++ (restoreContext L ++ [rti]))
      (by simp [returnFromTrap]) rfl) hKept
  have hStart : Turning L w₁ 8 0 w₁ := by
    refine ⟨?_, rfl, rfl, rfl, rfl, fun s => ?_⟩
    · rw [hX]
      rfl
    · rw [if_neg (Nat.not_lt_zero _)]
  obtain ⟨w₂, hLoop, hKept₂, hPath₂⟩ := hStart.loop (k := 5) (d := 15) rfl (by omega) (by omega)
    hLinked hCode (lines_at (A := restoreVector L) (C := restoreContext L ++ [rti])
      (by simp [returnFromTrap, Layout.userPageTable]) rfl) hKept₁
  -- the vectors are not in the life raft
  have hRaft : ∀ i < 40, w₁.ram (L.userContext.toNat + i) = raft L v.ram i := by
    intro i hi
    rw [hRam, Function.update_of_ne (by omega), Function.update_of_ne (by omega)]
    rfl
  have hEntries : ∀ s : Segment, w₂.pageTable s =
      if s = mmuLastSegment then kernelFrame else raft L v.ram (8 + s.val) := by
    intro s
    have hs := s.isLt
    by_cases hLast : s = mmuLastSegment
    · rw [if_pos hLast, hLast]
      exact hKept₂.kernel
    · have hLess : s.val < 15 := by
        have hVal : s.val ≠ 15 := fun hEq => hLast (Fin.ext hEq)
        omega
      rw [hLoop.pageTable, if_pos hLess, if_neg hLast]
      exact hRaft _ (by omega)
  have hMapped : Mapped w₂ := by
    have hZero : w₂.pageTable 0 = raft L v.ram 8 := hEntries 0
    exact ⟨by rw [hZero]; exact hLow, by rw [hZero]; exact hValid, hKept₂.kernel⟩
  obtain ⟨w₃, hRest, hRestored, hTable₃, hRam₃⟩ := restoreContext_straight hLinked hKept₂ hMapped
    hLoop.x (hLoop.sp.trans hSp) (hLoop.ram.trans hRam)
  obtain ⟨hPath₃, hKept₃⟩ := hRest.path hLinked hCode (k := 10)
    (lines_at (A := restoreVector L ++ mmuLoop L.userPageTable 5) (C := [rti])
      (by simp [returnFromTrap]) rfl) hKept₂
  have hPath : Path start (returnFromTrap L) (5 + (5 * 15 + 15)) (0, v) (25, w₃) :=
    hPath₁.append (hPath₂.append hPath₃)
  refine ⟨w₃, hPath, hKept₃, ?_, hRestored, ?_, ?_⟩
  · exact ⟨by rw [hTable₃]; exact hMapped.low, by rw [hTable₃]; exact hMapped.valid, hKept₃.kernel⟩
  · rw [hRam₃]
    unfold Inner.stackAt
    rw [hTable₃]
  · rw [hTable₃]
    exact hEntries

/-- The program that the life raft describes goes on. -/
structure UserResumed (L : Layout) (v : Inner) (k : Machine) : Prop where
  a : k.cpu.a = raft L v.ram 4
  x : k.cpu.x = raft L v.ram 5
  y : k.cpu.y = raft L v.ram 6
  sp : k.cpu.sp = raft L v.ram 0
  p : k.cpu.p = raft L v.ram 1 &&& ~~~(0x20 ||| statusB)
  pc : k.cpu.pc = wordOf (raft L v.ram 2) (raft L v.ram 3)
  idle : k.cpu.Idle
  clear : k.bus.mmu.pendingNmi = false
  pageTable : ∀ s : Segment, k.bus.mmu.pageTable s = raft L v.ram (8 + s.val)
  /-- The kernel's own stack pointer waits for the next trap. -/
  ksp : raft L k.bus.ram 7 = v.sp
  vectorLow : k.bus.ram 0xfffe = lowByte L.irqHandler
  vectorHigh : k.bus.ram 0xffff = highByte L.irqHandler
  /-- The return frame below the program's stack pointer. -/
  frame : ∀ i < 3, k.bus.ram ((raft L v.ram 8).toNat * 0x1000 +
    (0x100 + (raft L v.ram 0 - BitVec.ofNat 8 i).toNat)) = raft L v.ram (3 - i)
  /-- Besides these bytes only the return frame on the program's stack has changed. -/
  other : ∀ addr, addr ≠ 0xfffe → addr ≠ 0xffff → addr ≠ L.userContext.toNat + 7 →
    (∀ i < 3, addr ≠ (raft L v.ram 8).toNat * 0x1000 +
      (0x100 + (raft L v.ram 0 - BitVec.ofNat 8 i).toNat)) → k.bus.ram addr = v.ram addr

/-- **Back to the program**: `_return_from_trap` resumes the program that the life raft describes. -/
theorem return_from_trap_resumes {es : List MachineEvent} (hRun : MachineRun m (es ++ [.cpu]) k)
    (hCount : es.count .cpu = 95) (hLinked : Linked L start (returnFromTrap L))
    (hCode : CodeLies start (assemble (returnFromTrap L)) v.ram)
    (h : AtSpot start (returnFromTrap L) (0, v) m) (hKept : Kept L v v)
    (hLow : raft L v.ram 8 ≠ kernelFrame) (hValid : raft L v.ram 8 ≠ mmuFrameInvalid) :
    UserResumed L v k := by
  obtain ⟨w, hPath, hKeptW, hMapped, hRestored, hRam, hTable⟩ :=
    returnFromTrap_path hLinked hCode hKept hLow hValid
  obtain ⟨u, hFirst, hLast⟩ := hRun.of_append
  have hSpot := run_path hFirst hPath hCount h
  obtain ⟨hSome, hBus, hWork, hPc⟩ := AtSpot.rti hSpot (hKeptW.quiet hLinked hCode) hMapped rfl
  have hEnd : cpuStepIteration u = k := by
    cases hLast with
    | cons head tail =>
      cases tail with
      | nil =>
        rw [MachineEvent.perform, hSome] at head
        exact Option.some.inj head
  subst hEnd
  obtain ⟨hBase, hTop⟩ := hLinked.bounds
  have hOutside := hMapped.stackAt_outside
  have hReturned : Returned L v (Inner.stackAt w) w.ram := by
    rw [hRam]
    refine returned_returnRam (fun s t hst => ?_)
      (fun s => hLinked.stackAt_ne hMapped s (by omega)) (fun s => ?_) (fun s => ?_) (by omega)
    · have hNat : s.toNat ≠ t.toNat := fun hEq => hst (BitVec.eq_of_toNat_eq hEq)
      unfold Inner.stackAt
      omega
    · have hSide := hOutside s
      omega
    · have hSide := hOutside s
      omega
  -- the frame that the code has pushed is pulled again
  have hOne : w.sp + 1 = raft L v.ram 0 - 1 - 1 := by
    rw [hRestored.sp]
    bv_omega
  have hTwo : raft L v.ram 0 - 1 - 1 + 1 = raft L v.ram 0 - 1 := by bv_omega
  have hThree : raft L v.ram 0 - 1 + 1 = raft L v.ram 0 := by bv_omega
  rw [hOne, hTwo, hThree] at hWork hPc
  rw [hReturned.status] at hWork
  rw [hReturned.pcl, hReturned.pch] at hPc
  have hMemory : (cpuStepIteration u).bus.ram = w.ram := by
    rw [hBus]
    exact congrArg Inner.ram hSpot.inner
  have hSp : ∀ s : Byte, (raft L v.ram 8).toNat * 0x1000 + (0x100 + s.toNat) =
      Inner.stackAt w s := by
    intro s
    unfold Inner.stackAt
    rw [hTable 0]
    rfl
  -- where the three bytes of the frame are
  have hZeroth : raft L v.ram 0 - BitVec.ofNat 8 0 = raft L v.ram 0 := by bv_omega
  have hSecond : raft L v.ram 0 - BitVec.ofNat 8 2 = raft L v.ram 0 - 1 - 1 := by bv_omega
  exact
    { a := (congrArg Work.a hWork).trans hRestored.a
      x := (congrArg Work.x hWork).trans hRestored.x
      y := (congrArg Work.y hWork).trans hRestored.y
      sp := congrArg Work.sp hWork
      p := congrArg Work.p hWork
      pc := hPc
      idle := cpuStepIteration_idle hSpot.idle
      clear := by
        rw [hBus]
        exact hSpot.clear
      pageTable := fun s => by
        rw [hBus]
        show Function.update w.pageTable mmuLastSegment w.prev s = _
        rw [Function.update_apply, hRestored.prev]
        split
        · next hLast =>
          rw [hLast]
          rfl
        · next hOther => rw [hTable, if_neg hOther]
      ksp := by
        rw [raft, hMemory]
        exact hReturned.ksp
      vectorLow := by
        rw [hMemory]
        exact hReturned.vectorLow
      vectorHigh := by
        rw [hMemory]
        exact hReturned.vectorHigh
      frame := fun i hi => by
        rw [hMemory, hSp]
        obtain rfl | rfl | rfl : i = 0 ∨ i = 1 ∨ i = 2 := by omega
        · rw [hZeroth]
          exact hReturned.pch
        · exact hReturned.pcl
        · rw [hSecond]
          exact hReturned.status
      other := fun addr hLo hHi hKsp hFrame => by
        simp only [hSp] at hFrame
        rw [hMemory]
        exact hReturned.other addr hLo hHi hKsp (hZeroth ▸ hFrame 0 (by omega))
          (hFrame 1 (by omega)) (hSecond ▸ hFrame 2 (by omega)) }

end Return

/-! ## §4 There and back -/

/-- The trampoline is in its place. -/
structure Installed (L : Layout) (ram : Nat → Byte) : Prop where
  irq : Linked L L.irqHandler (irqHandler L)
  ret : Linked L L.returnFromTrap (returnFromTrap L)
  irqCode : CodeLies L.irqHandler (assemble (irqHandler L)) ram
  retCode : CodeLies L.returnFromTrap (assemble (returnFromTrap L)) ram

/-- The C functions have come back to `_return_from_trap`: interrupts are masked, and the registers
    and the page table of the program are in the life raft as the handler has found them. -/
structure Served (L : Layout) (k k' : Machine) : Prop where
  spot : AtSpot L.returnFromTrap (returnFromTrap L) (0, innerOf k') k'
  masked : k'.cpu.isSet statusI = true
  kernel : k'.bus.mmu.pageTable mmuLastSegment = kernelFrame
  context : ∀ i < 24, i ≠ 7 → raft L k'.bus.ram i = raft L k.bus.ram i
  front : ∀ addr, 0xf000 ≤ addr → addr < L.userContext.toNat → k'.bus.ram addr = k.bus.ram addr

/-- The program finds everything as it was when the handler was entered. -/
structure RoundTrip (v : Inner) (k k' k'' : Machine) : Prop where
  a : k''.cpu.a = v.a
  x : k''.cpu.x = v.x
  y : k''.cpu.y = v.y
  sp : k''.cpu.sp = v.sp + 3
  p : k''.cpu.p = v.ram (Inner.stackAt v (v.sp + 1)) &&& ~~~(0x20 ||| statusB)
  pc : k''.cpu.pc = wordOf (v.ram (Inner.stackAt v (v.sp + 2))) (v.ram (Inner.stackAt v (v.sp + 3)))
  pageTable : k''.bus.mmu.pageTable = Function.update v.pageTable mmuLastSegment v.prev
  idle : k''.cpu.Idle
  clear : k''.bus.mmu.pendingNmi = false
  /-- Memory outside the kernel's frame that the C functions have left alone. -/
  memory : ∀ addr, addr < 0xf000 ∨ 0x10000 ≤ addr → k'.bus.ram addr = k.bus.ram addr →
    k''.bus.ram addr = v.ram addr

/-- The return frame is in the life raft. -/
theorem UserSaved.pushed {L : Layout} {v w : Inner} (h : UserSaved L v w) {i : Nat} (hi : i < 3) :
    raft L w.ram (3 - i) = v.ram (Inner.stackAt v (v.sp + 3 - BitVec.ofNat 8 i)) := by
  obtain rfl | rfl | rfl : i = 0 ∨ i = 1 ∨ i = 2 := by omega
  · rw [show v.sp + 3 - BitVec.ofNat 8 0 = v.sp + 3 by bv_omega]
    exact h.userPch
  · rw [show v.sp + 3 - BitVec.ofNat 8 1 = v.sp + 2 by bv_omega]
    exact h.userPcl
  · rw [show v.sp + 3 - BitVec.ofNat 8 2 = v.sp + 1 by bv_omega]
    exact h.userP

section Round

variable {L : Layout} {v : Inner} {m k k' k'' : Machine} {es es' : List MachineEvent}

/-- **Into the kernel**: behind the 101 instructions of the handler the machine is at the call of the C
    function, with the program in the life raft. -/
theorem irq_handler_saves (hRun : MachineRun m es k) (hCount : es.count .cpu = 101)
    (hInstalled : Installed L v.ram) (h : AtSpot L.irqHandler (irqHandler L) (0, v) m)
    (hMapped : Mapped v) (hMasked : v.masked = true) :
    UserSaved L v (innerOf k) ∧ AtSpot L.irqHandler (irqHandler L) (callLine v, innerOf k) k := by
  obtain ⟨w, hPath, hSaved⟩ := irqHandler_path hInstalled.irq hInstalled.irqCode hMapped hMasked
  have hSpot := run_path hRun hPath hCount h
  have hInner : innerOf k = w := hSpot.inner
  rw [hInner]
  exact ⟨hSaved, hSpot⟩

/-- The page table that is in the life raft when the C functions come back. -/
theorem Served.pages (hServed : Served L k k') (hSaved : UserSaved L v (innerOf k))
    (hInstalled : Installed L v.ram)
    (hAboard : ∀ s : Segment, s ≠ mmuLastSegment → raft L v.ram (8 + s.val) = v.pageTable s)
    (s : Segment) : raft L k'.bus.ram (8 + s.val) =
      if s = mmuLastSegment then v.prev else v.pageTable s := by
  obtain ⟨hBase, hTop⟩ := hInstalled.irq.bounds
  have hs := s.isLt
  rw [hServed.context _ (by omega) (by omega)]
  split
  · next hLast =>
    rw [hLast]
    exact hSaved.userLast
  · next hOther =>
    have hVal : s.val ≠ 15 := fun hEq => hOther (Fin.ext hEq)
    rw [← hAboard s hOther]
    exact hSaved.other _ (by omega) (by omega) (by omega) (by omega)

/-- `_return_from_trap` is still in its place. -/
theorem Served.retCode (hServed : Served L k k') (hSaved : UserSaved L v (innerOf k))
    (hInstalled : Installed L v.ram) :
    CodeLies L.returnFromTrap (assemble (returnFromTrap L)) (innerOf k').ram := by
  refine ⟨hInstalled.retCode.base, hInstalled.retCode.top, fun j byte hByte => ?_⟩
  obtain ⟨hLess, -⟩ := List.getElem?_eq_some_iff.mp hByte
  have hBase := hInstalled.ret.base
  have hFront := hInstalled.ret.front
  have hTop := hInstalled.ret.raft
  have hSame : k.bus.ram (L.returnFromTrap.toNat + j) = v.ram (L.returnFromTrap.toNat + j) :=
    hSaved.other _ (by omega) (by omega) (by omega) (by omega)
  show k'.bus.ram _ = byte
  rw [hServed.front _ (by omega) (by omega), hSame]
  exact hInstalled.retCode.byte j byte hByte

/-- **There and back**: a program that has been interrupted finds its registers, its page table and
    its memory as they were, if the C functions leave its context in the life raft and its memory
    alone; whatever the devices do meanwhile. -/
theorem trap_round_trip (hIn : MachineRun m es k) (hInCount : es.count .cpu = 101)
    (hServed : Served L k k') (hOut : MachineRun k' (es' ++ [.cpu]) k'')
    (hOutCount : es'.count .cpu = 95) (hInstalled : Installed L v.ram)
    (h : AtSpot L.irqHandler (irqHandler L) (0, v) m) (hMapped : Mapped v)
    (hMasked : v.masked = true)
    (hAboard : ∀ s : Segment, s ≠ mmuLastSegment → raft L v.ram (8 + s.val) = v.pageTable s) :
    RoundTrip v k k' k'' := by
  obtain ⟨hSaved, -⟩ := irq_handler_saves hIn hInCount hInstalled h hMapped hMasked
  obtain ⟨hBase, hTop⟩ := hInstalled.irq.bounds
  -- the C functions have left the saved context and page table of the program alone
  have hPages := hServed.pages hSaved hInstalled hAboard
  have hLow : raft L k'.bus.ram 8 = v.pageTable 0 := hPages 0
  have hCode := hServed.retCode hSaved hInstalled
  have hKept : Kept L (innerOf k') (innerOf k') :=
    ⟨hServed.masked, hServed.kernel, fun _ _ _ => rfl⟩
  -- behind `return_from_trap` the machine is what the context says, and the context is what the
  -- entry has saved
  have hResumed := return_from_trap_resumes hOut hOutCount hInstalled.ret hCode hServed.spot hKept
    (by
      show raft L k'.bus.ram 8 ≠ _
      rw [hLow]
      exact hMapped.low)
    (by
      show raft L k'.bus.ram 8 ≠ _
      rw [hLow]
      exact hMapped.valid)
  have hByte : ∀ i < 24, i ≠ 7 → raft L (innerOf k').ram i = raft L (innerOf k).ram i := hServed.context
  have hFirst : raft L (innerOf k').ram 8 = v.pageTable 0 := hLow
  have hSp : raft L (innerOf k').ram 0 = v.sp + 3 := (hByte 0 (by omega) (by omega)).trans hSaved.userSp
  exact
    { a := by rw [hResumed.a, hByte 4 (by omega) (by omega), hSaved.userA]
      x := by rw [hResumed.x, hByte 5 (by omega) (by omega), hSaved.userX]
      y := by rw [hResumed.y, hByte 6 (by omega) (by omega), hSaved.userY]
      sp := hResumed.sp.trans hSp
      p := by rw [hResumed.p, hByte 1 (by omega) (by omega), hSaved.userP]
      pc := by
        rw [hResumed.pc, hByte 2 (by omega) (by omega), hByte 3 (by omega) (by omega),
          hSaved.userPcl, hSaved.userPch]
      pageTable := by
        funext s
        rw [hResumed.pageTable, Function.update_apply]
        exact hPages s
      idle := hResumed.idle
      clear := hResumed.clear
      memory := fun addr hOutside hLeft => by
        have hBefore : k.bus.ram addr = v.ram addr :=
          hSaved.other _ (by omega) (by omega) (by omega) (by omega)
        by_cases hFrame : ∃ i < 3, addr = (raft L (innerOf k').ram 8).toNat * 0x1000 +
            (0x100 + (raft L (innerOf k').ram 0 - BitVec.ofNat 8 i).toNat)
        · -- the return frame is the one that the entry has pushed
          obtain ⟨i, hi, hAddr⟩ := hFrame
          have hFrameByte := hResumed.frame i hi
          rw [← hAddr] at hFrameByte
          have hPlace : addr = Inner.stackAt v (v.sp + 3 - BitVec.ofNat 8 i) := by
            rw [hAddr, hSp, hFirst]
            unfold Inner.stackAt
            rfl
          rw [hFrameByte, hPlace, hByte (3 - i) (by omega) (by omega)]
          exact hSaved.pushed hi
        · rw [hResumed.other addr (by omega) (by omega) (by omega)
            (fun i hi hEq => hFrame ⟨i, hi, hEq⟩)]
          exact hLeft.trans hBefore }

/-- The machine does not stop on its way, if the C functions return at once. -/
theorem trap_returns (hInstalled : Installed L v.ram)
    (h : AtSpot L.irqHandler (irqHandler L) (0, v) m) (hMapped : Mapped v)
    (hMasked : v.masked = true)
    (hAboard : ∀ s : Segment, s ≠ mmuLastSegment → raft L v.ram (8 + s.val) = v.pageTable s) :
    ∃ k k' k'', MachineRun m (List.replicate 101 .cpu) k ∧ Served L k k' ∧
      MachineRun k' (List.replicate 95 .cpu ++ [.cpu]) k'' := by
  obtain ⟨w, hPath, -⟩ := irqHandler_path hInstalled.irq hInstalled.irqCode hMapped hMasked
  obtain ⟨k, hIn⟩ := hPath.exists_run h
  obtain ⟨hSaved, hCall⟩ :=
    irq_handler_saves hIn List.count_replicate_self hInstalled h hMapped hMasked
  -- the C functions that return at once leave the context as it is
  let k' : Machine := ⟨{ k.cpu with pc := L.returnFromTrap }, k.bus⟩
  have hServed : Served L k k' := by
    refine ⟨⟨rfl, (BitVec.add_zero _).symm, hCall.idle, hCall.clear⟩, hSaved.masked, ?_,
      fun _ _ _ => rfl, fun _ _ _ => rfl⟩
    exact (hSaved.pageTable mmuLastSegment).trans (if_pos rfl)
  have hFirst : raft L (innerOf k').ram 8 = v.pageTable 0 :=
    hServed.pages hSaved hInstalled hAboard 0
  have hCode := hServed.retCode hSaved hInstalled
  obtain ⟨u, hPathOut, hKept, hMappedOut, -, -, -⟩ := returnFromTrap_path hInstalled.ret hCode
    ⟨hServed.masked, hServed.kernel, fun _ _ _ => rfl⟩ (by rw [hFirst]; exact hMapped.low)
    (by rw [hFirst]; exact hMapped.valid)
  obtain ⟨e, hOut⟩ := hPathOut.exists_run hServed.spot
  have hEnd := run_path hOut hPathOut List.count_replicate_self hServed.spot
  have hRti := (AtSpot.rti hEnd (hKept.quiet hInstalled.ret hCode) hMappedOut rfl).1
  exact ⟨k, k', cpuStepIteration e, hIn, hServed, hOut.append (.cons hRti (.nil _))⟩

end Round

/-- A layout of the trampoline. -/
def shortLayout : Layout := ⟨0xf000, 0xf100, 0xf180, 0x5000, 0x5100, 0xf200⟩

/-- A memory with nothing but the trampoline, the page table of a program and that of the kernel. -/
def trampolineRam (addr : Nat) : Byte :=
  if addr < 0xf100 then (assemble (irqHandler shortLayout)).getD (addr - 0xf000) 0
  else if addr < 0xf200 then (assemble (returnFromTrap shortLayout)).getD (addr - 0xf100) 0
  else if addr < 0xf218 then BitVec.ofNat 8 (0x10 + (addr - 0xf208))
  else BitVec.ofNat 8 (addr - 0xf218)

theorem installed_short : Installed shortLayout trampolineRam := by
  have hIrq : (assemble (irqHandler shortLayout)).length ≤ 0x100 := by decide +kernel
  have hRet : (assemble (returnFromTrap shortLayout)).length ≤ 0x100 := by decide +kernel
  have hIrqStart : shortLayout.irqHandler.toNat = 0xf000 := rfl
  have hRetStart : shortLayout.returnFromTrap.toNat = 0xf100 := rfl
  have hRaft : shortLayout.userContext.toNat = 0xf200 := rfl
  refine ⟨⟨by omega, by omega, by omega⟩, ⟨by omega, by omega, by omega⟩,
    ⟨by omega, by omega, fun j byte hByte => ?_⟩, ⟨by omega, by omega, fun j byte hByte => ?_⟩⟩
  · obtain ⟨hLess, -⟩ := List.getElem?_eq_some_iff.mp hByte
    rw [hIrqStart, trampolineRam, if_pos (by omega), Nat.add_sub_cancel_left,
      List.getD_eq_getElem?_getD, hByte]
    rfl
  · obtain ⟨hLess, -⟩ := List.getElem?_eq_some_iff.mp hByte
    rw [hRetStart, trampolineRam, if_neg (by omega), if_pos (by omega), Nat.add_sub_cancel_left,
      List.getD_eq_getElem?_getD, hByte]
    rfl

/-- A program has just been interrupted. -/
def trapped : Machine where
  cpu := ⟨1, 2, 3, 0xf0, 0xf000, 0x24, 0, 0, false, false⟩
  bus := { (zeroedMachine 0).bus with
    ram := trampolineRam
    mmu := ⟨fun s => if s = 15 then kernelFrame else BitVec.ofNat 8 (0x10 + s.val), 0x1f, 0, 0, 0, 0,
      true, false⟩ }

/-- The kernel returns at once. -/
theorem trap_round_trip_short : ∃ k k' k'', MachineRun trapped (List.replicate 101 .cpu) k ∧
    Served shortLayout k k' ∧ MachineRun k' (List.replicate 95 .cpu ++ [.cpu]) k'' ∧
    RoundTrip (innerOf trapped) k k' k'' := by
  have hMapped : Mapped (innerOf trapped) := ⟨by decide, by decide, by decide⟩
  have hSpot : AtSpot shortLayout.irqHandler (irqHandler shortLayout) (0, innerOf trapped) trapped :=
    ⟨rfl, rfl, rfl, rfl⟩
  have hAboard : ∀ s : Segment, s ≠ mmuLastSegment →
      raft shortLayout (innerOf trapped).ram (8 + s.val) = (innerOf trapped).pageTable s := by
    decide +kernel
  obtain ⟨k, k', k'', hIn, hServed, hOut⟩ :=
    trap_returns installed_short hSpot hMapped rfl hAboard
  exact ⟨k, k', k'', hIn, hServed, hOut, trap_round_trip hIn List.count_replicate_self hServed hOut
    List.count_replicate_self installed_short hSpot hMapped rfl hAboard⟩

end Xv6502.Kernel.Trap
