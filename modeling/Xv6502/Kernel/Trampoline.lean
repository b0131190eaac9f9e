import Xv6502.Kernel.TrapLines

/-!
# The Way Into the Kernel and Back

`_irq_handler` and `_return_from_trap` of `kernel/trampoline.s`, as the machine executes their bytes.
Between a user program and the C functions of the kernel lies the life raft: the handler saves the
registers of the program there and maps the kernel, segment by segment, and `_return_from_trap` maps
the program and loads the registers from there. The code lies in the last segment, which only the
MMU itself exchanges, and its `prev` register brings the entry of that segment over.
-/

namespace Xv6502.Kernel.Trap

open Xv6502.Emulator Xv6502.Lib

/-! ## §1 The code -/

/-- Where the linker has put the trampoline, and what it refers to. -/
structure Layout where
  irqHandler : Word
  returnFromTrap : Word
  kernelVector : Word
  kernelBrk : Word
  kernelIrq : Word
  /-- `_user_context`, the first part of the life raft. -/
  userContext : Word

/-- `_user_page_table`, behind it. -/
def Layout.userPageTable (L : Layout) : Word := L.userContext + 8

/-- `_kernel_page_table`, behind that. -/
def Layout.kernelPageTable (L : Layout) : Word := L.userContext + 24

/-! The instructions, as the assembler encodes them. -/

abbrev cld : Line := .op ⟨0xD8, .cld, .implied, 2, false⟩ 0
abbrev pla : Line := .op ⟨0x68, .pla, .implied, 4, false⟩ 0
abbrev pha : Line := .op ⟨0x48, .pha, .implied, 3, false⟩ 0
abbrev tsx : Line := .op ⟨0xBA, .tsx, .implied, 2, false⟩ 0
abbrev txs : Line := .op ⟨0x9A, .txs, .implied, 2, false⟩ 0
abbrev inx : Line := .op ⟨0xE8, .inx, .implied, 2, false⟩ 0
abbrev rti : Line := .op ⟨0x40, .rti, .implied, 6, false⟩ 0
abbrev lda (n : Word) : Line := .op ⟨0xAD, .lda, .absolute, 4, false⟩ n
abbrev ldx (n : Word) : Line := .op ⟨0xAE, .ldx, .absolute, 4, false⟩ n
abbrev ldy (n : Word) : Line := .op ⟨0xAC, .ldy, .absolute, 4, false⟩ n
abbrev sta (n : Word) : Line := .op ⟨0x8D, .sta, .absolute, 4, false⟩ n
abbrev stx (n : Word) : Line := .op ⟨0x8E, .stx, .absolute, 4, false⟩ n
abbrev sty (n : Word) : Line := .op ⟨0x8C, .sty, .absolute, 4, false⟩ n
abbrev ldaX (n : Word) : Line := .op ⟨0xBD, .lda, .absoluteX, 4, true⟩ n
abbrev staX (n : Word) : Line := .op ⟨0x9D, .sta, .absoluteX, 5, false⟩ n
abbrev ldaImmediate (n : Byte) : Line := .op ⟨0xA9, .lda, .immediate, 2, false⟩ (n.setWidth 16)
abbrev ldxImmediate (n : Byte) : Line := .op ⟨0xA2, .ldx, .immediate, 2, false⟩ (n.setWidth 16)
abbrev cpxImmediate (n : Byte) : Line := .op ⟨0xE0, .cpx, .immediate, 2, false⟩ (n.setWidth 16)
abbrev andImmediate (n : Byte) : Line := .op ⟨0x29, .and, .immediate, 2, false⟩ (n.setWidth 16)
abbrev bne (label : Nat) : Line := .branch ⟨0xD0, .bne, .relative, 0, true⟩ label
abbrev beq (label : Nat) : Line := .branch ⟨0xF0, .beq, .relative, 0, true⟩ label
abbrev jsr (n : Word) : Line := .op ⟨0x20, .jsr, .absolute, 6, false⟩ n
abbrev jmp (n : Word) : Line := .op ⟨0x4C, .jmp, .absolute, 3, false⟩ n

/-- `_irq_handler` up to `@mmu_loop`: the registers go to the life raft. -/
def saveContext (L : Layout) : List Line :=
  [cld, sta (L.userContext + 4), sty (L.userContext + 6), stx (L.userContext + 5), pla,
    sta (L.userContext + 1), pla, sta (L.userContext + 2), pla, sta (L.userContext + 3), tsx,
    stx (L.userContext + 0), ldx (L.userContext + 7), txs, ldxImmediate 0]

/-- `@mmu_loop` from its label on: all the segments but the last one are mapped. -/
def mmuLoop (source : Word) (label : Nat) : List Line :=
  [ldaX source, staX 0xfe20, inx, cpxImmediate 0x0F, bne label]

/-- `_irq_handler` behind the loop: the last segments, and the vector. -/
def switchLast (L : Layout) : List Line :=
  [lda 0xfe40, staX L.userPageTable, ldaX L.kernelPageTable, sta 0xfe40,
    ldaImmediate (lowByte L.kernelVector), sta (0xfffa + 4),
    ldaImmediate (highByte L.kernelVector), sta (0xfffa + 5)]

/-- The test of the "B" flag. -/
def testBreak (L : Layout) : List Line := [lda (L.userContext + 1), andImmediate 0x10]

/-- `_irq_handler`. -/
def irqHandler (L : Layout) : List Line :=
  saveContext L ++ mmuLoop L.kernelPageTable 15 ++ switchLast L ++ testBreak L ++
    [beq 33, jsr L.kernelBrk, jmp L.returnFromTrap, jsr L.kernelIrq, jmp L.returnFromTrap]

/-- `_return_from_trap` up to `@mmu_loop`. -/
def restoreVector (L : Layout) : List Line :=
  [ldaImmediate (lowByte L.irqHandler), sta (0xfffa + 4), ldaImmediate (highByte L.irqHandler),
    sta (0xfffa + 5), ldxImmediate 0]

/-- `_return_from_trap` behind the loop, up to the `RTI`. -/
def restoreContext (L : Layout) : List Line :=
  [ldaX L.userPageTable, sta 0xfe40, tsx, stx (L.userContext + 7), ldx (L.userContext + 0), txs,
    lda (L.userContext + 3), pha, lda (L.userContext + 2), pha, lda (L.userContext + 1), pha,
    ldx (L.userContext + 5), ldy (L.userContext + 6), lda (L.userContext + 4)]

/-- `_return_from_trap`. -/
def returnFromTrap (L : Layout) : List Line :=
  restoreVector L ++ mmuLoop L.userPageTable 5 ++ restoreContext L ++ [rti]

/-! ## §2 Straight code -/

/-- The linker has put the code in front of the life raft, and the life raft in front of the
    devices. -/
structure Linked (L : Layout) (start : Word) (code : List Line) : Prop where
  base : 0xf000 ≤ start.toNat
  front : start.toNat + (assemble code).length ≤ L.userContext.toNat
  raft : L.userContext.toNat + 40 ≤ 0xfc00

/-- Interrupts are masked, the kernel is mapped, and what is in front of the life raft has not
    changed. -/
structure Kept (L : Layout) (v₀ v : Inner) : Prop where
  masked : v.masked = true
  kernel : v.pageTable mmuLastSegment = kernelFrame
  front : ∀ addr, 0xf000 ≤ addr → addr < L.userContext.toNat → v.ram addr = v₀.ram addr

/-- Straight code, without branches. -/
inductive Straight (L : Layout) (v₀ : Inner) : List Line → Inner → Inner → Prop
  | nil (v : Inner) : Straight L v₀ [] v v
  | cons {i : Instruction} {n : Word} {ls : List Line} {v u w : Inner}
      (does : LineDoes (.op i n) v u) (kept : Kept L v₀ v → Kept L v₀ u)
      (table : opcodeTable i.opcode = some i) (straight : i.mnemonic.straight = true)
      (tail : Straight L v₀ ls u w) : Straight L v₀ (.op i n :: ls) v w

section Code

variable {L : Layout} {start : Word} {code ls : List Line} {v₀ v w : Inner} {k : Nat} {byte : Byte}

theorem Linked.userContext_toNat (h : Linked L start code) {i : Nat} (hi : i < 40) :
    (L.userContext + BitVec.ofNat 16 i).toNat = L.userContext.toNat + i := by
  have hRaft := h.raft
  rw [BitVec.toNat_add, BitVec.toNat_ofNat]
  omega

/-- Where the life raft may lie. -/
theorem Linked.bounds (h : Linked L start code) :
    0xf000 ≤ L.userContext.toNat ∧ L.userContext.toNat + 40 ≤ 0xfc00 := by
  have hBase := h.base
  have hFront := h.front
  exact ⟨by omega, h.raft⟩

theorem Linked.indexed (h : Linked L start code) {i : Nat} {x : Byte} (hi : i + x.toNat < 40) :
    (L.userContext + BitVec.ofNat 16 i + x.setWidth 16).toNat =
      L.userContext.toNat + (i + x.toNat) := by
  have hRaft := h.raft
  rw [BitVec.toNat_add, h.userContext_toNat (by omega), BitVec.toNat_setWidth]
  omega

theorem Kept.quiet (h : Kept L v₀ v) (hLinked : Linked L start code)
    (hCode : CodeLies start (assemble code) v₀.ram) : Quiet start code v where
  masked := h.masked
  kernel := h.kernel
  code := by
    refine ⟨hCode.base, hCode.top, fun j byte hByte => ?_⟩
    obtain ⟨hLess, -⟩ := List.getElem?_eq_some_iff.mp hByte
    have hBase := hLinked.base
    have hFront := hLinked.front
    rw [h.front _ (by omega) (by omega)]
    exact hCode.byte j byte hByte

/-- A store that is not in front of the life raft. -/
theorem Kept.store (h : Kept L v₀ v) {addr : Nat}
    (hAddr : addr < 0xf000 ∨ L.userContext.toNat ≤ addr) (byte : Byte) :
    Kept L v₀ (Inner.store v addr byte) := by
  refine ⟨h.masked, h.kernel, fun a hLo hHi => ?_⟩
  show Function.update v.ram addr byte a = _
  rw [Function.update_of_ne (by omega)]
  exact h.front a hLo hHi

/-- The registers move. -/
theorem Kept.registers (h : Kept L v₀ v) (hRam : w.ram = v.ram) (hTable : w.pageTable = v.pageTable)
    (hMasked : w.masked = v.masked) : Kept L v₀ w := by
  refine ⟨hMasked.trans h.masked, by rw [hTable]; exact h.kernel, fun a hLo hHi => ?_⟩
  rw [hRam]
  exact h.front a hLo hHi

/-- Straight code is a path. -/
theorem Straight.path (h : Straight L v₀ ls v w) (hLinked : Linked L start code)
    (hCode : CodeLies start (assemble code) v₀.ram)
    (hLines : ∀ j l, ls[j]? = some l → code[k + j]? = some l) (hKept : Kept L v₀ v) :
    Path start code ls.length (k, v) (k + ls.length, w) ∧ Kept L v₀ w := by
  induction h generalizing k with
  | nil v => exact ⟨.nil _, hKept⟩
  | @cons i n ls v u w does kept table straight _ ih =>
    have hFirst : code[k]? = some (.op i n) := hLines 0 _ rfl
    have hRest : ∀ j l, ls[j]? = some l → code[k + 1 + j]? = some l := by
      intro j l hl
      rw [Nat.add_assoc, Nat.add_comm 1 j]
      exact hLines (j + 1) l hl
    obtain ⟨hPath, hEnd⟩ := ih hRest (kept hKept)
    refine ⟨?_, hEnd⟩
    rw [List.length_cons, Nat.add_comm ls.length 1, ← Nat.add_assoc, Nat.add_comm 1 ls.length]
    exact .cons (hKept.quiet hLinked hCode) ⟨_, hFirst, ⟨table, straight⟩, does, fun _ _ => rfl⟩ hPath

/-! Loads and stores in the life raft. -/

theorem readsAs_raft (hLinked : Linked L start code) (hKept : Kept L v₀ v) {i : Nat} (hi : i < 40)
    (hByte : v.ram (L.userContext.toNat + i) = byte) :
    ReadsAs v (L.userContext + BitVec.ofNat 16 i) byte := by
  have hAddr := hLinked.userContext_toNat hi
  obtain ⟨hBase, hRaft⟩ := hLinked.bounds
  have hRead := @readsAs_last v (L.userContext + BitVec.ofNat 16 i) hKept.kernel (by omega) (by omega)
  rwa [hAddr, hByte] at hRead

theorem readsAs_raftX (hLinked : Linked L start code) (hKept : Kept L v₀ v) {i : Nat}
    (hi : i + v.x.toNat < 40) (hByte : v.ram (L.userContext.toNat + (i + v.x.toNat)) = byte) :
    ReadsAs v (L.userContext + BitVec.ofNat 16 i + v.x.setWidth 16) byte := by
  have hAddr := hLinked.indexed hi
  obtain ⟨hBase, hRaft⟩ := hLinked.bounds
  have hRead := @readsAs_last v (L.userContext + BitVec.ofNat 16 i + v.x.setWidth 16) hKept.kernel
    (by omega) (by omega)
  rwa [hAddr, hByte] at hRead

theorem writesAs_raft (hLinked : Linked L start code) (hKept : Kept L v₀ v) {i : Nat} (hi : i < 40)
    (byte : Byte) : WritesAs v (L.userContext + BitVec.ofNat 16 i) byte
      (Inner.store v (L.userContext.toNat + i) byte) := by
  have hAddr := hLinked.userContext_toNat hi
  obtain ⟨hBase, hRaft⟩ := hLinked.bounds
  have hWrite := @writesAs_last v (L.userContext + BitVec.ofNat 16 i) hKept.kernel (by omega)
    (by omega) byte
  rwa [hAddr] at hWrite

theorem writesAs_raftX (hLinked : Linked L start code) (hKept : Kept L v₀ v) {i : Nat}
    (hi : i + v.x.toNat < 40) (byte : Byte) :
    WritesAs v (L.userContext + BitVec.ofNat 16 i + v.x.setWidth 16) byte
      (Inner.store v (L.userContext.toNat + (i + v.x.toNat)) byte) := by
  have hAddr := hLinked.indexed hi
  obtain ⟨hBase, hRaft⟩ := hLinked.bounds
  have hWrite := @writesAs_last v (L.userContext + BitVec.ofNat 16 i + v.x.setWidth 16) hKept.kernel
    (by omega) (by omega) byte
  rwa [hAddr] at hWrite

end Code

/-! ## §3 The loop over the segments -/

section Loop

variable {L : Layout} {start : Word} {code : List Line} {v₀ v : Inner} {k i j d : Nat}

/-- The first `j` segments are mapped, and `x` counts them. -/
structure Turning (L : Layout) (v : Inner) (i j : Nat) (w : Inner) : Prop where
  x : w.x.toNat = j
  y : w.y = v.y
  sp : w.sp = v.sp
  ram : w.ram = v.ram
  prev : w.prev = v.prev
  pageTable : ∀ s : Segment, w.pageTable s =
    if s.val < j then v.ram (L.userContext.toNat + (i + s.val)) else v.pageTable s

/-- The label of the loop is eleven bytes back. -/
theorem mmuLoop_branch {source : Word}
    (hLines : ∀ n l, (mmuLoop source k)[n]? = some l → code[k + n]? = some l) :
    (bne k).Ok code (k + 4) := by
  have h₁ : offsetOfLine code (k + 1) = offsetOfLine code k + 3 := offsetOfLine_succ (hLines 0 _ rfl)
  have h₂ : offsetOfLine code (k + 2) = offsetOfLine code (k + 1) + 3 :=
    offsetOfLine_succ (hLines 1 _ rfl)
  have h₃ : offsetOfLine code (k + 3) = offsetOfLine code (k + 2) + 1 :=
    offsetOfLine_succ (hLines 2 _ rfl)
  have h₄ : offsetOfLine code (k + 4) = offsetOfLine code (k + 3) + 2 :=
    offsetOfLine_succ (hLines 3 _ rfl)
  have hNumber : (bne k).number code (k + 4) = 0xfff5 := by
    show BitVec.ofNat 16 (offsetOfLine code k) - (BitVec.ofNat 16 (offsetOfLine code (k + 4)) + 2) = _
    rw [show offsetOfLine code (k + 4) = offsetOfLine code k + 9 by omega, BitVec.ofNat_add]
    generalize BitVec.ofNat 16 (offsetOfLine code k) = here
    bv_omega
  refine ⟨rfl, rfl, rfl, ?_⟩
  rw [hNumber]
  decide

/-- A turn of `@mmu_loop`. -/
theorem Turning.turn {w : Inner} (h : Turning L v i j w) (hj : j < 15) (hi : i + 15 < 40)
    (hLinked : Linked L start code) (hCode : CodeLies start (assemble code) v₀.ram)
    (hLines : ∀ n l, (mmuLoop (L.userContext + BitVec.ofNat 16 i) k)[n]? = some l →
      code[k + n]? = some l)
    (hKept : Kept L v₀ w) :
    ∃ w', Turning L v i (j + 1) w' ∧ Kept L v₀ w' ∧
      Path start code 5 (k, w) (if j + 1 = 15 then k + 5 else k, w') := by
  let s : Segment := ⟨j, by omega⟩
  let byte := w.ram (L.userContext.toNat + (i + j))
  let w₁ := Inner.loadA w byte
  let w₂ : Inner := { w₁ with pageTable := Function.update w.pageTable s byte }
  let w₃ := Inner.loadX w₂ (w.x + 1)
  let w₄ : Inner := { w₃ with zero := w.x + 1 - lowByte (BitVec.setWidth 16 (0x0F : Byte)) == 0 }
  have hx := h.x
  have hKept₁ : Kept L v₀ w₁ := hKept.registers rfl rfl rfl
  have hLoad : LineDoes (ldaX (L.userContext + BitVec.ofNat 16 i)) w w₁ := by
    apply does_lda_absoluteX
    apply readsAs_raftX hLinked hKept (by omega)
    rw [hx]
  have hAddr : ((0xfe20 : Word) + w.x.setWidth 16).toNat = 0xfe20 + s.val := by
    rw [BitVec.toNat_add, BitVec.toNat_setWidth, hx]
    show (65056 + j % 65536) % 65536 = 65056 + j
    omega
  have hStore : LineDoes (staX 0xfe20) w₁ w₂ :=
    does_sta_absoluteX (writesAs_pageTable hKept₁.kernel s hAddr byte)
  have hStored : Kept L v₀ w₁ → Kept L v₀ w₂ := by
    intro hBefore
    refine ⟨hBefore.masked, ?_, hBefore.front⟩
    -- the last segment is not among those of the loop
    show Function.update w.pageTable s byte mmuLastSegment = kernelFrame
    have hOther : mmuLastSegment ≠ s := by
      intro hEq
      have hVal : (15 : Nat) = j := congrArg Fin.val hEq
      omega
    rw [Function.update_of_ne hOther]
    exact hKept.kernel
  have hStraight : Straight L v₀ [ldaX (L.userContext + BitVec.ofNat 16 i), staX 0xfe20, inx,
      cpxImmediate 0x0F] w w₄ := by
    refine .cons hLoad (fun _ => hKept₁) (by decide) rfl ?_
    refine .cons hStore hStored (by decide) rfl ?_
    refine .cons does_inx (fun h => h.registers rfl rfl rfl) (by decide) rfl ?_
    exact .cons does_cpx (fun h => h.registers rfl rfl rfl) (by decide) rfl (.nil _)
  obtain ⟨hPath, hKept₄⟩ := hStraight.path hLinked hCode (k := k) (by
    intro n l hl
    apply hLines
    match n, hl with
    | 0, hl => exact hl
    | 1, hl => exact hl
    | 2, hl => exact hl
    | 3, hl => exact hl) hKept
  have hNext : (w.x + 1).toNat = j + 1 := by
    rw [BitVec.toNat_add, hx]
    show (j + 1) % 256 = j + 1
    omega
  have hZero : w₄.zero = decide (j + 1 = 15) := by
    show (w.x + 1 - 0x0F#8 == 0) = decide (j + 1 = 15)
    rw [Bool.eq_iff_iff, beq_iff_eq, decide_eq_true_iff]
    constructor
    · intro hEq
      have hSame : w.x + 1 = 0x0F#8 := by
        rw [← BitVec.sub_add_cancel (w.x + 1) 0x0F#8, hEq]
        rfl
      rw [← hNext, hSame]
      rfl
    · intro hEq
      have hSame : w.x + 1 = 0x0F#8 := by
        apply BitVec.eq_of_toNat_eq
        rw [hNext, hEq]
        rfl
      rw [hSame, BitVec.sub_self]
      rfl
  refine ⟨w₄, ⟨hNext, h.y, h.sp, h.ram, h.prev, fun s' => ?_⟩, hKept₄, ?_⟩
  · show Function.update w.pageTable s byte s' = _
    rw [Function.update_apply]
    by_cases hEq : s' = s
    · have hVal : s'.val = j := congrArg Fin.val hEq
      rw [if_pos hEq, if_pos (by omega), hVal]
      exact congrFun h.ram _
    · have hVal : s'.val ≠ j := fun hSame => hEq (Fin.ext hSame)
      rw [if_neg hEq, h.pageTable]
      apply if_congr _ rfl rfl
      omega
  · have hLast : Path start code 1 (k + 4, w₄) (if j + 1 = 15 then k + 5 else k, w₄) := by
      have hMoves : Moves code (k + 4, w₄) (if j + 1 = 15 then k + 5 else k, w₄) := by
        refine ⟨bne k, hLines 4 _ rfl, mmuLoop_branch hLines, does_branch _ _, fun m hm => ?_⟩
        have hFlag : m.cpu.isSet statusZ = w₄.zero := congrArg Inner.zero hm
        show (if some (!m.cpu.isSet statusZ) = some true then k else k + 4 + 1) = _
        rw [hFlag, hZero]
        by_cases hEnd : j + 1 = 15
        · simp [hEnd]
        · simp [hEnd]
      exact .cons (hKept₄.quiet hLinked hCode) hMoves (.nil _)
    exact hPath.append hLast

/-- **`@mmu_loop`** maps all the segments but the last one. -/
theorem Turning.loop {w : Inner} (h : Turning L v i j w) (hd : j + d = 15) (hPos : 0 < d)
    (hi : i + 15 < 40) (hLinked : Linked L start code)
    (hCode : CodeLies start (assemble code) v₀.ram)
    (hLines : ∀ n l, (mmuLoop (L.userContext + BitVec.ofNat 16 i) k)[n]? = some l →
      code[k + n]? = some l)
    (hKept : Kept L v₀ w) :
    ∃ w', Turning L v i 15 w' ∧ Kept L v₀ w' ∧ Path start code (5 * d) (k, w) (k + 5, w') := by
  induction d generalizing j w with
  | zero => exact absurd hPos (Nat.lt_irrefl 0)
  | succ d ih =>
    obtain ⟨w₁, hTurn, hKept₁, hPath⟩ := h.turn (by omega) hi hLinked hCode hLines hKept
    rw [Nat.mul_succ, Nat.add_comm (5 * d)]
    by_cases hLast : d = 0
    · subst hLast
      rw [if_pos (by omega)] at hPath
      rw [show j + 1 = 15 by omega] at hTurn
      exact ⟨w₁, hTurn, hKept₁, hPath⟩
    · rw [if_neg (by omega)] at hPath
      obtain ⟨w₂, hEnd, hKept₂, hRest⟩ := ih hTurn (by omega) (by omega) hKept₁
      exact ⟨w₂, hEnd, hKept₂, hPath.append hRest⟩

end Loop

end Xv6502.Kernel.Trap
