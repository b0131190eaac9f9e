import Mathlib.Data.List.Chain
import Mathlib.Data.List.Nodup
import Mathlib.Logic.Function.Basic

/-!
# Circular Doubly Linked Lists

Nodes `α` and a head, linked in both directions: a link is `none` when it leads to the head.
A ring is the list of nodes that lie between the head and itself. The two edits of such a list,
taking a node out and putting one in behind the head, are given as the assignments that make
them, and so are the two loops that look for a node.
-/

namespace Xv6502.Lib

variable {α : Type}

/-- The links of the nodes and of the head, `none`. -/
structure Links (α : Type) where
  next : Option α → Option α
  prev : Option α → Option α

namespace Links

/-- The first node is directly before the second one. -/
def Adjacent (L : Links α) (x y : Option α) : Prop := L.next x = y ∧ L.prev y = x

/-- `L.Ring l`: from the head, `next` leads through the nodes `l` back to the head, and `prev`
    leads the other way. -/
def Ring (L : Links α) (l : List α) : Prop :=
  (none :: (l.map some ++ [none])).IsChain L.Adjacent

variable {L M : Links α} {l before after : List α} {a b : α}

/-! ## §1 Both directions -/

theorem exists_next {r : Option α → Option α → Prop} {xs : List (Option α)} {x z : Option α}
    (h : (xs ++ [z]).IsChain r) (hx : x ∈ xs) : ∃ y, r x y := by
  induction xs with
  | nil => cases hx
  | cons u xs ih =>
    rw [List.cons_append, List.isChain_cons] at h
    rcases List.mem_cons.mp hx with rfl | hMem
    · cases xs with
      | nil => exact ⟨z, h.1 z rfl⟩
      | cons v xs => exact ⟨v, h.1 v rfl⟩
    · exact ih h.2 hMem

theorem Ring.reverse (h : L.Ring l) : Ring ⟨L.prev, L.next⟩ l.reverse := by
  have hSwapped : (none :: (l.map some ++ [none])).IsChain
      fun x y => Adjacent ⟨L.prev, L.next⟩ y x := List.IsChain.imp (fun _ _ => And.symm) h
  have hReverse := List.isChain_reverse.mpr hSwapped
  unfold Ring
  rw [List.map_reverse]
  simpa using hReverse

/-- In a ring of all nodes the links are inverse to each other. -/
theorem Ring.prev_next (h : L.Ring l) (hAll : ∀ a, a ∈ l) (x : Option α) :
    L.prev (L.next x) = x := by
  have hMem : x ∈ none :: l.map some := by
    cases x with
    | none => exact List.mem_cons_self
    | some a => exact List.mem_cons_of_mem _ (List.mem_map.mpr ⟨a, hAll a, rfl⟩)
  obtain ⟨y, hNext, hPrev⟩ := exists_next (show (none :: l.map some ++ [none]).IsChain L.Adjacent from h) hMem
  rw [hNext, hPrev]

theorem Ring.next_prev (h : L.Ring l) (hAll : ∀ a, a ∈ l) (x : Option α) :
    L.next (L.prev x) = x :=
  h.reverse.prev_next (fun a => List.mem_reverse.mpr (hAll a)) x

/-! ## §2 The loops -/

/-- `for (x = start; x != &head; x = step(x))`, which stops at a node that passes the test.
    The result is `none` when the loop has not ended after so many turns, and `some none` when it
    comes back to the head. -/
def search (step : Option α → Option α) (test : α → Bool) : Nat → Option α → Option (Option α)
  | 0, _ => none
  | _ + 1, none => some none
  | turns + 1, some a => if test a then some (some a) else search step test turns (step (some a))

theorem search_of_chain {step : Option α → Option α} {test : α → Bool} {start : Option α}
    {turns : Nat} (h : (start :: (l.map some ++ [none])).IsChain fun x y => step x = y)
    (hTurns : l.length < turns) : search step test turns (step start) = some (l.find? test) := by
  induction l generalizing start turns with
  | nil =>
    obtain ⟨turns, rfl⟩ := Nat.exists_eq_add_of_lt hTurns
    have hStep : step start = none := (List.isChain_cons.mp h).1 none rfl
    rw [hStep]
    rfl
  | cons a l ih =>
    obtain ⟨hHead, hTail⟩ := List.isChain_cons.mp h
    have hStep : step start = some a := hHead (some a) rfl
    obtain ⟨turns, rfl⟩ : ∃ rest, turns = rest + 1 := ⟨turns - 1, by omega⟩
    rw [hStep, search, List.find?_cons]
    cases test a with
    | true => rfl
    | false => exact ih hTail (by simpa using hTurns)

/-- The loop along `next` finds the first node that passes the test. -/
theorem Ring.search_next {test : α → Bool} {turns : Nat} (h : L.Ring l)
    (hTurns : l.length < turns) :
    search L.next test turns (L.next none) = some (l.find? test) :=
  search_of_chain (List.IsChain.imp (fun _ _ hAdjacent => hAdjacent.1) h) hTurns

/-- The loop along `prev` finds the last node that passes the test. -/
theorem Ring.search_prev {test : α → Bool} {turns : Nat} (h : L.Ring l)
    (hTurns : l.length < turns) :
    search L.prev test turns (L.prev none) = some (l.reverse.find? test) :=
  h.reverse.search_next (by simpa using hTurns)

/-! ## §3 The edits -/

section Edits

variable [DecidableEq α]

/-- `b->next->prev = b->prev; b->prev->next = b->next`. -/
def unlink (L : Links α) (b : α) : Links α :=
  let L := { L with prev := Function.update L.prev (L.next (some b)) (L.prev (some b)) }
  { L with next := Function.update L.next (L.prev (some b)) (L.next (some b)) }

/-- `b->next = head.next; b->prev = &head; head.next->prev = b; head.next = b`. -/
def insertFront (L : Links α) (b : α) : Links α :=
  let L := { L with next := Function.update L.next (some b) (L.next none) }
  let L := { L with prev := Function.update L.prev (some b) none }
  let L := { L with prev := Function.update L.prev (L.next none) (some b) }
  { L with next := Function.update L.next none (some b) }

omit [DecidableEq α] in
/-- The chain behind the head stays when its pairs of neighbours do. -/
theorem chain_congr (h : (l.map some ++ [none]).IsChain L.Adjacent)
    (hSame : ∀ a ∈ l, ∀ y ∈ l.map some ++ [none], L.Adjacent (some a) y → M.Adjacent (some a) y) :
    (l.map some ++ [none]).IsChain M.Adjacent := by
  induction l with
  | nil => exact List.isChain_singleton none
  | cons a l ih =>
    rw [List.map_cons, List.cons_append, List.isChain_cons] at h ⊢
    constructor
    · intro y hy
      exact hSame a List.mem_cons_self y (List.mem_cons_of_mem _ (List.mem_of_head? hy)) (h.1 y hy)
    · apply ih h.2
      intro c hc y hy
      exact hSame c (List.mem_cons_of_mem _ hc) y (List.mem_cons_of_mem _ hy)

theorem unlink_eq {x y : Option α} (hPrev : L.prev (some b) = x) (hNext : L.next (some b) = y)
    (hy : some b ≠ y) : L.unlink b = ⟨Function.update L.next x y, Function.update L.prev y x⟩ := by
  unfold unlink
  dsimp only
  rw [hNext, hPrev, Function.update_of_ne hy, hPrev]

/-- Taking a node out leaves the other pairs of neighbours alone. -/
theorem Adjacent.unlink {x y u v : Option α} (h : L.Adjacent u v) (hu : u ≠ some b)
    (hv : v ≠ some b) (hx : L.Adjacent x (some b)) (hy : L.Adjacent (some b) y) (hb : some b ≠ y) :
    (L.unlink b).Adjacent u v := by
  have hux : u ≠ x := by
    rintro rfl
    exact hv (h.1.symm.trans hx.1)
  have hvy : v ≠ y := by
    rintro rfl
    exact hu (h.2.symm.trans hy.2)
  rw [unlink_eq hx.2 hy.1 hb]
  exact ⟨(Function.update_of_ne hux ..).trans h.1, (Function.update_of_ne hvy ..).trans h.2⟩

/-- A node is taken out of the ring. -/
theorem Ring.unlink (h : L.Ring (before ++ b :: after)) (hNodup : (before ++ b :: after).Nodup) :
    (L.unlink b).Ring (before ++ after) := by
  have hOut : b ∉ before ∧ b ∉ after := by
    have hMiddle := List.nodup_middle.mp hNodup
    simpa using (List.nodup_cons.mp hMiddle).1
  have hSplit : (none :: before.map some ++ some b :: (after.map some ++ [none])).IsChain
      L.Adjacent := by simpa [Ring] using h
  obtain ⟨hBefore, hFrom, hSeam⟩ := List.isChain_append.mp hSplit
  obtain ⟨hNext, hAfter⟩ := List.isChain_cons.mp hFrom
  -- the neighbours of the node
  obtain ⟨x, hx⟩ : ∃ x, (none :: before.map some).getLast? = some x :=
    Option.isSome_iff_exists.mp (by simp)
  obtain ⟨y, hy⟩ : ∃ y, (after.map some ++ [none]).head? = some y :=
    Option.isSome_iff_exists.mp (by simp)
  have hxb : L.Adjacent x (some b) := hSeam x hx (some b) rfl
  have hby : L.Adjacent (some b) y := hNext y hy
  have hNe : ∀ z ∈ after.map some ++ [none], z ≠ some b := by
    rintro z hz rfl
    simp [hOut.2] at hz
  have hNe' : ∀ z ∈ none :: before.map some, z ≠ some b := by
    rintro z hz rfl
    simp [hOut.1] at hz
  have hyb : some b ≠ y := (hNe y (List.mem_of_head? hy)).symm
  have hJoined : (none :: before.map some ++ (after.map some ++ [none])).IsChain
      (L.unlink b).Adjacent := by
    apply List.IsChain.append
    · refine hBefore.imp_of_mem_imp fun u v hu hv hAdjacent => ?_
      exact hAdjacent.unlink (hNe' u hu) (hNe' v hv) hxb hby hyb
    · refine hAfter.imp_of_mem_imp fun u v hu hv hAdjacent => ?_
      exact hAdjacent.unlink (hNe u hu) (hNe v hv) hxb hby hyb
    · intro u hu v hv
      obtain rfl : x = u := by simpa [hx] using hu
      obtain rfl : y = v := by simpa [hy] using hv
      rw [unlink_eq hxb.2 hby.1 hyb]
      exact ⟨Function.update_self .., Function.update_self ..⟩
  simpa [Ring] using hJoined

/-- A node is put in behind the head. -/
theorem Ring.insertFront (h : L.Ring l) (hb : b ∉ l) : (L.insertFront b).Ring (b :: l) := by
  obtain ⟨hHead, hTail⟩ := List.isChain_cons.mp h
  -- `y` is the first node, or the end of the list if there is none
  obtain ⟨y, hy⟩ : ∃ y, (l.map some ++ [none]).head? = some y :=
    Option.isSome_iff_exists.mp (by simp)
  have hFirst : L.Adjacent none y := hHead y hy
  have hNe : ∀ z ∈ l.map some ++ [none], z ≠ some b := by
    rintro z hz rfl
    simp [hb] at hz
  have hyb : y ≠ some b := hNe y (List.mem_of_head? hy)
  have hLinks : L.insertFront b =
      ⟨Function.update (Function.update L.next (some b) y) none (some b),
        Function.update (Function.update L.prev (some b) none) y (some b)⟩ := by
    unfold Links.insertFront
    dsimp only
    rw [Function.update_of_ne (by simp), hFirst.1]
  rw [Ring, hLinks, List.map_cons, List.cons_append, List.isChain_cons, List.isChain_cons]
  refine ⟨?_, ?_, ?_⟩
  · intro z hz
    obtain rfl : some b = z := by simpa using hz
    simp [Adjacent, hyb.symm]
  · intro z hz
    obtain rfl : y = z := by simpa [hy] using hz
    simp [Adjacent]
  -- behind the first node no link changes
  · refine chain_congr hTail fun a ha z hz hAdjacent => ?_
    have hab : some a ≠ some b := hNe (some a) (by simp [ha])
    have hzy : z ≠ y := by
      rintro rfl
      exact absurd (hFirst.2.symm.trans hAdjacent.2) (by simp)
    simpa [Adjacent, hab, hzy, hNe z hz] using hAdjacent

/-- A node of the ring is moved to the front. -/
theorem Ring.moveFront (h : L.Ring l) (hNodup : l.Nodup) (hb : b ∈ l) :
    ((L.unlink b).insertFront b).Ring (b :: l.erase b) := by
  obtain ⟨before, after, rfl, hErase⟩ : ∃ before after, l = before ++ b :: after ∧
      l.erase b = before ++ after := by
    obtain ⟨before, after, -, hl, hErase⟩ := List.exists_erase_eq hb
    exact ⟨before, after, hl, hErase⟩
  have hOut := hNodup.not_mem_erase (a := b)
  rw [hErase] at hOut ⊢
  exact (h.unlink hNodup).insertFront hOut

/-- Nodes put into an empty ring one after the other. -/
theorem Ring.insertAll (h : L.Ring l) {nodes : List α} (hNodup : nodes.Nodup)
    (hOut : ∀ b ∈ nodes, b ∉ l) :
    (nodes.foldl Links.insertFront L).Ring (nodes.reverse ++ l) := by
  induction nodes generalizing L l with
  | nil => exact h
  | cons b nodes ih =>
    obtain ⟨hb, hRest⟩ := List.nodup_cons.mp hNodup
    have hNext := ih (h.insertFront (hOut b List.mem_cons_self)) hRest fun c hc => by
      have hcb : c ≠ b := by
        rintro rfl
        exact hb hc
      simpa [hcb] using hOut c (List.mem_cons_of_mem _ hc)
    simpa using hNext

end Edits

end Links

end Xv6502.Lib
