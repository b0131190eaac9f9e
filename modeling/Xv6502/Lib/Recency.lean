import Mathlib.Data.List.Basic

/-!
# Move to Front

A list whose elements are moved to its front when they are used is ordered by their last use. So
a search from its end finds, among the elements that meet a condition, the one whose last use is
oldest.
-/

namespace Xv6502.Lib

variable {α : Type} [DecidableEq α]

/-- The time of the last use of `a`, with the uses newest first; 0 if there is none. -/
def lastUse : List α → α → Nat
  | [], _ => 0
  | u :: uses, a => if u = a then uses.length + 1 else lastUse uses a

/-- The list is ordered by the last uses, newest first. -/
def ByRecency (uses order : List α) : Prop :=
  order.Pairwise fun a b => lastUse uses b ≤ lastUse uses a

variable {uses order : List α} {a b : α}

theorem lastUse_le_length (uses : List α) (a : α) : lastUse uses a ≤ uses.length := by
  induction uses with
  | nil => exact Nat.le_refl 0
  | cons u uses ih =>
    rw [lastUse, List.length_cons]
    by_cases hu : u = a
    · exact Nat.le_of_eq (if_pos hu)
    · rw [if_neg hu]
      omega

/-- Two elements are not used at the same time. -/
theorem lastUse_inj (hEq : lastUse uses a = lastUse uses b) (hUsed : lastUse uses a ≠ 0) :
    a = b := by
  induction uses with
  | nil => exact absurd rfl hUsed
  | cons u uses ih =>
    have ha := lastUse_le_length uses a
    have hb := lastUse_le_length uses b
    rw [lastUse, lastUse] at hEq
    rw [lastUse] at hUsed
    by_cases hua : u = a
    · by_cases hub : u = b
      · exact hua.symm.trans hub
      · rw [if_pos hua, if_neg hub] at hEq
        omega
    · rw [if_neg hua] at hEq hUsed
      by_cases hub : u = b
      · rw [if_pos hub] at hEq
        omega
      · rw [if_neg hub] at hEq
        exact ih hEq hUsed

theorem byRecency_nil (order : List α) : ByRecency [] order :=
  List.pairwise_of_forall fun _ _ => Nat.le_refl 0

/-- A use moves the element to the front. -/
theorem ByRecency.use (h : ByRecency uses order) (hNodup : order.Nodup) (a : α) :
    ByRecency (a :: uses) (a :: order.erase a) := by
  have hRest : ∀ b ∈ order.erase a, lastUse (a :: uses) b = lastUse uses b := by
    intro b hb
    have hne : a ≠ b := fun hEq => ((hNodup.mem_erase_iff).mp hb).1 hEq.symm
    rw [lastUse, if_neg hne]
  refine List.pairwise_cons.mpr ⟨?_, ?_⟩
  · intro b hb
    rw [hRest b hb, lastUse, if_pos rfl]
    exact Nat.le_succ_of_le (lastUse_le_length uses b)
  · refine ((List.Pairwise.sublist List.erase_sublist h).imp_of_mem ?_)
    intro b c hb hc hbc
    rwa [hRest b hb, hRest c hc]

/-- The first element from the end that meets a condition is the one used longest ago. -/
theorem ByRecency.oldest (h : ByRecency uses order) {cond : α → Bool}
    (hFound : order.reverse.find? cond = some a) (hb : b ∈ order) (hCond : cond b = true) :
    lastUse uses a ≤ lastUse uses b := by
  obtain ⟨-, before, behind, hOrder, hBefore⟩ := List.find?_eq_some_iff_append.mp hFound
  have hMem : b ∈ order.reverse := List.mem_reverse.mpr hb
  have hReverse := List.pairwise_reverse.mpr h
  rw [hOrder] at hMem hReverse
  rcases List.mem_append.mp hMem with hIn | hIn
  · -- everything nearer to the end fails the condition
    have hFails := hBefore b hIn
    rw [hCond] at hFails
    cases hFails
  · rcases List.mem_cons.mp hIn with hEq | hLater
    · exact Nat.le_of_eq (congrArg _ hEq.symm)
    · have hTail := (List.pairwise_append.mp hReverse).2.1
      exact (List.pairwise_cons.mp hTail).1 b hLater

end Xv6502.Lib
