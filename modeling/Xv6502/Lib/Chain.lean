import Mathlib.Data.List.Basic
import Mathlib.Logic.Function.Basic

/-!
# Linked Lists by Pointers

A chain of nodes linked by a partial function `next`, ended by `none`: the shape of a queue
with a head pointer, a tail pointer and a link field in each node.
-/

namespace Xv6502.Lib

variable {α : Type}

/-- `Chain next head l`: following `next` from `head` gives the nodes `l` and then ends. -/
def Chain (next : α → Option α) : Option α → List α → Prop
  | head, [] => head = none
  | head, a :: l => head = some a ∧ Chain next (next a) l

namespace Chain

variable {next next' : α → Option α} {head : Option α} {a b : α} {l : List α}

theorem head_eq (h : Chain next head l) : head = l.head? := by
  cases l with
  | nil => exact h
  | cons a l => exact h.1

/-- Links of nodes that are not in the chain do not matter. -/
theorem congr (h : Chain next head l) (hSame : ∀ a ∈ l, next' a = next a) :
    Chain next' head l := by
  induction l generalizing head with
  | nil => exact h
  | cons a l ih =>
    refine ⟨h.1, ?_⟩
    rw [hSame a List.mem_cons_self]
    exact ih h.2 fun c hc => hSame c (List.mem_cons_of_mem _ hc)

/-- A node is appended by linking it behind the last one. -/
theorem append [DecidableEq α] (h : Chain next head (l ++ [a])) (hNodup : (l ++ [a]).Nodup)
    (hb : b ∉ l ++ [a]) (hEnd : next b = none) :
    Chain (Function.update next a (some b)) head (l ++ [a] ++ [b]) := by
  induction l generalizing head with
  | nil =>
    have hNe : b ≠ a := by simpa using hb
    refine ⟨h.1, ?_, ?_⟩
    · exact Function.update_self ..
    · show Function.update next a (some b) b = none
      rw [Function.update_of_ne hNe, hEnd]
  | cons c l ih =>
    have hNe : c ≠ a := by
      rintro rfl
      simp at hNodup
    refine ⟨h.1, ?_⟩
    rw [Function.update_of_ne hNe]
    exact ih h.2 (List.nodup_cons.mp hNodup).2 fun hMem => hb (List.mem_cons_of_mem _ hMem)

end Chain

/-- The nodes from `head` on, at most `n` of them. -/
def follow (next : α → Option α) : Nat → Option α → List α
  | 0, _ => []
  | _, none => []
  | n + 1, some a => a :: follow next n (next a)

theorem Chain.follow_eq {next : α → Option α} {head : Option α} {l : List α} {n : Nat}
    (h : Chain next head l) (hn : l.length ≤ n) : follow next n head = l := by
  induction l generalizing head n with
  | nil =>
    have hNone : head = none := h
    cases n with
    | zero => rfl
    | succ n =>
      rw [hNone]
      rfl
  | cons a l ih =>
    cases n with
    | zero => exact absurd hn (by simp)
    | succ n =>
      rw [h.1, follow, ih h.2 (by simpa using hn)]

end Xv6502.Lib
