import Xv6502.Lib.Transition
import Mathlib.Algebra.BigOperators.Group.List.Basic
import Mathlib.Algebra.GroupWithZero.Nat

/-!
# Amortised Runs

A system whose steps are paid for: a number, the rank, goes down with every step, but for the
credit that the label of the step brings in. Then the labels of a run bound its length, and a
system that is not done as long as a step without credit is possible can always be brought to an
end.
-/

namespace Xv6502.Lib

variable {σ ℓ : Type}

/-- Every step from a state with the invariant keeps it and is paid for. -/
structure Amortised (step : σ → ℓ → σ → Prop) (inv : σ → Prop) (rank : σ → Nat)
    (credit : ℓ → Nat) : Prop where
  keeps : ∀ s l t, inv s → step s l t → inv t
  pays : ∀ s l t, inv s → step s l t → rank t + 1 ≤ rank s + credit l

namespace Amortised

variable {step : σ → ℓ → σ → Prop} {inv done : σ → Prop} {rank : σ → Nat} {credit : ℓ → Nat}
  {s t : σ} {ls : List ℓ}

/-- **Amortisation**: a run has no more steps than the rank at its start and the credits of its
    labels pay for. -/
theorem length_le (h : Amortised step inv rank credit) (hRun : Run step s ls t) (hs : inv s) :
    ls.length + rank t ≤ rank s + (ls.map credit).sum := by
  induction hRun with
  | nil s => simp
  | cons head tail ih =>
    have hRest := ih (h.keeps _ _ _ hs head)
    have hFirst := h.pays _ _ _ hs head
    rw [List.length_cons, List.map_cons, List.sum_cons]
    omega

/-- **Progress**: if a step without credit is possible in every state that is not done, then such
    steps lead from any state to one that is. -/
theorem finishes (h : Amortised step inv rank credit)
    (hProgress : ∀ s, inv s → done s ∨ ∃ l t, credit l = 0 ∧ step s l t) (hs : inv s) :
    ∃ ls t, Run step s ls t ∧ (∀ l ∈ ls, credit l = 0) ∧ done t := by
  -- the rank of the state bounds what is left to do
  induction hRank : rank s using Nat.strongRecOn generalizing s with
  | ind n ih =>
    subst hRank
    rcases hProgress s hs with hDone | ⟨l, u, hCredit, hStep⟩
    · exact ⟨[], s, .nil s, by simp, hDone⟩
    · have hPays := h.pays s l u hs hStep
      obtain ⟨ls, t, hRun, hFree, hDone⟩ :=
        ih (rank u) (by omega) (h.keeps s l u hs hStep) rfl
      exact ⟨l :: ls, t, .cons hStep hRun, List.forall_mem_cons.mpr ⟨hCredit, hFree⟩, hDone⟩

end Amortised

end Xv6502.Lib
