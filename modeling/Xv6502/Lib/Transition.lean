import Mathlib.Data.List.Basic

/-!
# Runs of Labelled Transition Systems

Finite runs of a step relation over states `σ` and labels `ℓ`, with the rules the
developments of this project use: an invariant kept by every step holds in every state of
a run, a fact that every step keeps or else reports by its label is kept by the run or
reported by one of its labels, and a relation that every step carries along is carried along
by the run.
-/

namespace Xv6502.Lib

variable {σ ℓ : Type}

/-- `Run step s ls t`: from `s` the steps labelled `ls` lead to `t`. -/
inductive Run (step : σ → ℓ → σ → Prop) : σ → List ℓ → σ → Prop
  | nil (s : σ) : Run step s [] s
  | cons {s t u : σ} {l : ℓ} {ls : List ℓ} (head : step s l t) (tail : Run step t ls u) :
      Run step s (l :: ls) u

/-- The steps of `step` whose first state and label meet `cond`. -/
def Guarded (step : σ → ℓ → σ → Prop) (cond : σ → ℓ → Prop) (s : σ) (l : ℓ) (t : σ) : Prop :=
  step s l t ∧ cond s l

namespace Run

variable {step : σ → ℓ → σ → Prop} {s t u : σ} {ls ls' : List ℓ}

theorem append (h : Run step s ls t) (h' : Run step t ls' u) : Run step s (ls ++ ls') u := by
  induction h with
  | nil s => exact h'
  | cons head _ ih => exact .cons head (ih h')

/-- A run can be cut in two at any of its states. -/
theorem of_append (h : Run step s (ls ++ ls') u) : ∃ t, Run step s ls t ∧ Run step t ls' u := by
  induction ls generalizing s with
  | nil => exact ⟨s, .nil s, h⟩
  | cons l ls ih =>
    cases h with
    | cons head tail =>
      obtain ⟨t, hFirst, hSecond⟩ := ih tail
      exact ⟨t, .cons head hFirst, hSecond⟩

/-- A run is one of every relation that has its steps. -/
theorem mono {step' : σ → ℓ → σ → Prop} (hStep : ∀ s l t, step s l t → step' s l t)
    (h : Run step s ls t) : Run step' s ls t := by
  induction h with
  | nil s => exact .nil s
  | cons head _ ih => exact .cons (hStep _ _ _ head) ih

/-- **Invariant rule**: what every step preserves, every run preserves. -/
theorem invariant {inv : σ → Prop} (hStep : ∀ s l t, inv s → step s l t → inv t)
    (h : Run step s ls t) (hs : inv s) : inv t := by
  induction h with
  | nil s => exact hs
  | cons head _ ih => exact ih (hStep _ _ _ hs head)

/-- **Until rule**: under an invariant, what every step preserves unless its label is `bad`
    is preserved by every run without such a label. -/
theorem until_label {inv fact : σ → Prop} {bad : ℓ → Prop}
    (hInv : ∀ s l t, inv s → step s l t → inv t)
    (hFact : ∀ s l t, inv s → fact s → step s l t → fact t ∨ bad l)
    (h : Run step s ls t) (hs : inv s) (hf : fact s) : fact t ∨ ∃ l ∈ ls, bad l := by
  induction h with
  | nil s => exact .inl hf
  | cons head _ ih =>
    obtain hNext | hBad := hFact _ _ _ hs hf head
    · obtain hLast | ⟨l, hMem, hBad⟩ := ih (hInv _ _ _ hs head) hNext
      · exact .inl hLast
      · exact .inr ⟨l, List.mem_cons_of_mem _ hMem, hBad⟩
    · exact .inr ⟨_, List.mem_cons_self, hBad⟩

/-- **History rule**: a run is a run of the states together with what a function collects from
    the labels. -/
theorem with_history {γ : Type} (collect : γ → ℓ → γ) (g : γ) (h : Run step s ls t) :
    Run (fun (x : σ × γ) l y => step x.1 l y.1 ∧ y.2 = collect x.2 l) (s, g) ls
      (t, ls.foldl collect g) := by
  induction h generalizing g with
  | nil s => exact .nil _
  | cons head _ ih => exact .cons ⟨head, rfl⟩ (ih _)

/-- **Simulation rule**: what a run simulates step by step it simulates as a whole, with the
    same marks of its steps. -/
theorem simulation {σ' ℓ' μ : Type} {step' : σ' → ℓ' → σ' → Prop} {rel : σ → σ' → Prop}
    {marks : ℓ → List μ} {marks' : ℓ' → List μ}
    (hStep : ∀ s l t s', rel s s' → step s l t →
      ∃ ls' t', Run step' s' ls' t' ∧ ls'.flatMap marks' = marks l ∧ rel t t')
    (h : Run step s ls t) {s' : σ'} (hs : rel s s') :
    ∃ ls' t', Run step' s' ls' t' ∧ ls'.flatMap marks' = ls.flatMap marks ∧ rel t t' := by
  induction h generalizing s' with
  | nil s => exact ⟨[], s', .nil s', rfl, hs⟩
  | cons head _ ih =>
    obtain ⟨first, u', hFirst, hMarks, hu⟩ := hStep _ _ _ _ hs head
    obtain ⟨rest, t', hRest, hLater, ht⟩ := ih hu
    refine ⟨first ++ rest, t', hFirst.append hRest, ?_, ht⟩
    rw [List.flatMap_append, hMarks, hLater, List.flatMap_cons]

end Run

/-- Two histories collected at once. -/
theorem foldl_pair {γ δ : Type} (f : γ → ℓ → γ) (g : δ → ℓ → δ) (ls : List ℓ) (x : γ × δ) :
    ls.foldl (fun x l => (f x.1 l, g x.2 l)) x = (ls.foldl f x.1, ls.foldl g x.2) := by
  induction ls generalizing x with
  | nil => rfl
  | cons l ls ih => rw [List.foldl_cons, ih, List.foldl_cons, List.foldl_cons]

/-- The events performed one after the other, by a function that rejects what cannot happen. -/
def performAll (perform : σ → ℓ → Option σ) (s : σ) : List ℓ → Option σ
  | [] => some s
  | l :: ls => (perform s l).bind (performAll perform · ls)

theorem run_of_performAll {perform : σ → ℓ → Option σ} {s t : σ} {ls : List ℓ}
    (h : performAll perform s ls = some t) : Run (fun s l t => perform s l = some t) s ls t := by
  induction ls generalizing s with
  | nil =>
    cases h
    exact .nil _
  | cons l ls ih =>
    obtain ⟨u, hHead, hTail⟩ := Option.bind_eq_some_iff.mp h
    exact .cons hHead (ih hTail)

end Xv6502.Lib
