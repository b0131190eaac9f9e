import Mathlib.Logic.Basic

/-!
# Code that Can Be Interrupted

Structured code of instructions on a state, with calls of routines that are known by what they do
only. Before and after every part of the code something else may happen to the state: an interrupt
is handled, a device moves.

- `Runs`: the runs of the code, for given effects of the instructions, the calls and what happens
  between.
- `Triple`: partial correctness. The rules ask that the assertions are stable under what happens
  between.
-/

namespace Xv6502.Lib.Interruptible

variable {ι ρ σ : Type}

/-! ## §1 Code and its runs -/

/-- Code over instructions `ι`, routines `ρ` and states `σ`. -/
inductive Code (ι ρ σ : Type) where
  | skip
  | op (i : ι)
  | seq (a b : Code ι ρ σ)
  /-- The body once, and again as long as the test holds behind it. -/
  | again (body : Code ι ρ σ) (test : σ → Bool)
  | branch (test : σ → Bool) (a b : Code ι ρ σ)
  | call (r : ρ)

/-- Straight code. -/
def Code.ops : List ι → Code ι ρ σ
  | [] => .skip
  | i :: code => .seq (.op i) (Code.ops code)

/-- What the parts of the code mean. -/
structure Semantics (ι ρ σ : Type) where
  exec : ι → σ → σ
  calls : ρ → σ → σ → Prop
  /-- What happens between the instructions. -/
  between : σ → σ → Prop

/-- The runs of code. -/
inductive Runs (sem : Semantics ι ρ σ) : Code ι ρ σ → σ → σ → Prop
  | skip (s) : Runs sem .skip s s
  | op (i s) : Runs sem (.op i) s (sem.exec i s)
  | seq {a b s s₁ s₂} : Runs sem a s s₁ → Runs sem b s₁ s₂ → Runs sem (.seq a b) s s₂
  | done {body test s s₁} : Runs sem body s s₁ → test s₁ = false → Runs sem (.again body test) s s₁
  | again {body test s s₁ s₂} : Runs sem body s s₁ → test s₁ = true →
      Runs sem (.again body test) s₁ s₂ → Runs sem (.again body test) s s₂
  | left {test a b s s₁} : test s = true → Runs sem a s s₁ → Runs sem (.branch test a b) s s₁
  | right {test a b s s₁} : test s = false → Runs sem b s s₁ → Runs sem (.branch test a b) s s₁
  | call {r s s₁} : sem.calls r s s₁ → Runs sem (.call r) s s₁
  | before {c s s₁ s₂} : sem.between s s₁ → Runs sem c s₁ s₂ → Runs sem c s s₂
  | after {c s s₁ s₂} : Runs sem c s s₁ → sem.between s₁ s₂ → Runs sem c s s₂

/-- Straight code runs without anything between. -/
theorem Runs.ops {sem : Semantics ι ρ σ} (code : List ι) (s : σ) :
    Runs sem (Code.ops code) s (code.foldl (fun s i => sem.exec i s) s) := by
  induction code generalizing s with
  | nil => exact .skip s
  | cons i code ih => exact .seq (.op i s) (ih (sem.exec i s))

/-- A loop whose turns run and count down has a run. -/
theorem Runs.exists_again {sem : Semantics ι ρ σ} {body : Code ι ρ σ} {test : σ → Bool}
    {P : Nat → σ → Prop}
    (hTurn : ∀ k s, P k s → ∃ s', Runs sem body s s' ∧ (test s' = true → ∃ j < k, P j s')) :
    ∀ k s, P k s → ∃ s', Runs sem (.again body test) s s' := by
  intro k
  induction k using Nat.strongRecOn with
  | ind k ih =>
    intro s hs
    obtain ⟨s', hRun, hNext⟩ := hTurn k s hs
    by_cases hTest : test s' = true
    · obtain ⟨j, hj, hs'⟩ := hNext hTest
      obtain ⟨s'', hRest⟩ := ih j hj s' hs'
      exact ⟨s'', .again hRun hTest hRest⟩
    · exact ⟨s', .done hRun (Bool.eq_false_iff.mpr hTest)⟩

/-! ## §2 Assertions -/

/-- The assertion is kept by what happens between the instructions. -/
def Stable (sem : Semantics ι ρ σ) (P : σ → Prop) : Prop :=
  ∀ s s', P s → sem.between s s' → P s'

/-- From `P`, every run of the code ends in `Q`. -/
def Triple (sem : Semantics ι ρ σ) (P : σ → Prop) (c : Code ι ρ σ) (Q : σ → Prop) : Prop :=
  ∀ s s', P s → Runs sem c s s' → Q s'

section Rules

variable {sem : Semantics ι ρ σ} {P P' Q Q' R : σ → Prop} {a b : Code ι ρ σ} {test : σ → Bool}

/-- **Consequence**. -/
theorem Triple.weaken (h : Triple sem P a Q) (hP : ∀ s, P' s → P s) (hQ : ∀ s, Q s → Q' s) :
    Triple sem P' a Q' :=
  fun s s' hs hRun => hQ s' (h s s' (hP s hs) hRun)

/-- **Instructions**. -/
theorem Triple.op {i : ι} (hP : Stable sem P) (hQ : Stable sem Q)
    (h : ∀ s, P s → Q (sem.exec i s)) : Triple sem P (.op i) Q := by
  intro s s' hs hRun
  generalize hc : Code.op i = c at hRun
  induction hRun with
  | op j s =>
    cases hc
    exact h s hs
  | before hBetween _ ih => exact ih (hP _ _ hs hBetween) hc
  | after _ hBetween ih => exact hQ _ _ (ih hs hc) hBetween
  | _ => cases hc

theorem Triple.skip (hP : Stable sem P) : Triple sem P .skip P := by
  intro s s' hs hRun
  generalize hc : Code.skip = c at hRun
  induction hRun with
  | skip => exact hs
  | before hBetween _ ih => exact ih (hP _ _ hs hBetween) hc
  | after _ hBetween ih => exact hP _ _ (ih hs hc) hBetween
  | _ => cases hc

/-- **Sequence**. -/
theorem Triple.seq (hP : Stable sem P) (hR : Stable sem R) (ha : Triple sem P a Q)
    (hb : Triple sem Q b R) : Triple sem P (.seq a b) R := by
  intro s s' hs hRun
  generalize hc : Code.seq a b = c at hRun
  induction hRun with
  | seq ha' hb' =>
    cases hc
    exact hb _ _ (ha _ _ hs ha') hb'
  | before hBetween _ ih => exact ih (hP _ _ hs hBetween) hc
  | after _ hBetween ih => exact hR _ _ (ih hs hc) hBetween
  | _ => cases hc

/-- **Loops**: a turn leads from `P` to `Q`, and from there back to `P` or out to `R`. -/
theorem Triple.again (hP : Stable sem P) (hR : Stable sem R) (hBody : Triple sem P a Q)
    (hBack : ∀ s, Q s → test s = true → P s) (hOut : ∀ s, Q s → test s = false → R s) :
    Triple sem P (.again a test) R := by
  intro s s' hs hRun
  generalize hc : Code.again a test = c at hRun
  induction hRun with
  | done hTurn hTest =>
    cases hc
    exact hOut _ (hBody _ _ hs hTurn) hTest
  | again hTurn hTest _ _ ih =>
    cases hc
    exact ih (hBack _ (hBody _ _ hs hTurn) hTest) rfl
  | before hBetween _ ih => exact ih (hP _ _ hs hBetween) hc
  | after _ hBetween ih => exact hR _ _ (ih hs hc) hBetween
  | _ => cases hc

/-- **Branches**. -/
theorem Triple.branch (hP : Stable sem P) (hR : Stable sem R)
    (ha : Triple sem (fun s => P s ∧ test s = true) a R)
    (hb : Triple sem (fun s => P s ∧ test s = false) b R) :
    Triple sem P (.branch test a b) R := by
  intro s s' hs hRun
  generalize hc : Code.branch test a b = c at hRun
  induction hRun with
  | left hTest hLeft =>
    cases hc
    exact ha _ _ ⟨hs, hTest⟩ hLeft
  | right hTest hRight =>
    cases hc
    exact hb _ _ ⟨hs, hTest⟩ hRight
  | before hBetween _ ih => exact ih (hP _ _ hs hBetween) hc
  | after _ hBetween ih => exact hR _ _ (ih hs hc) hBetween
  | _ => cases hc

/-- **Calls**. -/
theorem Triple.call {r : ρ} (hP : Stable sem P) (hQ : Stable sem Q)
    (h : ∀ s s', P s → sem.calls r s s' → Q s') : Triple sem P (.call r) Q := by
  intro s s' hs hRun
  generalize hc : Code.call r = c at hRun
  induction hRun with
  | call hCall =>
    cases hc
    exact h _ _ hs hCall
  | before hBetween _ ih => exact ih (hP _ _ hs hBetween) hc
  | after _ hBetween ih => exact hQ _ _ (ih hs hc) hBetween
  | _ => cases hc

/-- Straight code has a run, which ends as the triple says. -/
theorem Triple.exists_ops {code : List ι} (h : Triple sem P (Code.ops code) Q) {s : σ} (hs : P s) :
    ∃ s', Runs sem (Code.ops code) s s' ∧ Q s' :=
  ⟨_, .ops code s, h _ _ hs (.ops code s)⟩

end Rules

end Xv6502.Lib.Interruptible
