import Mathlib.Order.Defs.Unbundled

/-!
# State Programs that Keep a Relation

A program logic for `StateM` as small as it can be: `Keeps R prog` says that every run of
`prog` relates the state it starts from to the state it ends in by `R`. For a reflexive
and transitive `R` the programs that keep it are closed under sequencing and case
analysis, so that a frame property of a large interpreter follows from the same property
of its few primitive accesses.
-/

namespace Xv6502.Lib

variable {σ α β : Type} {R : σ → σ → Prop}

/-! ## §1 Programs that keep a relation -/

/-- Run the first part of a program whose run is known. -/
theorem run_bind_eq {prog : StateM σ α} {next : α → StateM σ β} {s s' : σ} {a : α}
    (h : prog.run s = (a, s')) : (prog >>= next).run s = (next a).run s' := by
  rw [StateT.run_bind, h]
  rfl

/-- Every run of `prog` relates its first and its last state by `R`. -/
def Keeps (R : σ → σ → Prop) (prog : StateM σ α) : Prop :=
  ∀ s, R s (prog.run s).2

theorem keeps_pure [Std.Refl R] (a : α) : Keeps R (pure a : StateM σ α) :=
  fun s => Std.Refl.refl s

theorem keeps_bind [IsTrans σ R] {prog : StateM σ α} {next : α → StateM σ β}
    (hProg : Keeps R prog) (hNext : ∀ a, Keeps R (next a)) : Keeps R (prog >>= next) := by
  intro s
  exact IsTrans.trans _ _ _ (hProg s) (hNext (prog.run s).1 (prog.run s).2)

theorem keeps_ite {c : Prop} [Decidable c] {thenProg elseProg : StateM σ α}
    (hThen : Keeps R thenProg) (hElse : Keeps R elseProg) :
    Keeps R (if c then thenProg else elseProg) := by
  split
  · exact hThen
  · exact hElse

theorem keeps_get [Std.Refl R] : Keeps R (get : StateM σ σ) :=
  fun s => Std.Refl.refl s

theorem keeps_modify {f : σ → σ} (h : ∀ s, R s (f s)) :
    Keeps R (modify f : StateM σ PUnit) :=
  fun s => h s

/-! ## §2 Results

What a program returns, whatever state it starts from. -/

section Returns

variable {good : β → Prop}

/-- Every run of `prog` returns something `good`. -/
def Returns (good : β → Prop) (prog : StateM σ β) : Prop :=
  ∀ s, good (prog.run s).1

theorem returns_pure {b : β} (h : good b) : Returns good (pure b : StateM σ β) :=
  fun _ => h

/-- The last part of a program decides what it returns. -/
theorem returns_bind {prog : StateM σ α} {next : α → StateM σ β}
    (hNext : ∀ a, Returns good (next a)) : Returns good (prog >>= next) :=
  fun s => hNext (prog.run s).1 (prog.run s).2

theorem returns_ite {c : Prop} [Decidable c] {thenProg elseProg : StateM σ β}
    (hThen : Returns good thenProg) (hElse : Returns good elseProg) :
    Returns good (if c then thenProg else elseProg) := by
  split
  · exact hThen
  · exact hElse

end Returns

/-! ## §3 Programs with a history

A program over a richer state that does the same as another one, seen through a function that
forgets the rest. -/

section Projects

variable {τ : Type} {f : τ → σ}

/-- Seen through `f`, every run of `rich` is the run of `prog`. -/
def Projects (f : τ → σ) (rich : StateM τ α) (prog : StateM σ α) : Prop :=
  ∀ t, prog.run (f t) = ((rich.run t).1, f (rich.run t).2)

theorem projects_pure (a : α) : Projects f (pure a) (pure a) := fun _ => rfl

theorem projects_bind {rich : StateM τ α} {prog : StateM σ α} {richNext : α → StateM τ β}
    {next : α → StateM σ β} (hProg : Projects f rich prog)
    (hNext : ∀ a, Projects f (richNext a) (next a)) :
    Projects f (rich >>= richNext) (prog >>= next) := by
  intro t
  rw [run_bind_eq (hProg t), hNext]
  rfl

theorem projects_ite {c : Prop} [Decidable c] {richThen richElse : StateM τ α}
    {thenProg elseProg : StateM σ α} (hThen : Projects f richThen thenProg)
    (hElse : Projects f richElse elseProg) :
    Projects f (if c then richThen else richElse) (if c then thenProg else elseProg) := by
  split
  · exact hThen
  · exact hElse

end Projects

end Xv6502.Lib
