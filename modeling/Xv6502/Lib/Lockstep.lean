import Xv6502.Lib.StateProgram

/-!
# Two State Programs Side by Side

`Relates R good R' prog prog'` says that from states related by `R` the two programs return
results related by `good` and end in states related by `R'`. The programs need not be over the
same states, and one of them may do things that the other one does not.
-/

namespace Xv6502.Lib

variable {σ τ α α' β β' : Type} {R R₁ R' R'' : σ → τ → Prop} {good : α → α' → Prop}
  {good' : β → β' → Prop}

/-- From states related by `R` the programs return `good` results and end in states related by
    `R'`. -/
def Relates (R : σ → τ → Prop) (good : α → α' → Prop) (R' : σ → τ → Prop) (prog : StateM σ α)
    (prog' : StateM τ α') : Prop :=
  ∀ s t, R s t → good (prog.run s).1 (prog'.run t).1 ∧ R' (prog.run s).2 (prog'.run t).2

theorem relates_pure {a : α} {a' : α'} (h : good a a') :
    Relates R good R (pure a : StateM σ α) (pure a' : StateM τ α') :=
  fun _ _ hRel => ⟨h, hRel⟩

theorem relates_bind {prog : StateM σ α} {prog' : StateM τ α'} {next : α → StateM σ β}
    {next' : α' → StateM τ β'} (hProg : Relates R good R₁ prog prog')
    (hNext : ∀ a a', good a a' → Relates R₁ good' R' (next a) (next' a')) :
    Relates R good' R' (prog >>= next) (prog' >>= next') := by
  intro s t hRel
  obtain ⟨hGood, hEnd⟩ := hProg s t hRel
  exact hNext _ _ hGood _ _ hEnd

/-- Both programs go on with the same result. -/
theorem relates_bind_eq {prog : StateM σ α} {prog' : StateM τ α} {next : α → StateM σ β}
    {next' : α → StateM τ β'} (hProg : Relates R Eq R₁ prog prog')
    (hNext : ∀ a, Relates R₁ good' R' (next a) (next' a)) :
    Relates R good' R' (prog >>= next) (prog' >>= next') := by
  apply relates_bind hProg
  rintro a _ rfl
  exact hNext a

/-- The first program does something that the second one does not, and something is known of what
    it returns. -/
theorem relates_left {known : α → Prop} {prog : StateM σ α} {next : α → StateM σ β}
    {prog' : StateM τ β'} (hProg : Relates R (fun a (_ : Unit) => known a) R₁ prog (pure ()))
    (hNext : ∀ a, known a → Relates R₁ good' R' (next a) prog') :
    Relates R good' R' (prog >>= next) prog' := by
  intro s t hRel
  obtain ⟨hKnown, hEnd⟩ := hProg s t hRel
  exact hNext _ hKnown _ _ hEnd

theorem Relates.weaken {prog : StateM σ α} {prog' : StateM τ α'} (h : Relates R good R' prog prog')
    (hEnd : ∀ s t, R' s t → R'' s t) : Relates R good R'' prog prog' :=
  fun s t hRel => ⟨(h s t hRel).1, hEnd _ _ (h s t hRel).2⟩

end Xv6502.Lib
