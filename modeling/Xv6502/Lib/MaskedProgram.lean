import Mathlib.Logic.Basic

/-!
# Programs that Mask Interrupts

The control flow of programs on a CPU with one interrupt mask: they mask and unmask interrupts
without nesting, enter routines that want them masked, give the CPU to another thread, and can be
interrupted wherever the mask is off. What they compute is left open: a branch goes either way, a
loop makes any number of turns, and what the environment supplies is a value `δ` that the program
is continued with.

- `wp`: the weakest precondition of a program, as a condition on the mask alone, under an
  assumption on the values that the environment supplies.
- `Thread.Step.ok`: a thread whose frames meet their preconditions keeps doing so through its own
  steps and through interrupts, and enters the routines with interrupts masked.
-/

namespace Xv6502.Lib.Masked

variable {ρ δ : Type}

/-! ## §1 Programs -/

/-- Programs over routines `ρ` and values `δ` of the environment. -/
inductive Prog (ρ δ : Type) where
  | skip
  | mask
  | unmask
  /-- The entry of a routine that wants interrupts masked. -/
  | enter (r : ρ)
  /-- Another thread gets the CPU; this one goes on with the mask it had. -/
  | switch
  /-- The end of the program. -/
  | stop
  | seq (p q : Prog ρ δ)
  | either (p q : Prog ρ δ)
  /-- Any number of turns. -/
  | loop (p : Prog ρ δ)
  /-- The environment supplies a value. -/
  | await (f : δ → Prog ρ δ)

/-- The mask before the program from which every routine is entered with interrupts masked and every
    end of the program meets `post`, if the environment supplies only values with `cond`. -/
def wp (cond : δ → Bool → Prop) : Prog ρ δ → (Bool → Prop) → Bool → Prop
  | .skip, post, m => post m
  | .mask, post, _ => post true
  | .unmask, post, _ => post false
  | .enter _, post, m => m = true ∧ post m
  | .switch, post, m => post m
  -- nothing is required behind a program that does not come back
  | .stop, _, _ => True
  | .seq p q, post, m => wp cond p (wp cond q post) m
  | .either p q, post, m => wp cond p post m ∧ wp cond q post m
  -- the invariant holds before each turn, and the loop may end at each
  | .loop p, post, m => ∃ inv : Bool → Prop, inv m ∧ ∀ n, inv n → wp cond p inv n ∧ post n
  | .await f, post, m => ∀ d, cond d m → wp cond (f d) post m

section Rules

variable {cond : δ → Bool → Prop} {p q : Prog ρ δ} {post post' : Bool → Prop} {m : Bool}

theorem wp_mono (hPost : ∀ n, post n → post' n) (h : wp cond p post m) : wp cond p post' m := by
  induction p generalizing post post' m with
  | skip => exact hPost _ h
  | mask => exact hPost _ h
  | unmask => exact hPost _ h
  | enter r => exact ⟨h.1, hPost _ h.2⟩
  | switch => exact hPost _ h
  | stop => trivial
  | seq p q ihp ihq => exact ihp (fun _ => ihq hPost) h
  | either p q ihp ihq => exact ⟨ihp hPost h.1, ihq hPost h.2⟩
  | loop p _ =>
    obtain ⟨inv, hInv, hTurn⟩ := h
    exact ⟨inv, hInv, fun n hn => ⟨(hTurn n hn).1, hPost n (hTurn n hn).2⟩⟩
  | await f ih => exact fun d hd => ih d hPost (h d hd)

end Rules

/-! ## §2 Threads -/

/-- A program to be run, or the mask that the return from an interrupt restores. -/
inductive Frame (ρ δ : Type) where
  | run (p : Prog ρ δ)
  | restore (masked : Bool)

/-- A thread: what it has to do, innermost first, and the mask of the CPU while it runs. -/
structure Thread (ρ δ : Type) where
  frames : List (Frame ρ δ)
  masked : Bool

/-- What a thread does. -/
inductive Act (ρ δ : Type) where
  | silent
  | entered (r : ρ) (masked : Bool)
  | awaited (d : δ)
  | interrupted

namespace Thread

/-- A step of a thread on its own, or an interrupt. -/
inductive Step (handler : Prog ρ δ) : Thread ρ δ → Act ρ δ → Thread ρ δ → Prop
  | skip (k m) : Step handler ⟨.run .skip :: k, m⟩ .silent ⟨k, m⟩
  | mask (k m) : Step handler ⟨.run .mask :: k, m⟩ .silent ⟨k, true⟩
  | unmask (k m) : Step handler ⟨.run .unmask :: k, m⟩ .silent ⟨k, false⟩
  | enter (r k m) : Step handler ⟨.run (.enter r) :: k, m⟩ (.entered r m) ⟨k, m⟩
  | seq (p q k m) : Step handler ⟨.run (.seq p q) :: k, m⟩ .silent ⟨.run p :: .run q :: k, m⟩
  | left (p q k m) : Step handler ⟨.run (.either p q) :: k, m⟩ .silent ⟨.run p :: k, m⟩
  | right (p q k m) : Step handler ⟨.run (.either p q) :: k, m⟩ .silent ⟨.run q :: k, m⟩
  | again (p k m) : Step handler ⟨.run (.loop p) :: k, m⟩ .silent ⟨.run p :: .run (.loop p) :: k, m⟩
  | done (p k m) : Step handler ⟨.run (.loop p) :: k, m⟩ .silent ⟨k, m⟩
  | await (f d k m) : Step handler ⟨.run (.await f) :: k, m⟩ (.awaited d) ⟨.run (f d) :: k, m⟩
  | restore (n k m) : Step handler ⟨.restore n :: k, m⟩ .silent ⟨k, n⟩
  | interrupt (c k) :
      Step handler ⟨c :: k, false⟩ .interrupted ⟨.run handler :: .restore false :: c :: k, true⟩

/-- The frames meet their preconditions, from the innermost on. -/
def Ok (cond : δ → Bool → Prop) : List (Frame ρ δ) → Bool → Prop
  | [], _ => True
  | .run p :: k, m => wp cond p (Ok cond k) m
  | .restore n :: k, _ => Ok cond k n

/-- **Soundness**: a thread whose frames are in order stays so, and enters routines with interrupts
    masked. -/
theorem Step.ok {cond : δ → Bool → Prop} {handler : Prog ρ δ} {s t : Thread ρ δ} {a : Act ρ δ}
    (hHandler : wp cond handler (fun _ => True) true) (hStep : Step handler s a t)
    (hCond : ∀ d, a = .awaited d → cond d s.masked) (h : Ok cond s.frames s.masked) :
    Ok cond t.frames t.masked ∧ ∀ r m, a = .entered r m → m = true := by
  cases hStep with
  | skip k m => exact ⟨h, nofun⟩
  | mask k m => exact ⟨h, nofun⟩
  | unmask k m => exact ⟨h, nofun⟩
  | enter r k m =>
    refine ⟨h.2, ?_⟩
    rintro _ _ ⟨⟩
    exact h.1
  | seq p q k m => exact ⟨h, nofun⟩
  | left p q k m => exact ⟨h.1, nofun⟩
  | right p q k m => exact ⟨h.2, nofun⟩
  | again p k m =>
    obtain ⟨inv, hInv, hTurn⟩ := h
    refine ⟨wp_mono ?_ (hTurn m hInv).1, nofun⟩
    exact fun n hn => ⟨inv, hn, hTurn⟩
  | done p k m =>
    obtain ⟨inv, hInv, hTurn⟩ := h
    exact ⟨(hTurn m hInv).2, nofun⟩
  | await f d k m => exact ⟨h d (hCond d rfl), nofun⟩
  | restore n k m => exact ⟨h, nofun⟩
  | interrupt c k =>
    -- the interrupted frames wait for the mask to be restored
    exact ⟨wp_mono (fun _ _ => h) hHandler, nofun⟩

end Thread

end Xv6502.Lib.Masked
