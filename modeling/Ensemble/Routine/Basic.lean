import Ensemble.Clock

/-!
# Routines

A routine is an activity that works on a shared state and may wait for the timer. `Progress` says
how far it gets by itself: it is done, or it waits and tells how it goes on from whatever clock and
state it then finds. Every routine gets done: a chain of waits is finite, though no bound is known
in advance.
-/

namespace Ensemble

/-- How far a routine gets without time passing. -/
inductive Progress (σ α : Type) where
  | done (clock : Clock) (state : σ) (value : α)
  | waiting (wake : Wake) (clock : Clock) (state : σ) (resume : Clock → σ → Progress σ α)

/-- An activity on states `σ` with a result in `α`. -/
def Routine (σ α : Type) := Clock → σ → Progress σ α

namespace Progress

variable {σ τ ρ α β : Type}

/-- Goes on with another routine when this one is done. -/
def andThen : Progress σ α → (α → Routine σ β) → Progress σ β
  | done c s a, f => f a c s
  | waiting w c s k, f => waiting w c s fun c s => (k c s).andThen f

/-- Runs to the end: whenever the routine waits, the timer moves on to the moment it waits for. -/
def finish : Progress σ α → Clock × σ × α
  | done c s a => (c, s, a)
  | waiting w c s k => (k (c.advance w.due) s).finish

/-- Works on a part of a larger state, which is looked up again whenever the routine goes on. -/
def zoom (get : σ → τ) (set : τ → σ → σ) : σ → Progress τ α → Progress σ α
  | s, done c t a => done c (set t s) a
  | s, waiting w c t k => waiting w c (set t s) fun c s => zoom get set s (k c (get s))

/-- Keeps a part of the state to the routine, which nobody else sees or changes. -/
def keeping : Progress (σ × ρ) α → Progress σ (α × ρ)
  | done c (s, r) a => done c s (a, r)
  | waiting w c (s, r) k => waiting w c s fun c s => (k c (s, r)).keeping

end Progress

namespace Routine

variable {σ τ ρ α β : Type}

instance : Monad (Routine σ) where
  pure a := fun c s => .done c s a
  bind r f := fun c s => (r c s).andThen f

/-- The clock. -/
def clock : Routine σ Clock := fun c s => .done c s c

/-- The state. -/
def get : Routine σ σ := fun c s => .done c s s

/-- Changes the state. -/
def modify (f : σ → σ) : Routine σ Unit := fun c s => .done c (f s) ()

/-- Loses time. -/
def stall (ms : Nat) : Routine σ Unit := fun c s => .done (c.stall ms) s ()

/-- Waits until the timer has moved on by some milliseconds; by none is no wait at all. -/
def delay (ms : Nat) : Routine σ Unit :=
  if ms = 0 then pure ()
  else fun c s =>
    .waiting ⟨c.timer + ms, c.delays⟩ { c with delays := c.delays + 1 } s fun c s => .done c s ()

/-- The longest delay that a script can ask for, in milliseconds: thirty years of 365 days. -/
def longestDelay : Nat := 30 * 365 * 24 * 60 * 60 * 1000

/-- Works on a part of a larger state. -/
def zoom (get : σ → τ) (set : τ → σ → σ) (r : Routine τ α) : Routine σ α :=
  fun c s => (r c (get s)).zoom get set s

/-- Works with a state of its own besides the shared one, and hands it over at the end. -/
def keeping (own : ρ) (r : Routine (σ × ρ) α) : Routine σ (α × ρ) :=
  fun c s => (r c (s, own)).keeping

@[simp] theorem pure_apply (a : α) (c : Clock) (s : σ) :
    (pure a : Routine σ α) c s = .done c s a := rfl

@[simp] theorem bind_apply (r : Routine σ α) (f : α → Routine σ β) (c : Clock) (s : σ) :
    (r >>= f) c s = (r c s).andThen f := rfl

end Routine

namespace Progress

variable {σ α β γ : Type}

theorem andThen_pure (p : Progress σ α) : p.andThen (fun a => (pure a : Routine σ α)) = p := by
  induction p with
  | done c s a => rfl
  | waiting w c s k ih => simp only [andThen, ih]

theorem andThen_andThen (p : Progress σ α) (f : α → Routine σ β) (g : β → Routine σ γ) :
    (p.andThen f).andThen g = p.andThen fun a c s => (f a c s).andThen g := by
  induction p with
  | done c s a => rfl
  | waiting w c s k ih => simp only [andThen, ih]

end Progress

instance {σ : Type} : LawfulMonad (Routine σ) :=
  LawfulMonad.mk' _ (fun r => funext fun c => funext fun s => Progress.andThen_pure (r c s))
    (fun _ _ => rfl)
    (fun r f g => funext fun c => funext fun s => Progress.andThen_andThen (r c s) f g)

end Ensemble
