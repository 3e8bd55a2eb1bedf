import Ensemble.Routine.Basic

/-!
# Rely and guarantee for routines

A routine works in steps: from where it starts or goes on up to its next wait or its end. While it
waits, others may change the state and time passes. `Progress.Keeps` says that every step of a
routine is of a certain kind, and what holds at its end, as long as the others keep to what it
relies on. `Routine.Meets` is the triple that comes with it: a condition on the state before, a
condition on the state and the value after, and a guarantee for all that happens in between.
-/

namespace Ensemble

/-- What a step may do to the clock and the state. -/
abbrev StepKind (σ : Type) := Clock → σ → Clock → σ → Prop

/-- Others may do anything to the state. -/
def Anything {σ : Type} (_ _ : σ) : Prop := True

namespace Progress

variable {σ τ ρ α β : Type}

/-- Every step of the progress lies in `guarantee`, the first of them from the clock and the state
given, and the last one meets `post`, whatever the clock shows after a wait and whatever `rely` lets
others do meanwhile. -/
def Keeps (rely : σ → σ → Prop) (guarantee : StepKind σ)
    (post : Clock → σ → Clock → σ → α → Prop) (c₀ : Clock) (s₀ : σ) : Progress σ α → Prop
  | done c s a => post c₀ s₀ c s a
  | waiting _ c s k =>
    guarantee c₀ s₀ c s ∧ ∀ c' s', rely s s' → (k c' s').Keeps rely guarantee post c' s'

variable {rely : σ → σ → Prop} {guarantee : StepKind σ}
  {post : Clock → σ → Clock → σ → α → Prop} {c₀ : Clock} {s₀ : σ}

/-- The second routine goes on in the step in which the first one ends. -/
theorem keeps_andThen {post : Clock → σ → Clock → σ → β → Prop} (p : Progress σ α)
    (f : α → Routine σ β) :
    (p.andThen f).Keeps rely guarantee post c₀ s₀ ↔
      p.Keeps rely guarantee
        (fun c₀ s₀ c s a => (f a c s).Keeps rely guarantee post c₀ s₀) c₀ s₀ := by
  induction p generalizing c₀ s₀ with
  | done c s a => exact Iff.rfl
  | waiting w c s k ih => simp only [andThen, Keeps, ih]

theorem Keeps.mono {rely' : σ → σ → Prop} {guarantee' : StepKind σ}
    {post' : Clock → σ → Clock → σ → α → Prop} {p : Progress σ α}
    (h : p.Keeps rely guarantee post c₀ s₀) (hr : ∀ s s', rely' s s' → rely s s')
    (hg : ∀ c s c' s', guarantee c s c' s' → guarantee' c s c' s')
    (hp : ∀ c s c' s' a, post c s c' s' a → post' c s c' s' a) :
    p.Keeps rely' guarantee' post' c₀ s₀ := by
  induction p generalizing c₀ s₀ with
  | done c s a => exact hp _ _ _ _ _ h
  | waiting w c s k ih =>
    exact ⟨hg _ _ _ _ h.1, fun c' s' hs => ih c' s' (h.2 c' s' (hr _ _ hs))⟩

/-- What two guarantees say of the same steps. -/
theorem Keeps.and {guarantee' : StepKind σ} {post' : Clock → σ → Clock → σ → α → Prop}
    {p : Progress σ α} (h : p.Keeps rely guarantee post c₀ s₀)
    (h' : p.Keeps rely guarantee' post' c₀ s₀) :
    p.Keeps rely (fun c s c' s' => guarantee c s c' s' ∧ guarantee' c s c' s')
      (fun c s c' s' a => post c s c' s' a ∧ post' c s c' s' a) c₀ s₀ := by
  induction p generalizing c₀ s₀ with
  | done c s a => exact ⟨h, h'⟩
  | waiting w c s k ih =>
    exact ⟨⟨h.1, h'.1⟩, fun c' s' hs => ih c' s' (h.2 c' s' hs) (h'.2 c' s' hs)⟩

/-- The first step may be counted from another start. -/
theorem Keeps.extend {c₁ : Clock} {s₁ : σ} {p : Progress σ α}
    (h : p.Keeps rely guarantee post c₁ s₁)
    (hg : ∀ c s, guarantee c₁ s₁ c s → guarantee c₀ s₀ c s)
    (hp : ∀ c s a, post c₁ s₁ c s a → post c₀ s₀ c s a) :
    p.Keeps rely guarantee post c₀ s₀ := by
  cases p with
  | done c s a => exact hp _ _ _ h
  | waiting w c s k => exact ⟨hg _ _ h.1, h.2⟩

/-- What neither the steps nor the others can break holds when the last step begins. -/
theorem Keeps.invariant {I : σ → Prop} {p : Progress σ α}
    (h : p.Keeps rely guarantee post c₀ s₀) (h₀ : I s₀) (hr : ∀ s s', rely s s' → I s → I s')
    (hg : ∀ c s c' s', guarantee c s c' s' → I s → I s') :
    p.Keeps rely guarantee (fun c s c' s' a => I s ∧ post c s c' s' a) c₀ s₀ := by
  induction p generalizing c₀ s₀ with
  | done c s a => exact ⟨h₀, h⟩
  | waiting w c s k ih =>
    exact ⟨h.1, fun c' s' hs => ih c' s' (h.2 c' s' hs) (hr s s' hs (hg _ _ _ _ h.1 h₀))⟩

/-- A routine on a part of a larger state, seen from the larger state. -/
theorem Keeps.zoom {get : σ → τ} {set : τ → σ → σ} {inner : StepKind τ}
    {innerPost : Clock → τ → Clock → τ → α → Prop} {p : Progress τ α}
    (h : p.Keeps Anything inner innerPost c₀ (get s₀))
    (hg : ∀ c s c' t, inner c (get s) c' t → guarantee c s c' (set t s))
    (hp : ∀ c s c' t a, innerPost c (get s) c' t a → post c s c' (set t s) a) :
    (p.zoom get set s₀).Keeps rely guarantee post c₀ s₀ := by
  induction p generalizing c₀ s₀ with
  | done c t a => exact hp _ _ _ _ _ h
  | waiting w c t k ih =>
    exact ⟨hg _ _ _ _ h.1, fun c' s' _ => ih c' (get s') (h.2 c' (get s') trivial)⟩

/-- A routine with a state of its own, seen from the shared state: nobody else touches what is its
own. -/
theorem Keeps.keeping {own₀ : ρ} {inner : StepKind (σ × ρ)}
    {innerPost : Clock → σ × ρ → Clock → σ × ρ → α → Prop}
    {post : Clock → σ → Clock → σ → α × ρ → Prop} {p : Progress (σ × ρ) α}
    (h : p.Keeps (fun x y => y.2 = x.2) inner innerPost c₀ (s₀, own₀))
    (hg : ∀ c s own c' s' own', inner c (s, own) c' (s', own') → guarantee c s c' s')
    (hp : ∀ c s own c' s' own' a, innerPost c (s, own) c' (s', own') a →
      post c s c' s' (a, own')) :
    p.keeping.Keeps rely guarantee post c₀ s₀ := by
  induction p generalizing c₀ s₀ own₀ with
  | done c t a => exact hp _ _ _ _ _ _ _ h
  | waiting w c t k ih =>
    exact ⟨hg _ _ _ _ _ _ h.1, fun c' s' _ => ih c' (s', t.2) (h.2 c' (s', t.2) rfl)⟩

end Progress

namespace Progress

variable {σ α : Type} {rely : σ → σ → Prop} {guarantee : StepKind σ}
  {post : Clock → σ → Clock → σ → α → Prop} {c₀ : Clock} {s₀ : σ}

/-- The value at the end is as required, whatever clock and state the progress finds when it goes
on. -/
def Yields (V : α → Prop) : Progress σ α → Prop
  | done _ _ a => V a
  | waiting _ _ _ k => ∀ c s, (k c s).Yields V

theorem Keeps.yields {V : α → Prop} {p : Progress σ α} (h : p.Keeps rely guarantee post c₀ s₀)
    (hv : p.Yields V) :
    p.Keeps rely guarantee (fun c s c' s' a => post c s c' s' a ∧ V a) c₀ s₀ := by
  induction p generalizing c₀ s₀ with
  | done c s a => exact ⟨h, hv⟩
  | waiting w c s k ih => exact ⟨h.1, fun c' s' hs => ih c' s' (h.2 c' s' hs) (hv c' s')⟩

end Progress

/-- A kind of step that includes doing nothing and one step after another. -/
structure Guarantee (σ : Type) where
  step : StepKind σ
  refl : ∀ c s, step c s c s
  trans : ∀ {c s c' s' c'' s''}, step c s c' s' → step c' s' c'' s'' → step c s c'' s''

/-- The steps that change the state as a relation allows, whatever they do to the clock. -/
def Guarantee.ofRelation {σ : Type} (R : σ → σ → Prop) (hrefl : ∀ s, R s s)
    (htrans : ∀ {s s' s''}, R s s' → R s' s'' → R s s'') : Guarantee σ where
  step _ s _ s' := R s s'
  refl _ s := hrefl s
  trans h h' := htrans h h'

/-- A progress that keeps to a guarantee and ends in a state and with a value as required. -/
def Progress.Upholds {σ α : Type} (rely : σ → σ → Prop) (G : Guarantee σ) (Q : α → σ → Prop)
    (c₀ : Clock) (s₀ : σ) (p : Progress σ α) : Prop :=
  p.Keeps rely G.step (fun c₀ s₀ c s a => G.step c₀ s₀ c s ∧ Q a s) c₀ s₀

/-- What holds of the value at every end holds of what is yielded. -/
theorem Progress.Upholds.yields {σ α : Type} {G : Guarantee σ} {V : α → Prop} {c₀ : Clock}
    {s₀ : σ} {p : Progress σ α} (h : p.Upholds Anything G (fun a _ => V a) c₀ s₀) : p.Yields V := by
  induction p generalizing c₀ s₀ with
  | done c s a => exact h.2
  | waiting w c s k ih => exact fun c' s' => ih c' s' (h.2 c' s' trivial)

/-- A step may be counted from an earlier start. -/
theorem Progress.Upholds.extend {σ α : Type} {rely : σ → σ → Prop} {G : Guarantee σ}
    {Q : α → σ → Prop} {c₀ c : Clock} {s₀ s : σ} {p : Progress σ α}
    (h : p.Upholds rely G Q c s) (hstep : G.step c₀ s₀ c s) : p.Upholds rely G Q c₀ s₀ :=
  Keeps.extend h (fun _ _ h => G.trans hstep h) fun _ _ _ h => ⟨G.trans hstep h.1, h.2⟩

/-- As `Upholds`, with an end that may depend on the clock as well. -/
def Progress.Arrives {σ α : Type} (rely : σ → σ → Prop) (G : Guarantee σ)
    (Q : Clock → σ → α → Prop) (c₀ : Clock) (s₀ : σ) (p : Progress σ α) : Prop :=
  p.Keeps rely G.step (fun c₀ s₀ c s a => G.step c₀ s₀ c s ∧ Q c s a) c₀ s₀

namespace Progress

variable {σ α β : Type} {rely : σ → σ → Prop} {G : Guarantee σ} {Q : Clock → σ → α → Prop}
  {c₀ c : Clock} {s₀ s : σ} {p : Progress σ α}

theorem Arrives.extend (h : p.Arrives rely G Q c s) (hstep : G.step c₀ s₀ c s) :
    p.Arrives rely G Q c₀ s₀ :=
  Keeps.extend h (fun _ _ h => G.trans hstep h) fun _ _ _ h => ⟨G.trans hstep h.1, h.2⟩

theorem Arrives.mono {Q' : Clock → σ → α → Prop} (h : p.Arrives rely G Q c₀ s₀)
    (hq : ∀ c s a, Q c s a → Q' c s a) : p.Arrives rely G Q' c₀ s₀ :=
  Keeps.mono h (fun _ _ h => h) (fun _ _ _ _ h => h) fun _ _ _ _ _ h => ⟨h.1, hq _ _ _ h.2⟩

/-- What neither the steps nor the others can break still holds at the end. -/
theorem Arrives.lasting {I : σ → Prop} (h : p.Arrives rely G Q c₀ s₀) (h₀ : I s₀)
    (hr : ∀ s s', rely s s' → I s → I s') (hg : ∀ c s c' s', G.step c s c' s' → I s → I s') :
    p.Arrives rely G (fun c s a => Q c s a ∧ I s) c₀ s₀ := by
  refine (Keeps.invariant h h₀ hr hg).mono (fun _ _ h => h) (fun _ _ _ _ h => h) ?_
  rintro c₁ s₁ c s a ⟨hbefore, hstep, hq⟩
  exact ⟨hstep, hq, hg _ _ _ _ hstep hbefore⟩

/-- The second routine goes on from where the first one arrives. -/
theorem Arrives.andThen {f : α → Routine σ β} {Q' : Clock → σ → β → Prop}
    (h : p.Arrives rely G Q c₀ s₀)
    (hf : ∀ c s a, Q c s a → (f a c s).Arrives rely G Q' c s) :
    (p.andThen f).Arrives rely G Q' c₀ s₀ := by
  refine (keeps_andThen p f).mpr (Keeps.mono h (fun _ _ h => h) (fun _ _ _ _ h => h) ?_)
  rintro c₁ s₁ c s a ⟨hstep, hq⟩
  exact (hf c s a hq).extend hstep

end Progress

/-- From a state in which `P` holds the routine keeps to the guarantee, and at its end `Q` holds of
its value and the state. -/
def Routine.Meets {σ α : Type} (rely : σ → σ → Prop) (G : Guarantee σ) (P : σ → Prop)
    (r : Routine σ α) (Q : α → σ → Prop) : Prop :=
  ∀ c s, P s → (r c s).Upholds rely G Q c s

namespace Routine

variable {σ α β : Type} {rely : σ → σ → Prop} {G : Guarantee σ} {P P' : σ → Prop}
  {Q Q' : α → σ → Prop}

theorem meets_pure {a : α} (h : ∀ s, P s → Q a s) :
    (pure a : Routine σ α).Meets rely G P Q :=
  fun c s hs => ⟨G.refl c s, h s hs⟩

theorem Meets.bind {r : Routine σ α} {f : α → Routine σ β} {Q' : β → σ → Prop}
    (hr : r.Meets rely G P Q) (hf : ∀ a, (f a).Meets rely G (Q a) Q') :
    (r >>= f).Meets rely G P Q' := by
  intro c s hs
  refine (Progress.keeps_andThen (r c s) f).mpr ?_
  refine (hr c s hs).mono (fun _ _ h => h) (fun _ _ _ _ h => h) ?_
  rintro c₀ s₀ c₁ s₁ a ⟨hstep, hq⟩
  -- the second routine goes on from `s₁`, but the step that it is in began in `s₀`
  exact (hf a c₁ s₁ hq).extend hstep

theorem Meets.consequence {r : Routine σ α} (h : r.Meets rely G P Q) (hp : ∀ s, P' s → P s)
    (hq : ∀ a s, Q a s → Q' a s) : r.Meets rely G P' Q' :=
  fun c s hs => (h c s (hp s hs)).mono (fun _ _ h => h) (fun _ _ _ _ h => h)
    fun _ _ _ _ _ h => ⟨h.1, hq _ _ h.2⟩

theorem meets_modify {f : σ → σ} {Q : Unit → σ → Prop}
    (h : ∀ c s, P s → G.step c s c (f s) ∧ Q () (f s)) :
    (modify f).Meets rely G P Q :=
  h

theorem Meets.ite {b : Prop} [Decidable b] {r t : Routine σ α}
    (hr : b → r.Meets rely G P Q) (ht : ¬b → t.Meets rely G P Q) :
    (if b then r else t).Meets rely G P Q := by
  split
  · next h => exact hr h
  · next h => exact ht h

end Routine

end Ensemble
