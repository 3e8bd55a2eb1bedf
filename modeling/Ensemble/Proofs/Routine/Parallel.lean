import Ensemble.Proofs.Routine.Straight

/-!
# Routines in parallel

Two routines run in parallel if they take their steps together: from moments that are alike both
wait or both are done, at moments that are alike again, and whoever goes on behind a wait goes on in
the same way. A `Unison` says which moments are alike and which waits correspond, so that time may
be shifted or the states may differ in what nobody looks at. `Progress.Parallel.finish` carries the
relation to the ends of straight runs.
-/

namespace Ensemble

/-- Which moments of two runs are alike, and which of their waits correspond: waits end in the same
order and at moments that are alike. -/
structure Unison (σ : Type) where
  alike : Moment σ → Moment σ → Prop
  wakes : Wake → Wake → Prop
  stall : ∀ {c c' s s'} ms, alike (c, s) (c', s') → alike (c.stall ms, s) (c'.stall ms, s')
  delay : ∀ {c c' s s'} ms, alike (c, s) (c', s') →
    wakes ⟨c.timer + ms, c.delays⟩ ⟨c'.timer + ms, c'.delays⟩ ∧
      alike ({ c with delays := c.delays + 1 }, s) ({ c' with delays := c'.delays + 1 }, s')
  before : ∀ {v v' w w'}, wakes v v' → wakes w w' → v.before w = v'.before w'
  due : ∀ {w w' x y}, wakes w w' → alike x y → (w.due ≤ x.1.timer ↔ w'.due ≤ y.1.timer)
  advance : ∀ {w w' x y}, wakes w w' → alike x y →
    alike (x.1.advance w.due, x.2) (y.1.advance w'.due, y.2)

/-- Two runs that do the very same at the very same time. -/
def Unison.same (σ : Type) : Unison σ where
  alike := Eq
  wakes := Eq
  stall := by
    rintro c _ s _ ms ⟨⟩
    rfl
  delay := by
    rintro c _ s _ ms ⟨⟩
    exact ⟨rfl, rfl⟩
  before := by
    rintro v _ w _ rfl rfl
    rfl
  due := by
    rintro w _ x _ rfl rfl
    rfl
  advance := by
    rintro w _ x _ rfl rfl
    rfl

namespace Progress

variable {σ α β : Type}

/-- Progresses that wait and end together, with values related by `V`. -/
inductive Parallel (U : Unison σ) (V : α → α → Prop) : Progress σ α → Progress σ α → Prop where
  | done {c s a c' s' a'} : U.alike (c, s) (c', s') → V a a' →
      Parallel U V (.done c s a) (.done c' s' a')
  | waiting {w c s k w' c' s' k'} : U.wakes w w' → U.alike (c, s) (c', s') →
      (∀ x y, U.alike x y → Parallel U V (k x.1 x.2) (k' y.1 y.2)) →
      Parallel U V (.waiting w c s k) (.waiting w' c' s' k')

namespace Parallel

variable {U : Unison σ} {V : α → α → Prop} {W : β → β → Prop} {p p' : Progress σ α}

theorem andThen {f f' : α → Routine σ β} (h : Parallel U V p p')
    (hf : ∀ a a', V a a' → ∀ x y, U.alike x y → Parallel U W (f a x.1 x.2) (f' a' y.1 y.2)) :
    Parallel U W (p.andThen f) (p'.andThen f') := by
  induction h with
  | done hend hv => exact hf _ _ hv _ _ hend
  | waiting hw hpause _ ih => exact .waiting hw hpause ih

theorem weaken {V' : α → α → Prop} (h : Parallel U V p p') (hv : ∀ a a', V a a' → V' a a') :
    Parallel U V' p p' := by
  induction h with
  | done hend ha => exact .done hend (hv _ _ ha)
  | waiting hw hpause _ ih => exact .waiting hw hpause ih

/-- Straight runs in parallel end at moments that are alike. -/
theorem finish (h : Parallel U V p p') :
    V p.finish.2.2 p'.finish.2.2 ∧
      U.alike (p.finish.1, p.finish.2.1) (p'.finish.1, p'.finish.2.1) := by
  induction h with
  | done hend hv => exact ⟨hv, hend⟩
  | waiting hw hpause _ ih => exact ih _ _ (U.advance hw hpause)

/-- Everything runs in parallel with itself. -/
theorem refl (hrefl : ∀ a, V a a) (p : Progress σ α) : Parallel (.same σ) V p p := by
  induction p with
  | done c s a => exact .done rfl (hrefl a)
  | waiting w c s k ih =>
    refine .waiting rfl rfl ?_
    rintro x _ rfl
    exact ih x.1 x.2

end Parallel

end Progress

namespace Routine

variable {σ α β : Type}

/-- Routines that run in parallel whenever they begin at moments that are alike. -/
def Parallel (U : Unison σ) (V : α → α → Prop) (r r' : Routine σ α) : Prop :=
  ∀ x y, U.alike x y → Progress.Parallel U V (r x.1 x.2) (r' y.1 y.2)

variable {U : Unison σ} {V : α → α → Prop} {W : β → β → Prop} {r r' : Routine σ α}

theorem parallel_pure {a a' : α} (h : V a a') : Parallel U V (pure a) (pure a') :=
  fun _ _ hxy => .done hxy h

theorem Parallel.bind {f f' : α → Routine σ β} (h : Parallel U V r r')
    (hf : ∀ a a', V a a' → Parallel U W (f a) (f' a')) : Parallel U W (r >>= f) (r' >>= f') :=
  fun x y hxy => (h x y hxy).andThen hf

theorem Parallel.ite {b b' : Prop} [Decidable b] [Decidable b'] {t t' : Routine σ α}
    (hb : b ↔ b') (hr : b → Parallel U V r r') (ht : ¬b → Parallel U V t t') :
    Parallel U V (if b then r else t) (if b' then r' else t') := by
  by_cases h : b
  · rw [if_pos h, if_pos (hb.mp h)]
    exact hr h
  · rw [if_neg h, if_neg fun h' => h (hb.mpr h')]
    exact ht h

theorem parallel_stall (ms : Nat) : Parallel U (fun _ _ => True) (stall ms) (stall ms) :=
  fun _ _ hxy => .done (U.stall ms hxy) trivial

theorem parallel_delay (ms : Nat) : Parallel U (fun _ _ => True) (delay ms) (delay ms) := by
  unfold delay
  refine Parallel.ite Iff.rfl (fun _ => parallel_pure trivial) fun _ x y hxy => ?_
  obtain ⟨hwakes, hafter⟩ := U.delay ms hxy
  exact .waiting hwakes hafter fun _ _ hxy => .done hxy trivial

theorem parallel_modify {f : σ → σ}
    (hf : ∀ {c s c' s'}, U.alike (c, s) (c', s') → U.alike (c, f s) (c', f s')) :
    Parallel U (fun _ _ => True) (modify f) (modify f) :=
  fun _ _ hxy => .done (hf hxy) trivial

theorem parallel_refl (hrefl : ∀ a, V a a) (r : Routine σ α) : Parallel (.same σ) V r r := by
  rintro x _ rfl
  exact .refl hrefl _

end Routine

end Ensemble
