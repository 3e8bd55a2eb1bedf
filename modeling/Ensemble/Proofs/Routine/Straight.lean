import Ensemble.Proofs.Routine.Pool

/-!
# Straight runs

A routine that nobody interferes with runs to its end: whenever it waits, the timer moves on to the
moment it waits for. `Routine.runFrom` says where that leads, which makes a routine a function of
the moment at which it begins; `Progress.Upholds.finish` carries over what all its steps guarantee.
-/

namespace Ensemble

/-- A moment: the clock, and the state at it. -/
abbrev Moment (σ : Type) := Clock × σ

namespace Progress

variable {σ α β : Type}

/-- The second routine goes on where the first one ends. -/
theorem finish_andThen (p : Progress σ α) (f : α → Routine σ β) :
    (p.andThen f).finish = (f p.finish.2.2 p.finish.1 p.finish.2.1).finish := by
  induction p with
  | done c s a => rfl
  | waiting w c s k ih => exact ih (c.advance w.due) s

variable {rely : σ → σ → Prop} {G : Guarantee σ} {Q : α → σ → Prop} {c₀ : Clock} {s₀ : σ}

/-- If time keeps the guarantee too, a straight run is one step of it. -/
theorem Upholds.finish {p : Progress σ α} (hrely : ∀ s, rely s s)
    (helapse : ∀ c s due, G.step c s (c.advance due) s) (h : p.Upholds rely G Q c₀ s₀) :
    G.step c₀ s₀ p.finish.1 p.finish.2.1 ∧ Q p.finish.2.2 p.finish.2.1 := by
  induction p generalizing c₀ s₀ with
  | done c s a => exact h
  | waiting w c s k ih =>
    obtain ⟨hstep, hrest⟩ := h
    have hend := ih (c.advance w.due) s (hrest _ s (hrely s))
    exact ⟨G.trans hstep (G.trans (helapse c s w.due) hend.1), hend.2⟩

end Progress

namespace Routine

variable {σ α β : Type}

/-- The value of a routine that nobody interferes with, and the moment at which it ends. -/
def runFrom (r : Routine σ α) (x : Moment σ) : α × Moment σ :=
  ((r x.1 x.2).finish.2.2, (r x.1 x.2).finish.1, (r x.1 x.2).finish.2.1)

@[simp] theorem runFrom_pure (a : α) (x : Moment σ) : (pure a : Routine σ α).runFrom x = (a, x) :=
  rfl

@[simp] theorem runFrom_bind (r : Routine σ α) (f : α → Routine σ β) (x : Moment σ) :
    (r >>= f).runFrom x = (f (r.runFrom x).1).runFrom (r.runFrom x).2 := by
  simp only [runFrom, bind_apply, Progress.finish_andThen]

@[simp] theorem runFrom_clock (x : Moment σ) :
    (Routine.clock : Routine σ Clock).runFrom x = (x.1, x) :=
  rfl

/-- What a routine does without waiting it does at once. -/
theorem runFrom_done {r : Routine σ α} {x : Moment σ} {c : Clock} {s : σ} {a : α}
    (h : r x.1 x.2 = .done c s a) : r.runFrom x = (a, c, s) := by
  rw [runFrom, h]
  rfl

variable {rely : σ → σ → Prop} {G : Guarantee σ} {P : σ → Prop} {Q : α → σ → Prop}

theorem Meets.runFrom {r : Routine σ α} (hrely : ∀ s, rely s s)
    (helapse : ∀ c s due, G.step c s (c.advance due) s) (h : r.Meets rely G P Q) {x : Moment σ}
    (hx : P x.2) :
    G.step x.1 x.2 (r.runFrom x).2.1 (r.runFrom x).2.2 ∧ Q (r.runFrom x).1 (r.runFrom x).2.2 :=
  Progress.Upholds.finish hrely helapse (h x.1 x.2 hx)

/-! ## Pools -/

namespace Pool

variable {settle : α → σ → σ} {r : Routine σ α} {ready queue : List (Routine σ α)}
  {waiting : List (Suspended σ α)} {settled : List α} {c c' : Clock} {s s' : σ}

theorem runFrom_done {a : α} (h : r c s = .done c' s' a) :
    Routine.runFrom (run settle ⟨r :: ready, waiting, queue⟩ settled) (c, s) =
      Routine.runFrom (run settle (refill ready waiting queue) (a :: settled))
        (c', settle a s') := by
  simp only [Routine.runFrom, run_done h]

theorem runFrom_waiting {w : Wake} {k : Routine σ α} (h : r c s = .waiting w c' s' k) :
    Routine.runFrom (run settle ⟨r :: ready, waiting, queue⟩ settled) (c, s) =
      Routine.runFrom (run settle ⟨ready, Suspended.insert ⟨w, k⟩ waiting, queue⟩ settled)
        (c', s') := by
  simp only [Routine.runFrom, run_waiting h]

theorem runFrom_awaken (first : Suspended σ α) (rest : List (Suspended σ α)) :
    Routine.runFrom (run settle ⟨[], first :: rest, queue⟩ settled) (c, s) =
      Routine.runFrom
        (run settle (awaken first rest queue (c.advance first.wake.due).timer) settled)
        (c.advance first.wake.due, s) := by
  simp only [Routine.runFrom, finish_run_awaken]

theorem runFrom_over :
    Routine.runFrom (run settle ⟨[], [], queue⟩ settled) (c, s) = (settled.reverse, c, s) :=
  Routine.runFrom_done run_over

end Pool

end Routine

end Ensemble
