import Ensemble.Routine.Basic

/-!
# Groups of routines get done

A group of routines that are worked on in turn shrinks with every turn: a member leaves it, or what
is left of the member takes its place. `Group.shrinks_wf` says that this cannot go on for ever,
which is why a pool of routines is itself a routine.
-/

namespace Ensemble.Routine

variable {σ α : Type}

/-- One routine is what another has left to do after a wait. -/
def Rest (k r : Routine σ α) : Prop :=
  ∃ c s w c' s', r c s = .waiting w c' s' k

theorem acc_of_progress (p : Progress σ α) :
    ∀ w c s (k : Routine σ α), p = .waiting w c s k → Acc Rest k := by
  induction p with
  | done c s a => intro w c s k h; cases h
  | waiting w c s k ih =>
    intro w' c' s' k' h
    injection h with _ _ _ hk
    subst hk
    refine Acc.intro _ fun y hy => ?_
    obtain ⟨c₁, s₁, w₁, c₂, s₂, hy⟩ := hy
    exact ih c₁ s₁ w₁ c₂ s₂ y hy

theorem rest_wf : WellFounded (Rest (σ := σ) (α := α)) :=
  ⟨fun r => Acc.intro _ fun k ⟨c, s, w, c', s', h⟩ => acc_of_progress (r c s) w c' s' k h⟩

/-- Routines that are worked on in turn, in whatever order. -/
structure Group (σ α : Type) where
  members : List (Routine σ α)

namespace Group

/-- A group after a turn of one of its members. -/
def Shrinks (after before : Group σ α) : Prop :=
  ∃ r others, before.members.Perm (r :: others) ∧
    (after.members.Perm others ∨ ∃ k, Rest k r ∧ after.members.Perm (k :: others))

theorem acc_of_perm {l m : List (Routine σ α)} (h : Acc Shrinks (Group.mk l)) (hp : l.Perm m) :
    Acc Shrinks (Group.mk m) :=
  Acc.intro _ fun _ ⟨r, others, hm, hy⟩ => h.inv ⟨r, others, hp.trans hm, hy⟩

/-- Two ways to pick a member from a group with one more member. -/
theorem pick {r x : Routine σ α} {others l : List (Routine σ α)}
    (h : (x :: l).Perm (r :: others)) :
    (r = x ∧ l.Perm others) ∨ ∃ m, l.Perm (r :: m) ∧ others.Perm (x :: m) := by
  have hr : r ∈ x :: l := h.mem_iff.mpr List.mem_cons_self
  rcases List.mem_cons.mp hr with rfl | hr
  · exact Or.inl ⟨rfl, (List.perm_cons r).mp h⟩
  · obtain ⟨a, b, rfl⟩ := List.append_of_mem hr
    have hl : (a ++ r :: b).Perm (r :: (a ++ b)) := List.perm_middle
    refine Or.inr ⟨a ++ b, hl, ?_⟩
    have h₁ : (r :: others).Perm (x :: r :: (a ++ b)) := h.symm.trans (hl.cons x)
    exact (List.perm_cons r).mp (h₁.trans (List.Perm.swap r x _))

theorem acc_cons {x : Routine σ α} (hx : Acc Rest x) :
    ∀ {l : List (Routine σ α)}, Acc Shrinks (Group.mk l) → Acc Shrinks (Group.mk (x :: l)) := by
  induction hx with
  | intro x _ ihx =>
    intro l hl
    generalize hg : Group.mk l = g at hl
    induction hl generalizing l with
    | intro g hl ihl =>
      subst hg
      refine Acc.intro _ fun y hy => ?_
      obtain ⟨y⟩ := y
      obtain ⟨r, others, hm, hy⟩ := hy
      rcases pick hm with ⟨rfl, hp⟩ | ⟨m, hp, ho⟩
      · rcases hy with hy | ⟨k, hk, hy⟩
        · exact acc_of_perm (Acc.intro _ hl) (hp.trans hy.symm)
        · exact acc_of_perm (ihx k hk (Acc.intro _ hl)) ((hp.cons k).trans hy.symm)
      · rcases hy with hy | ⟨k, hk, hy⟩
        · have hs : Shrinks ⟨m⟩ (Group.mk l) := ⟨r, m, hp, Or.inl (List.Perm.refl _)⟩
          exact acc_of_perm (ihl ⟨m⟩ hs rfl) (ho.symm.trans hy.symm)
        · have hs : Shrinks ⟨k :: m⟩ (Group.mk l) :=
            ⟨r, m, hp, Or.inr ⟨k, hk, List.Perm.refl _⟩⟩
          refine acc_of_perm (ihl ⟨k :: m⟩ hs rfl) ?_
          exact (List.Perm.swap k x m).trans ((ho.symm.cons k).trans hy.symm)

theorem acc_nil : Acc Shrinks (Group.mk ([] : List (Routine σ α))) :=
  Acc.intro _ fun _ ⟨r, others, hm, _⟩ => absurd hm.length_eq (by simp)

/-- No group shrinks for ever. -/
theorem shrinks_wf : WellFounded (Shrinks (σ := σ) (α := α)) :=
  ⟨fun g => by
    obtain ⟨l⟩ := g
    induction l with
    | nil => exact acc_nil
    | cons x l ih => exact acc_cons (rest_wf.apply x) ih⟩

instance : WellFoundedRelation (Group σ α) := ⟨Shrinks, shrinks_wf⟩

end Group

end Ensemble.Routine
