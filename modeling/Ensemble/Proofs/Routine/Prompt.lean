import Ensemble.Proofs.Routine.Straight
import Mathlib.Data.List.Forall2

/-!
# Pools whose members have one turn left

A routine waits and goes on at the moment it waits for, and meanwhile others may change the state.
`Progress.Reaches` says what it comes to then. If every member of a pool is done with its next turn,
the pool is a queue for the timer: its members are done in the order in which they wait, and the
timer stops at the latest of their moments (`Pool.Prompt.reaches`).
-/

namespace Ensemble

open List (Forall₂)

namespace Progress

variable {σ α β : Type} {rely : σ → σ → Prop}

/-- Where the progress waits for the first time; its end if it does not wait. -/
def pause : Progress σ α → Clock × σ
  | done c s _ => (c, s)
  | waiting _ c s _ => (c, s)

/-- The progress ends as required, if the timer stops at each moment it waits for. Others may do to
the state what `rely` lets them meanwhile, and hold up the clock with it. -/
def Reaches (rely : σ → σ → Prop) (Q : Clock → σ → α → Prop) : Progress σ α → Prop
  | done c s a => Q c s a
  | waiting w c s k => ∀ c' s', c'.timer = max c.timer w.due → rely s s' → (k c' s').Reaches rely Q

theorem Reaches.mono {Q Q' : Clock → σ → α → Prop} {p : Progress σ α} (h : p.Reaches rely Q)
    (hq : ∀ c s a, Q c s a → Q' c s a) : p.Reaches rely Q' := by
  induction p with
  | done c s a => exact hq c s a h
  | waiting w c s k ih => exact fun c' s' hc hs => ih c' s' (h c' s' hc hs)

theorem reaches_andThen {Q : Clock → σ → β → Prop} (p : Progress σ α) (f : α → Routine σ β) :
    (p.andThen f).Reaches rely Q ↔ p.Reaches rely fun c s a => (f a c s).Reaches rely Q := by
  induction p with
  | done c s a => exact Iff.rfl
  | waiting w c s k ih => simp only [andThen, Reaches, ih]

theorem pause_andThen (p : Progress σ α) (f : α → Routine σ β)
    (h : ∀ a c s, (f a c s).pause = (c, s)) :
    (p.andThen f).pause = p.pause := by
  cases p with
  | done c s a => exact h a c s
  | waiting w c s k => rfl

/-- A routine that is left to itself ends as required too. -/
theorem Reaches.finish {Q : Clock → σ → α → Prop} {p : Progress σ α} (hrely : ∀ s, rely s s)
    (h : p.Reaches rely Q) : Q p.finish.1 p.finish.2.1 p.finish.2.2 := by
  induction p with
  | done c s a => exact h
  | waiting w c s k ih => exact ih (c.advance w.due) s (h _ s rfl (hrely s))

end Progress

namespace Routine.Pool

variable {σ α ε : Type}

/-- Members of which it is known that their next turn is their last, with a value that is known
too; `inv` relates those that are done, in their order, to the state. -/
structure Prompt (rely : σ → σ → Prop) (settle : α → σ → σ) (knows : ε → Routine σ α → Prop)
    (value : ε → α) (inv : List ε → σ → Prop) : Prop where
  rely : ∀ {gone s s'}, rely s s' → inv gone s → inv gone s'
  turn : ∀ {e r gone s} c, knows e r → inv gone s →
    ∃ s', r c s = .done c s' (value e) ∧ inv (gone ++ [e]) (settle (value e) s')

variable {rely : σ → σ → Prop} {settle : α → σ → σ} {knows : ε → Routine σ α → Prop}
  {value : ε → α} {inv : List ε → σ → Prop}

/-- A pool in which nobody is ready does nothing until time passes. -/
theorem pause_run (settle : α → σ → σ) (waiting : List (Suspended σ α)) (settled : List α)
    (c : Clock) (s : σ) : (run settle ⟨[], waiting, []⟩ settled c s).pause = (c, s) := by
  cases waiting <;> rw [run] <;> rfl

/-- The moment at which the last of some members goes on. -/
def latest (due : ε → Nat) (timer : Nat) (l : List ε) : Nat :=
  l.foldl (fun t e => max t (due e)) timer

/-- What is due by some moment delays nothing. -/
theorem latest_append_of_le {due : ε → Nat} {timer : Nat} {now : List ε}
    (h : ∀ e ∈ now, due e ≤ timer) (l : List ε) :
    latest due timer (now ++ l) = latest due timer l := by
  induction now with
  | nil => rfl
  | cons e now ih =>
    have he : max timer (due e) = timer := Nat.max_eq_left (h e List.mem_cons_self)
    rw [latest, List.cons_append, List.foldl_cons, he]
    exact ih fun e' he' => h e' (List.mem_cons_of_mem e he')

/-- The members that are due are the first of those that wait. -/
theorem exists_due {due : ε → Nat} {later : List ε} {rest : List (Suspended σ α)}
    (h : Forall₂ (fun e m => knows e m.resume ∧ m.wake.due = due e) later rest) (timer : Nat) :
    ∃ now left, later = now ++ left ∧ (∀ e ∈ now, due e ≤ timer) ∧
      Forall₂ knows now ((Suspended.due timer rest).map (·.resume)) ∧
      Forall₂ (fun e m => knows e m.resume ∧ m.wake.due = due e) left
        (Suspended.later timer rest) := by
  induction h with
  | nil => exact ⟨[], [], rfl, by simp, .nil, .nil⟩
  | @cons e m later rest hm hrest ih =>
    by_cases hdue : m.wake.due ≤ timer
    · obtain ⟨now, left, rfl, hnow, hready, hwaiting⟩ := ih
      refine ⟨e :: now, left, rfl, ?_, ?_, ?_⟩
      · intro e' he'
        rcases List.mem_cons.mp he' with rfl | he'
        · exact hm.2 ▸ hdue
        · exact hnow e' he'
      · rw [Suspended.due, List.takeWhile_cons, if_pos (decide_eq_true hdue)]
        exact .cons hm.1 hready
      · rwa [Suspended.later, List.dropWhile_cons, if_pos (decide_eq_true hdue)]
    · have hnot : ¬decide (m.wake.due ≤ timer) = true := fun h => hdue (of_decide_eq_true h)
      refine ⟨[], e :: later, rfl, by simp, ?_, ?_⟩
      · rw [Suspended.due, List.takeWhile_cons, if_neg hnot]
        exact .nil
      · rw [Suspended.later, List.dropWhile_cons, if_neg hnot]
        exact .cons hm hrest

/-- **A pool of members with one turn left**: those that are ready are done first, then those that
wait, in their order, and the timer moves on to the latest of their moments. -/
theorem Prompt.reaches (h : Prompt rely settle knows value inv) {due : ε → Nat} {p : Pool σ α}
    {now later gone : List ε} {settled : List α} {c : Clock} {s : σ}
    (hready : Forall₂ knows now p.ready)
    (hwaiting : Forall₂ (fun e m => knows e m.resume ∧ m.wake.due = due e) later p.waiting)
    (hqueue : p.queue = []) (hsettled : settled.reverse = gone.map value) (hinv : inv gone s) :
    (run settle p settled c s).Reaches rely fun c' s' l =>
      l = (gone ++ now ++ later).map value ∧ inv (gone ++ now ++ later) s' ∧
        c'.timer = latest due c.timer later := by
  fun_induction run settle p settled c s generalizing now later gone with
  | case1 settled c s r ready waiting queue c' s' a hr ih =>
    subst hqueue
    cases hready with
    | @cons e _ now _ he hready =>
      obtain ⟨s₁, hdone, hinv'⟩ := h.turn c he hinv
      rw [hr] at hdone
      cases hdone
      have hmoves : gone ++ e :: now = gone ++ [e] ++ now := List.append_cons _ _ _
      rw [hmoves]
      refine ih hready hwaiting rfl ?_ hinv'
      rw [List.reverse_cons, hsettled, List.map_append, List.map_singleton]
  | case2 settled c s r ready waiting queue w c' s' k hr ih =>
    cases hready with
    | cons he hready =>
      obtain ⟨s₁, hdone, -⟩ := h.turn c he hinv
      rw [hr] at hdone
      cases hdone
  | case3 settled c s first rest queue ih =>
    subst hqueue
    cases hready
    cases hwaiting with
    | @cons e _ later _ hm hrest =>
      intro c₁ s' hc hs
      obtain ⟨now, left, rfl, hnow, hready, hwaiting⟩ := exists_due hrest c₁.timer
      have hpool := ih c₁ s' (.cons hm.1 hready) hwaiting rfl hsettled (h.rely hs hinv)
      have htimer : c₁.timer = max c.timer (due e) := hm.2 ▸ hc
      refine hpool.mono fun c' s' l hend => ?_
      have hlatest : latest due c.timer (e :: (now ++ left)) =
          latest due c₁.timer left := by
        rw [latest, List.foldl_cons, ← htimer]
        exact latest_append_of_le hnow left
      rw [hlatest, List.append_nil]
      rwa [List.append_assoc, List.cons_append] at hend
  | case4 settled c s queue =>
    cases hready
    cases hwaiting
    rw [List.append_nil, List.append_nil]
    exact ⟨hsettled, hinv, rfl⟩

end Routine.Pool

end Ensemble
