import Ensemble.Proofs.Routine.Guarantee
import Ensemble.Routine.Pool

/-!
# Invariants of pools

What a pool does between two of its waits is a row of turns, one member after the other, and each
turn either settles a member or leaves a shorter one in its place. `Pool.Invariant` says what one
turn has to preserve, for the members in whatever order and whatever has been settled before;
`Pool.Invariant.run_upholds` carries it through all interleavings to the end, where nothing is left
of the members.
-/

namespace Ensemble.Routine.Pool

variable {σ α : Type}

/-! ## The turns of a pool -/

section

variable {settle : α → σ → σ} {r : Routine σ α} {ready queue : List (Routine σ α)}
  {waiting : List (Suspended σ α)} {settled : List α} {c c' : Clock} {s s' : σ}

theorem run_done {a : α} (h : r c s = .done c' s' a) :
    run settle ⟨r :: ready, waiting, queue⟩ settled c s =
      run settle (refill ready waiting queue) (a :: settled) c' (settle a s') := by
  rw [run]
  split
  · next h' =>
    rw [h] at h'
    cases h'
    rfl
  · next h' =>
    rw [h] at h'
    cases h'

theorem run_waiting {w : Wake} {k : Routine σ α} (h : r c s = .waiting w c' s' k) :
    run settle ⟨r :: ready, waiting, queue⟩ settled c s =
      run settle ⟨ready, Suspended.insert ⟨w, k⟩ waiting, queue⟩ settled c' s' := by
  rw [run]
  split
  · next h' =>
    rw [h] at h'
    cases h'
  · next h' =>
    rw [h] at h'
    cases h'
    rfl

/-- A pool of which no member is ready goes on when the first one wakes. -/
theorem finish_run_awaken (first : Suspended σ α) (rest : List (Suspended σ α)) :
    (run settle ⟨[], first :: rest, queue⟩ settled c s).finish =
      (run settle (awaken first rest queue (c.advance first.wake.due).timer) settled
        (c.advance first.wake.due) s).finish := by
  rw [run]
  rfl

theorem run_over : run settle ⟨[], [], queue⟩ settled c s = .done c s settled.reverse := by
  rw [run]

end

/-! ## Invariants -/

/-- What a turn of a member leaves behind: it is settled, or the rest of it is put back to the
others. -/
def Turn (G : Guarantee σ) (settle : α → σ → σ)
    (inv : List (Routine σ α) → List α → σ → Prop) (others : List (Routine σ α))
    (settled : List α) (c : Clock) (s : σ) : Progress σ α → Prop
  | .done c' s' a => G.step c s c' (settle a s') ∧ inv others (a :: settled) (settle a s')
  | .waiting _ c' s' k => G.step c s c' s' ∧ inv (k :: others) settled s'

theorem Turn.extend {G : Guarantee σ} {settle : α → σ → σ}
    {inv : List (Routine σ α) → List α → σ → Prop} {others : List (Routine σ α)}
    {settled : List α} {c₀ c : Clock} {s₀ s : σ} {p : Progress σ α}
    (h : Turn G settle inv others settled c s p) (hstep : G.step c₀ s₀ c s) :
    Turn G settle inv others settled c₀ s₀ p := by
  cases p with
  | done c' s' a => exact ⟨G.trans hstep h.1, h.2⟩
  | waiting w c' s' k => exact ⟨G.trans hstep h.1, h.2⟩

/-- A relation between the members of a pool, what has been settled, latest first, and the state,
that no order of the members, nothing that others do and no turn of a member can break. -/
structure Invariant (rely : σ → σ → Prop) (G : Guarantee σ) (settle : α → σ → σ)
    (inv : List (Routine σ α) → List α → σ → Prop) : Prop where
  perm : ∀ {members members' settled s}, members.Perm members' →
    inv members settled s → inv members' settled s
  rely : ∀ {members settled s s'}, rely s s' → inv members settled s → inv members settled s'
  turn : ∀ {r others settled c s}, inv (r :: others) settled s →
    Turn G settle inv others settled c s (r c s)

/-- As long as routines wait in the queue, there are members at work. -/
def Fed (p : Pool σ α) : Prop :=
  p.queue ≠ [] → p.ready ++ p.waiting.map (·.resume) ≠ []

theorem fed_refill (ready : List (Routine σ α)) (waiting : List (Suspended σ α))
    (queue : List (Routine σ α)) : Fed (refill ready waiting queue) := by
  cases queue with
  | nil => exact fun h => absurd rfl h
  | cons q queue => intro _; simp [refill]

theorem fed_insert (ready : List (Routine σ α)) (m : Suspended σ α)
    (waiting : List (Suspended σ α)) (queue : List (Routine σ α)) :
    Fed ⟨ready, Suspended.insert m waiting, queue⟩ := by
  intro _ h
  have hlen := (Suspended.insert_perm m waiting).length_eq
  have hnil : Suspended.insert m waiting = [] :=
    List.map_eq_nil_iff.mp (List.append_eq_nil_iff.mp h).2
  simp [hnil] at hlen

theorem fed_awaken (first : Suspended σ α) (rest : List (Suspended σ α))
    (queue : List (Routine σ α)) (timer : Nat) : Fed (awaken first rest queue timer) := by
  intro _; simp [awaken]

theorem fed_take {limit : Nat} (hlimit : 0 < limit) (routines : List (Routine σ α)) :
    Fed ⟨routines.take limit, [], routines.drop limit⟩ := by
  intro hqueue hmembers
  have htake : routines.take limit = [] := by simpa using hmembers
  rcases List.take_eq_nil_iff.mp htake with hzero | hnil
  · omega
  · exact hqueue (by simp [hnil])

variable {rely : σ → σ → Prop} {G : Guarantee σ} {settle : α → σ → σ}
  {inv : List (Routine σ α) → List α → σ → Prop}

/-- An invariant that holds when a pool begins holds at its end of no members at all. -/
theorem Invariant.run_upholds (h : Invariant rely G settle inv) {p : Pool σ α} {settled : List α}
    {c : Clock} {s : σ} (hfed : p.Fed) (hinv : inv p.group.members settled s) :
    (run settle p settled c s).Upholds rely G (fun l s => inv [] l.reverse s) c s := by
  fun_induction run settle p settled c s with
  | case1 settled c s r ready waiting queue c' s' a hr ih =>
    have hturn := h.turn (c := c) hinv
    rw [hr] at hturn
    refine (ih (fed_refill ready waiting queue) ?_).extend hturn.1
    exact h.perm (group_refill ready waiting queue).symm hturn.2
  | case2 settled c s r ready waiting queue w c' s' k hr ih =>
    have hturn := h.turn (c := c) hinv
    rw [hr] at hturn
    refine (ih (fed_insert ready ⟨w, k⟩ waiting queue) (h.perm ?_ hturn.2)).extend hturn.1
    have hwait := ((Suspended.insert_perm ⟨w, k⟩ waiting).map (·.resume)).append_left ready
    exact (List.perm_middle.symm.append_right queue).trans (hwait.append_right queue).symm
  | case3 settled c s first rest queue ih =>
    refine ⟨G.refl c s, fun c' s' hs => ?_⟩
    refine ih c' s' (fed_awaken first rest queue c'.timer) ?_
    rw [group_awaken]
    exact h.rely hs hinv
  | case4 settled c s queue =>
    cases queue with
    | nil => exact ⟨G.refl c s, by simpa [group] using hinv⟩
    | cons q queue => exact absurd rfl (hfed (List.cons_ne_nil q queue))

/-- What all members of a pool keep to, whatever the others do, the pool keeps to. -/
theorem run_keeps {p : Pool σ α} (hsettle : ∀ a c s, G.step c s c (settle a s)) (hfed : p.Fed)
    (hmembers : ∀ r ∈ p.group.members, r.Meets Anything G (fun _ => True) fun _ _ => True)
    (settled : List α) (c : Clock) (s : σ) :
    (run settle p settled c s).Upholds rely G (fun _ _ => True) c s := by
  let inv : List (Routine σ α) → List α → σ → Prop := fun members _ _ =>
    ∀ r ∈ members, r.Meets Anything G (fun _ => True) fun _ _ => True
  have hinv : Invariant rely G settle inv :=
    { perm := fun hp h r hr => h r (hp.mem_iff.mpr hr)
      rely := fun _ h => h
      turn := by
        intro r others settled c s h
        have hothers : ∀ r' ∈ others, r'.Meets Anything G (fun _ => True) fun _ _ => True :=
          fun r' hr' => h r' (List.mem_cons_of_mem r hr')
        have hr := h r List.mem_cons_self c s trivial
        cases hp : r c s with
        | done c' s' a =>
          rw [hp] at hr
          exact ⟨G.trans hr.1 (hsettle a c' s'), hothers⟩
        | waiting w c' s' k =>
          rw [hp] at hr
          refine ⟨hr.1, fun r' hr' => ?_⟩
          rcases List.mem_cons.mp hr' with rfl | hr'
          · intro c'' s'' _
            exact hr.2 c'' s'' trivial
          · exact hothers r' hr' }
  exact (hinv.run_upholds hfed hmembers).mono (fun _ _ h => h) (fun _ _ _ _ h => h)
    fun _ _ _ _ _ h => ⟨h.1, trivial⟩

end Ensemble.Routine.Pool

namespace Ensemble.Routine

variable {σ α : Type} {rely : σ → σ → Prop} {G : Guarantee σ} {settle : α → σ → σ}
  {inv : List (Routine σ α) → List α → σ → Prop} {P : σ → Prop}

theorem meets_together (h : Pool.Invariant rely G settle inv) {routines : List (Routine σ α)}
    (hinv : ∀ s, P s → inv routines [] s) :
    (together settle routines).Meets rely G P fun l s => inv [] l.reverse s := by
  intro c s hs
  refine h.run_upholds (fun hne => absurd rfl hne) ?_
  simpa [Pool.group] using hinv s hs

theorem meets_bounded (h : Pool.Invariant rely G settle inv) {routines : List (Routine σ α)}
    {limit : Nat} (hlimit : 0 < limit) (hinv : ∀ s, P s → inv routines [] s) :
    (bounded limit settle routines).Meets rely G P fun l s => inv [] l.reverse s := by
  intro c s hs
  refine h.run_upholds (Pool.fed_take hlimit routines) ?_
  simpa [Pool.group] using hinv s hs

end Ensemble.Routine

namespace Ensemble

/-! ## Putting in order what has been settled -/

/-- If one of two orders of a list is strict by some number and the other one respects it, they are
the same. -/
theorem eq_of_ordered {α : Type} (key : α → Nat) {l ordered : List α} (hperm : l.Perm ordered)
    (hle : l.Pairwise fun a b => key a ≤ key b) (hlt : ordered.Pairwise fun a b => key a < key b) :
    l = ordered := by
  refine hperm.eq_of_pairwise ?_ hle (hlt.imp fun h => Nat.le_of_lt h)
  -- no two of them have one number
  let R : α → α → Prop := fun a b => key a = key b → a = b
  have hforth : ordered.Pairwise R := hlt.imp fun hlt heq => absurd heq (Nat.ne_of_lt hlt)
  have hback : ordered.Pairwise (flip R) := hlt.imp fun hlt heq => absurd heq (Nat.ne_of_gt hlt)
  have hdistinct := hforth.forall_of_forall_of_flip (fun _ _ _ => rfl) hback
  intro a b ha hb hab hba
  exact hdistinct (hperm.mem_iff.mp ha) hb (Nat.le_antisymm hab hba)

theorem pairwise_sorted {α : Type} (key : α → Nat) (l : List α) :
    (l.mergeSort fun a b => key a ≤ key b).Pairwise fun a b => key a ≤ key b := by
  refine (List.pairwise_mergeSort ?_ ?_ l).imp fun h => of_decide_eq_true h
  · intro a b c hab hbc
    exact decide_eq_true (Nat.le_trans (of_decide_eq_true hab) (of_decide_eq_true hbc))
  · intro a b
    simp only [Bool.or_eq_true, decide_eq_true_eq]
    omega

/-- The elements of a list stand in the order of their places. -/
theorem pairwise_zipIdx {α : Type} (l : List α) : l.zipIdx.Pairwise fun p q => p.2 < q.2 := by
  have hplaces : (l.zipIdx.map Prod.snd).Pairwise (· < ·) := by
    rw [List.zipIdx_map_snd]
    exact List.pairwise_lt_range'
  exact List.pairwise_map.mp hplaces

end Ensemble
