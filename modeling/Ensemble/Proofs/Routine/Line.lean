import Ensemble.Proofs.Routine.Straight
import Mathlib.Data.List.Perm.Basic

/-!
# Pools that work off a line

The routines of a pool are started in the order in which they stand in line, whatever those that are
underway do meanwhile and however many of them there may be at a time. `Pool.Line` is what starting
one and going on with one have to preserve for that, and `Pool.Line.run` carries it through a
straight run to its end, where nothing is left in line or underway. A pool with room for one is no
more than one routine after the other.
-/

namespace Ensemble.Routine.Pool

open List (Forall₂)

variable {σ α δ ε : Type}

/-- Routines that are underway, in whatever order, and what is known of each. -/
def Underway (knows : ε → Routine σ α → Prop) (going : List ε) (routines : List (Routine σ α)) :
    Prop :=
  ∃ l, going.Perm l ∧ Forall₂ knows l routines

section

variable {knows : ε → Routine σ α → Prop} {going going' : List ε}
  {routines routines' : List (Routine σ α)}

theorem Underway.perm (hp : routines.Perm routines') (h : Underway knows going routines) :
    Underway knows going routines' := by
  obtain ⟨l, hgoing, hknows⟩ := h
  obtain ⟨l', hknows', hl⟩ := List.perm_comp_forall₂ hp.symm hknows.flip
  exact ⟨l', hgoing.trans hl.symm, hknows'.flip⟩

theorem Underway.cons {e : ε} {r : Routine σ α} (he : knows e r)
    (h : Underway knows going routines) : Underway knows (e :: going) (r :: routines) := by
  obtain ⟨l, hgoing, hknows⟩ := h
  exact ⟨e :: l, hgoing.cons e, .cons he hknows⟩

theorem Underway.head {r : Routine σ α} (h : Underway knows going (r :: routines)) :
    ∃ e rest, going.Perm (e :: rest) ∧ knows e r ∧ Underway knows rest routines := by
  obtain ⟨_, hgoing, _ | ⟨he, hknows⟩⟩ := h
  exact ⟨_, _, hgoing, he, _, .refl _, hknows⟩

theorem Underway.nil (h : Underway knows going []) : going = [] := by
  obtain ⟨_, hgoing, _ | _⟩ := h
  exact hgoing.eq_nil

end

/-- A pool with a line of routines that have not been started: those that are ready stand behind
the ones underway, and the others wait in the queue. -/
def Lined (task : δ → Routine σ α) (knows : ε → Routine σ α → Prop) (line : List δ)
    (going : List ε) (p : Pool σ α) : Prop :=
  ∃ rests next later, line = next ++ later ∧ p.ready = rests ++ next.map task ∧
    p.queue = later.map task ∧ Underway knows going (rests ++ p.waiting.map (·.resume))

/-- What a turn leaves behind: the routine is settled, or it is underway. -/
def Passes (settle : α → σ → σ) (knows : ε → Routine σ α → Prop)
    (inv : List δ → List ε → List α → σ → Prop) (line : List δ) (going : List ε)
    (settled : List α) : Progress σ α → Prop
  | .done _ s a => inv line going (a :: settled) (settle a s)
  | .waiting _ _ s k => ∃ e, knows e k ∧ inv line (e :: going) settled s

/-- A relation between the line, what is known of those underway, what has been settled, latest
first, and the state, that neither starting the first in line nor going on with one underway can
break. -/
structure Line (settle : α → σ → σ) (task : δ → Routine σ α) (knows : ε → Routine σ α → Prop)
    (inv : List δ → List ε → List α → σ → Prop) : Prop where
  perm : ∀ {line going going' settled s}, going.Perm going' →
    inv line going settled s → inv line going' settled s
  start : ∀ {d line going settled s} c, inv (d :: line) going settled s →
    Passes settle knows inv line going settled (task d c s)
  resume : ∀ {e r line going settled s} c, knows e r → inv line (e :: going) settled s →
    Passes settle knows inv line going settled (r c s)

section

variable {task : δ → Routine σ α} {knows : ε → Routine σ α → Prop} {line : List δ}
  {going : List ε}

theorem lined_start (ds ds' : List δ) :
    Lined task knows (ds ++ ds') ([] : List ε) ⟨ds.map task, [], ds'.map task⟩ :=
  ⟨[], ds, ds', rfl, rfl, rfl, [], .nil, .nil⟩

/-- Room is made for the next in the queue, which is ready behind all others. -/
theorem lined_refill {rests : List (Routine σ α)} {next later : List δ}
    {waiting : List (Suspended σ α)}
    (h : Underway knows going (rests ++ waiting.map (·.resume))) :
    Lined task knows (next ++ later) going
      (refill (rests ++ next.map task) waiting (later.map task)) := by
  cases later with
  | nil => exact ⟨rests, next, [], rfl, rfl, rfl, h⟩
  | cons d later =>
    refine ⟨rests, next ++ [d], later, ?_, ?_, rfl, h⟩
    · rw [List.append_assoc, List.singleton_append]
    · rw [List.map_append, ← List.append_assoc]
      rfl

theorem lined_insert {rests : List (Routine σ α)} {next later : List δ}
    {waiting : List (Suspended σ α)} {e : ε} {w : Wake} {k : Routine σ α} (he : knows e k)
    (h : Underway knows going (rests ++ waiting.map (·.resume))) :
    Lined task knows (next ++ later) (e :: going)
      ⟨rests ++ next.map task, Suspended.insert ⟨w, k⟩ waiting, later.map task⟩ := by
  refine ⟨rests, next, later, rfl, rfl, rfl, (h.cons he).perm ?_⟩
  have hinsert := ((Suspended.insert_perm ⟨w, k⟩ waiting).map (·.resume)).append_left rests
  exact List.perm_middle.symm.trans hinsert.symm

theorem lined_awaken {first : Suspended σ α} {rest : List (Suspended σ α)}
    {queue : List (Routine σ α)} (h : Lined task knows line going ⟨[], first :: rest, queue⟩)
    (timer : Nat) : Lined task knows line going (awaken first rest queue timer) := by
  obtain ⟨rests, next, later, rfl, hready, hqueue, hgoing⟩ := h
  obtain ⟨rfl, hnext⟩ := List.append_eq_nil_iff.mp hready.symm
  obtain rfl := List.map_eq_nil_iff.mp hnext
  refine ⟨_, [], later, rfl, (List.append_nil _).symm, hqueue, ?_⟩
  rw [awaken, List.cons_append, ← List.map_append, Suspended.due, Suspended.later,
    List.takeWhile_append_dropWhile]
  exact hgoing

/-- Whoever is ready first was underway, or it is the first in line. -/
theorem Lined.head {r : Routine σ α} {ready queue : List (Routine σ α)}
    {waiting : List (Suspended σ α)} (h : Lined task knows line going ⟨r :: ready, waiting, queue⟩) :
    ∃ rests next later, ready = rests ++ next.map task ∧ queue = later.map task ∧
      ((∃ e going', going.Perm (e :: going') ∧ knows e r ∧ line = next ++ later ∧
          Underway knows going' (rests ++ waiting.map (·.resume))) ∨
        ∃ d, r = task d ∧ line = d :: (next ++ later) ∧ rests = [] ∧
          Underway knows going (waiting.map (·.resume))) := by
  obtain ⟨rests, next, later, rfl, hready, hqueue, hgoing⟩ := h
  cases rests with
  | cons r' rests =>
    obtain ⟨rfl, rfl⟩ := List.cons_eq_cons.mp hready
    obtain ⟨e, going', hperm, he, hgoing'⟩ := hgoing.head
    exact ⟨rests, next, later, rfl, hqueue, .inl ⟨e, going', hperm, he, rfl, hgoing'⟩⟩
  | nil =>
    cases next with
    | nil => cases hready
    | cons d next =>
      obtain ⟨rfl, rfl⟩ := List.cons_eq_cons.mp hready
      exact ⟨[], next, later, rfl, hqueue, .inr ⟨d, rfl, rfl, rfl, hgoing⟩⟩

variable {settle : α → σ → σ} {inv : List δ → List ε → List α → σ → Prop}

/-- The turn of whoever is ready first. -/
theorem Line.turn (h : Line settle task knows inv) {r : Routine σ α}
    {ready queue : List (Routine σ α)} {waiting : List (Suspended σ α)} {settled : List α} {s : σ}
    (hp : Lined task knows line going ⟨r :: ready, waiting, queue⟩)
    (hinv : inv line going settled s) (c : Clock) :
    ∃ rests next later going', ready = rests ++ next.map task ∧ queue = later.map task ∧
      Underway knows going' (rests ++ waiting.map (·.resume)) ∧
      Passes settle knows inv (next ++ later) going' settled (r c s) := by
  obtain ⟨rests, next, later, hready, hqueue, hcase⟩ := hp.head
  refine ⟨rests, next, later, ?_⟩
  rcases hcase with ⟨e, going', hperm, he, rfl, hgoing⟩ | ⟨d, rfl, rfl, rfl, hgoing⟩
  · exact ⟨going', hready, hqueue, hgoing, h.resume c he (h.perm hperm hinv)⟩
  · exact ⟨going, hready, hqueue, hgoing, h.start c hinv⟩

/-- At the end of a straight run nothing is left in line or underway. -/
theorem Line.run (h : Line settle task knows inv) {p : Pool σ α}
    (hp : Lined task knows line going p) (hfed : p.Fed) {settled : List α} {c : Clock} {s : σ}
    (hinv : inv line going settled s) :
    inv [] [] (Routine.runFrom (Pool.run settle p settled) (c, s)).1.reverse
      (Routine.runFrom (Pool.run settle p settled) (c, s)).2.2 := by
  fun_induction Pool.run settle p settled c s generalizing line going with
  | case1 settled c s r ready waiting queue c' s' a hr ih =>
    rw [runFrom_done hr]
    obtain ⟨rests, next, later, going', rfl, rfl, hgoing, hpasses⟩ := h.turn hp hinv c
    rw [hr] at hpasses
    exact ih (lined_refill hgoing) (fed_refill _ _ _) hpasses
  | case2 settled c s r ready waiting queue w c' s' k hr ih =>
    rw [runFrom_waiting hr]
    obtain ⟨rests, next, later, going', rfl, rfl, hgoing, hpasses⟩ := h.turn hp hinv c
    rw [hr] at hpasses
    obtain ⟨e, he, hinv'⟩ := hpasses
    exact ih (lined_insert he hgoing) (fed_insert _ _ _ _) hinv'
  | case3 settled c s first rest queue ih =>
    rw [runFrom_awaken]
    exact ih _ _ (lined_awaken hp _) (fed_awaken first rest queue _) hinv
  | case4 settled c s queue =>
    rw [runFrom_over, List.reverse_reverse]
    have hqueue : queue = [] := by
      by_contra hne
      exact hfed hne rfl
    obtain ⟨rests, next, later, rfl, hready, hlater, hgoing⟩ := hp
    obtain ⟨rfl, hnext⟩ := List.append_eq_nil_iff.mp hready.symm
    obtain rfl := List.map_eq_nil_iff.mp hnext
    obtain rfl := List.map_eq_nil_iff.mp (hlater.symm.trans hqueue)
    obtain rfl := hgoing.nil
    exact hinv

end

/-! ## Room for one -/

section

variable {settle : α → σ → σ} {settled : List α}

/-- With room for one, the next routine is started when the one before it has been settled. -/
theorem run_single (r : Routine σ α) (queue : List (Routine σ α)) :
    Pool.run settle ⟨[r], [], queue⟩ settled = (r >>= fun a =>
      Routine.modify (settle a) >>= fun _ =>
        Pool.run settle (refill [] [] queue) (a :: settled) : Routine σ (List α)) := by
  funext c s
  generalize hp : r c s = p
  induction p generalizing r c s with
  | done c' s' a =>
    rw [run_done hp, Routine.bind_apply, hp]
    rfl
  | waiting w c' s' k ih =>
    rw [run_waiting hp, Routine.bind_apply, hp]
    -- the pool waits for its one member, which is then ready alone
    have hwait : Pool.run settle ⟨[], Suspended.insert ⟨w, k⟩ [], queue⟩ settled c' s' =
        .waiting w c' s' fun c s => Pool.run settle ⟨[k], [], queue⟩ settled c s := by
      rw [Suspended.insert, Pool.run]
      rfl
    rw [hwait]
    simp only [Progress.andThen]
    congr 1
    funext c'' s''
    exact ih c'' s'' k c'' s'' rfl

theorem runFrom_single (r : Routine σ α) (queue : List (Routine σ α)) (x : Moment σ) :
    Routine.runFrom (Pool.run settle ⟨[r], [], queue⟩ settled) x =
      Routine.runFrom (Pool.run settle (refill [] [] queue) ((r.runFrom x).1 :: settled))
        ((r.runFrom x).2.1, settle (r.runFrom x).1 (r.runFrom x).2.2) := by
  have hsingle := congrArg (Routine.runFrom · x) (@run_single _ _ settle settled r queue)
  exact hsingle.trans (Routine.runFrom_bind r _ x)

end

end Ensemble.Routine.Pool
