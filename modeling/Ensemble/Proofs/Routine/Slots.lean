import Ensemble.Proofs.Routine.Guarantee
import Ensemble.Proofs.Routine.Line

/-!
# Pools with a limit

A pool with a limit has so many slots. Each routine that is ready or waits holds one of them, and
who is done hands it on to the first in the queue at once; so whenever the pool waits, all slots are
taken or nobody is left in the queue. `Pool.Slots` is what starting a routine, where there is room
for it, and going on with one underway have to preserve, and `Pool.Slots.keeps` carries it through
all interleavings, from wait to wait and up to the end.
-/

namespace Ensemble.Routine.Pool

variable {σ α δ ε : Type}

/-- How many routines of a pool hold a slot. -/
def taken (p : Pool σ α) : Nat := p.ready.length + p.waiting.length

/-- No more than `limit` slots are taken, and all of them are while the queue is not empty. -/
structure Manned (limit : Nat) (p : Pool σ α) : Prop where
  atMost : p.taken ≤ limit
  full : p.queue ≠ [] → p.taken = limit

section

variable {limit : Nat} {ready queue : List (Routine σ α)} {waiting : List (Suspended σ α)}

theorem manned_take (limit : Nat) (routines : List (Routine σ α)) :
    Manned limit ⟨routines.take limit, [], routines.drop limit⟩ where
  atMost := List.length_take_le limit routines
  full hqueue := by
    have hlt : limit < routines.length := by simpa using hqueue
    simp [taken, Nat.min_eq_left (Nat.le_of_lt hlt)]

/-- Who is done hands its slot on. -/
theorem Manned.refill {r : Routine σ α} (h : Manned limit ⟨r :: ready, waiting, queue⟩) :
    Manned limit (refill ready waiting queue) := by
  have hatMost := h.atMost
  cases queue with
  | nil =>
    refine ⟨?_, fun hqueue => absurd rfl hqueue⟩
    simp only [Pool.refill, taken, List.length_cons] at hatMost ⊢
    omega
  | cons q queue =>
    have hfull := h.full (List.cons_ne_nil q queue)
    refine ⟨?_, fun _ => ?_⟩
    · simp only [Pool.refill, taken, List.length_append, List.length_cons, List.length_nil]
        at hatMost ⊢
      omega
    · simp only [Pool.refill, taken, List.length_append, List.length_cons, List.length_nil]
        at hfull ⊢
      omega

/-- Who waits keeps its slot. -/
theorem Manned.insert {r : Routine σ α} (h : Manned limit ⟨r :: ready, waiting, queue⟩)
    (m : Suspended σ α) : Manned limit ⟨ready, Suspended.insert m waiting, queue⟩ := by
  have hlength : (Suspended.insert m waiting).length = waiting.length + 1 :=
    (Suspended.insert_perm m waiting).length_eq
  have htaken : taken ⟨ready, Suspended.insert m waiting, queue⟩ =
      taken ⟨r :: ready, waiting, queue⟩ := by
    simp only [taken, hlength, List.length_cons]
    omega
  exact ⟨htaken ▸ h.atMost, fun hqueue => htaken ▸ h.full hqueue⟩

theorem Manned.awaken {first : Suspended σ α} {rest : List (Suspended σ α)}
    (h : Manned limit ⟨[], first :: rest, queue⟩) (timer : Nat) :
    Manned limit (awaken first rest queue timer) := by
  have hlength : (Suspended.due timer rest).length + (Suspended.later timer rest).length =
      rest.length := by
    rw [← List.length_append, Suspended.due, Suspended.later, List.takeWhile_append_dropWhile]
  have htaken : taken (Pool.awaken first rest queue timer) =
      taken ⟨[], first :: rest, queue⟩ := by
    simp only [taken, Pool.awaken, List.length_cons, List.length_map, List.length_nil]
    omega
  exact ⟨htaken ▸ h.atMost, fun hqueue => htaken ▸ h.full hqueue⟩

end

/-- A relation between the line, what is known of those underway, what has been settled, latest
first, and the state, that neither starting the first in line where one of `limit` slots is free, nor
going on with one underway, nor anything that others do can break. -/
structure Slots (limit : Nat) (rely : σ → σ → Prop) (settle : α → σ → σ) (task : δ → Routine σ α)
    (knows : ε → Routine σ α → Prop) (inv : List δ → List ε → List α → σ → Prop) : Prop where
  perm : ∀ {line going going' settled s}, going.Perm going' →
    inv line going settled s → inv line going' settled s
  rely : ∀ {line going settled s s'}, rely s s' → inv line going settled s →
    inv line going settled s'
  start : ∀ {d line going settled s} c, going.length < limit → inv (d :: line) going settled s →
    Passes settle knows inv line going settled (task d c s)
  resume : ∀ {e r line going settled s} c, knows e r → inv line (e :: going) settled s →
    Passes settle knows inv line going settled (r c s)

variable {limit : Nat} {rely : σ → σ → Prop} {settle : α → σ → σ} {task : δ → Routine σ α}
  {knows : ε → Routine σ α → Prop} {inv : List δ → List ε → List α → σ → Prop} {line : List δ}
  {going : List ε}

theorem Underway.length_eq {routines : List (Routine σ α)} (h : Underway knows going routines) :
    going.length = routines.length := by
  obtain ⟨l, hperm, hknows⟩ := h
  rw [hperm.length_eq, hknows.length_eq]

/-- The turn of whoever is ready first. -/
theorem Slots.turn (h : Slots limit rely settle task knows inv) {r : Routine σ α}
    {ready queue : List (Routine σ α)} {waiting : List (Suspended σ α)} {settled : List α} {s : σ}
    (hp : Lined task knows line going ⟨r :: ready, waiting, queue⟩)
    (hmanned : Manned limit ⟨r :: ready, waiting, queue⟩) (hinv : inv line going settled s)
    (c : Clock) :
    ∃ rests next later going', ready = rests ++ next.map task ∧ queue = later.map task ∧
      Underway knows going' (rests ++ waiting.map (·.resume)) ∧
      Passes settle knows inv (next ++ later) going' settled (r c s) := by
  obtain ⟨rests, next, later, hready, hqueue, hcase⟩ := hp.head
  refine ⟨rests, next, later, ?_⟩
  rcases hcase with ⟨e, going', hperm, he, rfl, hgoing⟩ | ⟨d, rfl, rfl, rfl, hgoing⟩
  · exact ⟨going', hready, hqueue, hgoing, h.resume c he (h.perm hperm hinv)⟩
  · -- one of the slots is its own, and those underway hold others
    have hroom : going.length < limit := by
      have hatMost := hmanned.atMost
      rw [hgoing.length_eq, List.length_map]
      simp only [taken, List.length_cons] at hatMost
      omega
    exact ⟨going, hready, hqueue, hgoing, h.start c hroom hinv⟩

/-- **The slots of a pool are taken whenever it waits**, or nobody is left to take them; and at its
end nothing is left in line or underway. -/
theorem Slots.keeps (h : Slots limit rely settle task knows inv) (hlimit : 0 < limit)
    {p : Pool σ α} (hp : Lined task knows line going p) (hmanned : Manned limit p)
    {settled : List α} {c c₀ : Clock} {s s₀ : σ} (hinv : inv line going settled s) :
    (run settle p settled c s).Keeps rely
      (fun _ _ _ s => ∃ line going settled, inv line going settled s ∧
        going.length = min limit (going.length + line.length))
      (fun _ _ _ s l => inv [] [] l.reverse s) c₀ s₀ := by
  fun_induction run settle p settled c s generalizing line going c₀ s₀ with
  | case1 settled c s r ready waiting queue c' s' a hr ih =>
    obtain ⟨rests, next, later, going', rfl, rfl, hgoing, hpasses⟩ := h.turn hp hmanned hinv c
    rw [hr] at hpasses
    exact ih (lined_refill hgoing) hmanned.refill hpasses
  | case2 settled c s r ready waiting queue w c' s' k hr ih =>
    obtain ⟨rests, next, later, going', rfl, rfl, hgoing, hpasses⟩ := h.turn hp hmanned hinv c
    rw [hr] at hpasses
    obtain ⟨e, he, hinv'⟩ := hpasses
    exact ih (lined_insert he hgoing) (hmanned.insert _) hinv'
  | case3 settled c s first rest queue ih =>
    refine ⟨⟨line, going, settled, hinv, ?_⟩, fun c' s' hs => ?_⟩
    · obtain ⟨rests, next, later, rfl, hready, rfl, hgoing⟩ := hp
      obtain ⟨rfl, hnext⟩ := List.append_eq_nil_iff.mp hready.symm
      obtain rfl := List.map_eq_nil_iff.mp hnext
      have hlength := hgoing.length_eq
      have hatMost := hmanned.atMost
      cases later with
      | nil => simp [taken] at hlength hatMost ⊢; omega
      | cons d later =>
        have hfull := hmanned.full (by simp)
        simp [taken] at hlength hfull ⊢
        omega
    · exact ih c' s' (lined_awaken hp _) (hmanned.awaken _) (h.rely hs hinv)
  | case4 settled c s queue =>
    have hqueue : queue = [] := by
      by_contra hne
      have hfull := hmanned.full hne
      simp [taken] at hfull
      omega
    obtain ⟨rests, next, later, rfl, hready, hlater, hgoing⟩ := hp
    obtain ⟨rfl, hnext⟩ := List.append_eq_nil_iff.mp hready.symm
    obtain rfl := List.map_eq_nil_iff.mp hnext
    obtain rfl := List.map_eq_nil_iff.mp (hlater.symm.trans hqueue)
    obtain rfl := hgoing.nil
    unfold Progress.Keeps
    rwa [List.reverse_reverse]

end Ensemble.Routine.Pool
