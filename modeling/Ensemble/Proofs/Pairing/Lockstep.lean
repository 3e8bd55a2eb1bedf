import Ensemble.Pattern.MapReduce
import Ensemble.Proofs.Pairing.Basic

/-!
# Pools in lockstep

Two pools of calls go in lockstep if, whenever a member of one has a turn, the member of the other
in its place has a turn of the same kind: both are done with outcomes that are alike, or both wait
for moments that stand in the same order. `Pairing.Lockstep` says what the moments of waking must
have in common for that, and `joins_pool` that pools in lockstep keep two runs side by side, unless
one of the turns makes the runs lose each other.
-/

namespace Ensemble

open List (Forall₂)

open Routine (Pool Suspended)

/-! ## Lists in the same order -/

section

variable {σ α : Type} {R : Suspended σ α → Suspended σ α → Prop}
  {l l' : List (Suspended σ α)}

theorem forall₂_insert {m m' : Suspended σ α} (hm : R m m')
    (hbefore : ∀ n n', R n n' → m.wake.before n.wake = m'.wake.before n'.wake)
    (h : Forall₂ R l l') : Forall₂ R (Suspended.insert m l) (Suspended.insert m' l') := by
  induction h with
  | nil => exact .cons hm .nil
  | @cons n n' _ _ hn hrest ih =>
    simp only [Suspended.insert, hbefore n n' hn]
    split
    · exact .cons hm (.cons hn hrest)
    · exact .cons hn ih

variable {timer timer' : Nat}

theorem forall₂_due (hdue : ∀ m m', R m m' → (m.wake.due ≤ timer ↔ m'.wake.due ≤ timer'))
    (h : Forall₂ R l l') : Forall₂ R (Suspended.due timer l) (Suspended.due timer' l') := by
  induction h with
  | nil => exact .nil
  | @cons m m' _ _ hm _ ih =>
    simp only [Suspended.due, List.takeWhile_cons, decide_eq_true_eq] at ih ⊢
    by_cases hle : m.wake.due ≤ timer
    · rw [if_pos hle, if_pos ((hdue m m' hm).mp hle)]
      exact .cons hm ih
    · rw [if_neg hle, if_neg fun hle' => hle ((hdue m m' hm).mpr hle')]
      exact .nil

theorem forall₂_later (hdue : ∀ m m', R m m' → (m.wake.due ≤ timer ↔ m'.wake.due ≤ timer'))
    (h : Forall₂ R l l') : Forall₂ R (Suspended.later timer l) (Suspended.later timer' l') := by
  induction h with
  | nil => exact .nil
  | @cons m m' _ _ hm hrest ih =>
    simp only [Suspended.later, List.dropWhile_cons, decide_eq_true_eq] at ih ⊢
    by_cases hle : m.wake.due ≤ timer
    · rw [if_pos hle, if_pos ((hdue m m' hm).mp hle)]
      exact ih
    · rw [if_neg hle, if_neg fun hle' => hle ((hdue m m' hm).mpr hle')]
      exact .cons hm hrest

/-- Sorting by position keeps lists aligned that have the same positions. -/
theorem forall₂_inOrder {A : Settled → Settled → Prop} {calls calls' : List Settled}
    (hposition : ∀ a b, A a b → a.position = b.position) (h : Forall₂ A calls calls') :
    Forall₂ A (Run.inOrder calls) (Run.inOrder calls') := by
  obtain ⟨hlength, hzip⟩ := List.forall₂_iff_zip.mp h
  have hpairs : ∀ p ∈ calls.zip calls', A p.1 p.2 := fun p hp => hzip hp
  -- both lists are sides of one list of pairs, and sorting that one sorts both
  let order : Settled × Settled → Settled × Settled → Bool := fun p q =>
    p.1.position ≤ q.1.position
  have hleft : Run.inOrder calls = ((calls.zip calls').mergeSort order).map Prod.fst := by
    have hfst : (calls.zip calls').map Prod.fst = calls := List.map_fst_zip (Nat.le_of_eq hlength)
    rw [List.map_mergeSort (s := fun a b => a.position ≤ b.position), hfst]
    · rfl
    · exact fun _ _ _ _ => rfl
  have hright : Run.inOrder calls' = ((calls.zip calls').mergeSort order).map Prod.snd := by
    have hsnd : (calls.zip calls').map Prod.snd = calls' :=
      List.map_snd_zip (Nat.le_of_eq hlength.symm)
    rw [List.map_mergeSort (s := fun a b => a.position ≤ b.position), hsnd]
    · rfl
    · intro p hp q hq
      rw [← hposition _ _ (hpairs p hp), ← hposition _ _ (hpairs q hq)]
  rw [hleft, hright, List.forall₂_map_left_iff, List.forall₂_map_right_iff]
  exact List.forall₂_same.mpr fun p hp => hpairs p ((List.mergeSort_perm _ _).mem_iff.mp hp)

end

namespace Pairing

variable {d₁ d₂ : Deadline}

/-- Moments of waking in two runs that stand in the same order, and that the timers reach at
once. -/
structure Lockstep (X : Pairing d₁ d₂) (wakes : Wake → Wake → Prop) : Prop where
  before : ∀ {v v' w w'}, wakes v v' → wakes w w' → v.before w = v'.before w'
  due : ∀ {w w' x y}, wakes w w' → X.abreast x y → (w.due ≤ x.1.timer ↔ w'.due ≤ y.1.timer)
  advance : ∀ {w w' x y}, wakes w w' → X.abreast x y →
    X.abreast (x.1.advance w.due, x.2) (y.1.advance w'.due, y.2)

/-- Turns of the same kind, behind which `peers` holds of what is left of the two members. -/
def Turns (X : Pairing d₁ d₂) (wakes : Wake → Wake → Prop)
    (peers : Routine Scene Settled → Routine Scene Settled → Prop) :
    Progress Scene Settled → Progress Scene Settled → Prop
  | .done c s a, .done c' s' a' =>
    a.Alike X.reply a' ∧ X.abreast (c, Run.settle a s) (c', Run.settle a' s')
  | .waiting w c s k, .waiting w' c' s' k' =>
    wakes w w' ∧ X.abreast (c, s) (c', s') ∧ peers k k'
  | _, _ => False

/-- Members of two pools that take turns of the same kind whenever the runs are side by side, or
lose each other. -/
structure InStep (X : Pairing d₁ d₂) (wakes : Wake → Wake → Prop)
    (peers : Routine Scene Settled → Routine Scene Settled → Prop) : Prop where
  one : ∀ {r r'}, peers r r' →
    r.Meets Anything X.one.toGuarantee (fun _ => True) fun _ _ => True
  two : ∀ {r r'}, peers r r' →
    r'.Meets Anything X.two.toGuarantee (fun _ => True) fun _ _ => True
  turn : ∀ {r r'}, peers r r' → ∀ {x y}, X.abreast x y →
    X.apart x y ∨ X.Turns wakes peers (r x.1 x.2) (r' y.1 y.2)

/-- Members that wait for moments in the same order, with rests that correspond. -/
structure Waits (wakes : Wake → Wake → Prop)
    (peers : Routine Scene Settled → Routine Scene Settled → Prop)
    (m m' : Suspended Scene Settled) : Prop where
  wake : wakes m.wake m'.wake
  resume : peers m.resume m'.resume

/-- Pools whose members correspond one by one. -/
structure Aligned (wakes : Wake → Wake → Prop)
    (peers : Routine Scene Settled → Routine Scene Settled → Prop) (p p' : Pool Scene Settled) :
    Prop where
  ready : Forall₂ peers p.ready p'.ready
  waiting : Forall₂ (Waits wakes peers) p.waiting p'.waiting
  queue : Forall₂ peers p.queue p'.queue

variable {X : Pairing d₁ d₂} {wakes : Wake → Wake → Prop}
  {peers : Routine Scene Settled → Routine Scene Settled → Prop} {p p' : Pool Scene Settled}

theorem Aligned.members (h : Aligned wakes peers p p') :
    Forall₂ peers p.group.members p'.group.members := by
  refine List.rel_append (List.rel_append h.ready ?_) h.queue
  exact List.rel_map (fun _ _ hm => hm.resume) h.waiting

theorem Aligned.fed (h : Aligned wakes peers p p') (hfed : p.Fed) : p'.Fed := by
  intro hqueue hmembers
  have hlength := h.queue.length_eq
  have hready := h.ready.length_eq
  have hwaiting := h.waiting.length_eq
  refine hfed (fun hnil => hqueue ?_) ?_
  · rw [hnil] at hlength
    exact List.length_eq_zero_iff.mp hlength.symm
  · have hzero := congrArg List.length hmembers
    rw [List.length_append, List.length_map, List.length_nil] at hzero
    refine List.length_eq_zero_iff.mp ?_
    rw [List.length_append, List.length_map]
    omega

theorem aligned_refill {ready ready' queue queue' : List (Routine Scene Settled)}
    {waiting waiting' : List (Suspended Scene Settled)}
    (h : Aligned wakes peers ⟨ready, waiting, queue⟩ ⟨ready', waiting', queue'⟩) :
    Aligned wakes peers (Pool.refill ready waiting queue) (Pool.refill ready' waiting' queue') := by
  obtain ⟨hready, hwaiting, hqueue⟩ := h
  cases hqueue with
  | nil => exact ⟨hready, hwaiting, .nil⟩
  | cons hq hqueue => exact ⟨List.rel_append hready (.cons hq .nil), hwaiting, hqueue⟩

theorem Lockstep.aligned_insert (hwakes : X.Lockstep wakes)
    {ready ready' queue queue' : List (Routine Scene Settled)}
    {waiting waiting' : List (Suspended Scene Settled)} (hready : Forall₂ peers ready ready')
    (hwaiting : Forall₂ (Waits wakes peers) waiting waiting') (hqueue : Forall₂ peers queue queue')
    {w w' : Wake} {k k' : Routine Scene Settled} (hw : wakes w w') (hk : peers k k') :
    Aligned wakes peers ⟨ready, Suspended.insert ⟨w, k⟩ waiting, queue⟩
      ⟨ready', Suspended.insert ⟨w', k'⟩ waiting', queue'⟩ where
  ready := hready
  waiting := forall₂_insert ⟨hw, hk⟩ (fun _ _ hn => hwakes.before hw hn.wake) hwaiting
  queue := hqueue

theorem aligned_awaken {first first' : Suspended Scene Settled}
    {rest rest' : List (Suspended Scene Settled)} {queue queue' : List (Routine Scene Settled)}
    (hfirst : Waits wakes peers first first') (hrest : Forall₂ (Waits wakes peers) rest rest')
    (hqueue : Forall₂ peers queue queue') {timer timer' : Nat}
    (hdue : ∀ {w w'}, wakes w w' → (w.due ≤ timer ↔ w'.due ≤ timer')) :
    Aligned wakes peers (Pool.awaken first rest queue timer)
      (Pool.awaken first' rest' queue' timer') where
  ready := .cons hfirst.resume
    (List.rel_map (fun _ _ hm => hm.resume) (forall₂_due (fun _ _ hm => hdue hm.wake) hrest))
  waiting := forall₂_later (fun _ _ hm => hdue hm.wake) hrest
  queue := hqueue

/-- A straight run of a pool whose members all keep to a regime is a step of it. -/
theorem step_pool {d : Deadline} (K : Run.Regime d) (hfed : p.Fed)
    (hmembers : ∀ r ∈ p.group.members,
      r.Meets Anything K.toGuarantee (fun _ => True) fun _ _ => True)
    (settled : List Settled) (x : Moment Scene) :
    K.step x.1 x.2 (Routine.runFrom (Pool.run Run.settle p settled) x).2.1
      (Routine.runFrom (Pool.run Run.settle p settled) x).2.2 := by
  have hkeeps : (Pool.run Run.settle p settled x.1 x.2).Upholds Anything K.toGuarantee
      (fun _ _ => True) x.1 x.2 := Pool.run_keeps (Run.step_settle K) hfed hmembers settled x.1 x.2
  exact (hkeeps.finish (fun _ => trivial) K.elapse).1

theorem InStep.keeps (h : X.InStep wakes peers) (hp : Aligned wakes peers p p') :
    (∀ r ∈ p.group.members, r.Meets Anything X.one.toGuarantee (fun _ => True) fun _ _ => True) ∧
    ∀ r ∈ p'.group.members, r.Meets Anything X.two.toGuarantee (fun _ => True) fun _ _ => True := by
  have hone := hp.members.imp fun _ _ hr => And.intro (h.one hr) hr
  have htwo := hp.members.flip.imp fun _ _ hr => And.intro (h.two hr) hr
  exact ⟨((List.forall₂_and_left _ _).mp hone).1, ((List.forall₂_and_left _ _).mp htwo).1⟩

/-- Pools that have lost each other stay apart to their ends. -/
theorem InStep.apart (h : X.InStep wakes peers) (hp : Aligned wakes peers p p') (hfed : p.Fed)
    {x y : Moment Scene} (hapart : X.apart x y) (settled settled' : List Settled) :
    X.apart (Routine.runFrom (Pool.run Run.settle p settled) x).2
      (Routine.runFrom (Pool.run Run.settle p' settled') y).2 :=
  X.lasts hapart (step_pool X.one hfed (h.keeps hp).1 settled x)
    (step_pool X.two (hp.fed hfed) (h.keeps hp).2 settled' y)

/-- **Pools in lockstep** come to the same ends side by side, or lose each other. -/
theorem InStep.run (h : X.InStep wakes peers) (hwakes : X.Lockstep wakes)
    (hp : Aligned wakes peers p p') (hfed : p.Fed) {settled settled' : List Settled}
    (hsettled : Forall₂ (Settled.Alike X.reply) settled settled') {c c' : Clock} {s s' : Scene}
    (hxy : X.abreast (c, s) (c', s')) :
    X.Ends X.abreast (Forall₂ (Settled.Alike X.reply))
      (Routine.runFrom (Pool.run Run.settle p settled) (c, s))
      (Routine.runFrom (Pool.run Run.settle p' settled') (c', s')) := by
  fun_induction Pool.run Run.settle p settled c s generalizing p' settled' c' s' with
  | case1 settled c s r ready waiting queue c₁ s₁ a hr ih =>
    obtain ⟨ready', waiting', queue'⟩ := p'
    cases hp.ready with
    | @cons _ r' _ ready' hpeers hready =>
      rcases h.turn hpeers hxy with hapart | hturns
      · exact .inr (h.apart hp hfed hapart settled settled')
      rw [hr] at hturns
      cases hr' : r' c' s' with
      | waiting w' c₁' s₁' k' => rw [hr'] at hturns; exact hturns.elim
      | done c₁' s₁' a' =>
        rw [hr'] at hturns
        rw [Pool.runFrom_done hr, Pool.runFrom_done hr']
        exact ih (aligned_refill ⟨hready, hp.waiting, hp.queue⟩) (Pool.fed_refill _ _ _)
          (.cons hturns.1 hsettled) hturns.2
  | case2 settled c s r ready waiting queue w c₁ s₁ k hr ih =>
    obtain ⟨ready', waiting', queue'⟩ := p'
    cases hp.ready with
    | @cons _ r' _ ready' hpeers hready =>
      rcases h.turn hpeers hxy with hapart | hturns
      · exact .inr (h.apart hp hfed hapart settled settled')
      rw [hr] at hturns
      cases hr' : r' c' s' with
      | done c₁' s₁' a' => rw [hr'] at hturns; exact hturns.elim
      | waiting w' c₁' s₁' k' =>
        rw [hr'] at hturns
        obtain ⟨hw, hxy₁, hk⟩ := hturns
        rw [Pool.runFrom_waiting hr, Pool.runFrom_waiting hr']
        exact ih (hwakes.aligned_insert hready hp.waiting hp.queue hw hk)
          (Pool.fed_insert _ _ _ _) hsettled hxy₁
  | case3 settled c s first rest queue ih =>
    obtain ⟨ready', waiting', queue'⟩ := p'
    cases hp.ready
    cases hp.waiting with
    | @cons _ first' _ rest' hfirst hrest =>
      rw [Pool.runFrom_awaken, Pool.runFrom_awaken]
      -- both timers reach the moments at which the first members wake
      have hlater := hwakes.advance hfirst.wake hxy
      have haligned := aligned_awaken hfirst hrest hp.queue fun hw => hwakes.due hw hlater
      exact ih _ _ haligned (Pool.fed_awaken _ _ _ _) hsettled hlater
  | case4 settled c s queue =>
    obtain ⟨ready', waiting', queue'⟩ := p'
    cases hp.ready
    cases hp.waiting
    rw [Pool.runFrom_over, Pool.runFrom_over]
    exact .inl ⟨List.rel_reverse hsettled, hxy⟩

theorem InStep.joins_pool (h : X.InStep wakes peers) (hwakes : X.Lockstep wakes)
    (hp : Aligned wakes peers p p') (hfed : p.Fed) :
    X.Abreast (Pool.run Run.settle p []) (Pool.run Run.settle p' [])
      (Forall₂ (Settled.Alike X.reply)) where
  one c s _ := Pool.run_keeps (Run.step_settle X.one) hfed (h.keeps hp).1 [] c s
  two c s _ := Pool.run_keeps (Run.step_settle X.two) (hp.fed hfed) (h.keeps hp).2 [] c s
  both _ _ hxy := h.run hwakes hp hfed .nil hxy

variable {plan plan' : List Dispatch} {alike : Dispatch → Dispatch → Prop}

theorem forall₂_tasks (hperform : ∀ {d d'} n, alike d d' →
      peers (Run.perform d₁ d n) (Run.perform d₂ d' n))
    (hplan : Forall₂ alike plan plan') :
    Forall₂ peers (Run.tasks d₁ plan) (Run.tasks d₂ plan') := by
  have hfrom : ∀ n, Forall₂ peers ((plan.zipIdx n).map fun p => Run.perform d₁ p.1 p.2)
      ((plan'.zipIdx n).map fun p => Run.perform d₂ p.1 p.2) := by
    induction hplan with
    | nil => exact fun _ => .nil
    | cons hd _ ih => exact fun n => .cons (hperform n hd) (ih (n + 1))
  exact hfrom 0

/-- All calls of two plans at once, if they go in lockstep. -/
theorem InStep.dispatchRound (h : X.InStep wakes peers) (hwakes : X.Lockstep wakes)
    (htasks : Forall₂ peers (Run.tasks d₁ plan) (Run.tasks d₂ plan')) :
    X.Abreast (Run.dispatchRound d₁ plan) (Run.dispatchRound d₂ plan')
      (Forall₂ (Settled.Alike X.reply)) := by
  have haligned : Aligned wakes peers ⟨Run.tasks d₁ plan, [], []⟩ ⟨Run.tasks d₂ plan', [], []⟩ :=
    ⟨htasks, .nil, .nil⟩
  have hpool := h.joins_pool hwakes haligned fun hqueue => absurd rfl hqueue
  exact Joins.map hpool fun _ _ hcalls => forall₂_inOrder (fun _ _ hs => hs.position) hcalls

/-- The calls of two plans, so many at a time, if they go in lockstep. -/
theorem InStep.dispatchBounded (h : X.InStep wakes peers) (hwakes : X.Lockstep wakes)
    (htasks : Forall₂ peers (Run.tasks d₁ plan) (Run.tasks d₂ plan')) {limit : Nat}
    (hlimit : 0 < limit) :
    X.Abreast (Run.dispatchBounded d₁ limit plan) (Run.dispatchBounded d₂ limit plan')
      (Forall₂ (Settled.Alike X.reply)) := by
  refine h.joins_pool hwakes ⟨?_, .nil, ?_⟩ (Pool.fed_take hlimit _)
  · exact List.forall₂_take limit htasks
  · exact List.forall₂_drop limit htasks

/-- The pieces of a map-reduce run, if the calls for them go in lockstep. -/
theorem InStep.mapPieces (h : X.InStep wakes peers) (hwakes : X.Lockstep wakes)
    (htasks : Forall₂ peers (Run.tasks d₁ plan) (Run.tasks d₂ plan')) {concurrency : Option Nat}
    (hlimit : concurrency ≠ some 0) :
    X.Abreast (MapReduce.mapPieces d₁ concurrency plan) (MapReduce.mapPieces d₂ concurrency plan')
      (Forall₂ X.reply) := by
  have hreplies : ∀ calls calls', Forall₂ (Settled.Alike X.reply) calls calls' →
      Forall₂ X.reply (calls.filterMap (·.outcome.response?))
        (calls'.filterMap (·.outcome.response?)) :=
    fun _ _ hcalls => List.rel_filterMap (fun _ _ hs => hs.outcome.response?) hcalls
  cases concurrency with
  | none => exact Joins.map (h.dispatchRound hwakes htasks) hreplies
  | some limit =>
    have hpos : 0 < limit := Nat.pos_of_ne_zero fun hzero => hlimit (congrArg some hzero)
    exact Joins.map (h.dispatchBounded hwakes htasks hpos) hreplies

end Pairing

end Ensemble
