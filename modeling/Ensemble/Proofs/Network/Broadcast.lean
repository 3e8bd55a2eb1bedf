import Ensemble.Proofs.Network.Delegation

/-!
# What becomes of a broadcast

A broadcast calls the handler for all agents at once, and no call knows of another: each comes out
as it does alone, so what the handler does for one agent shows in the result of no other
(`Network.broadcast_settles_all`).
-/

namespace Ensemble

open List (Forall₂)

/-! ## Whole milliseconds -/

namespace Duration

theorem toMillis_ofMillis (ms : UInt64) : (ofMillis ms).toMillis = ms.toNat := by
  simp only [toMillis, toNanos, ofMillis, UInt64.toNat_div, UInt64.toNat_mod, UInt64.reduceToNat]
  omega

theorem ceilMillis_ofMillis (ms : UInt64) : (ofMillis ms).ceilMillis = ms.toNat := by
  simp only [ceilMillis, toNanos, ofMillis, UInt64.toNat_div, UInt64.toNat_mod,
    UInt64.reduceToNat]
  omega

end Duration

namespace Network

theorem millisWord_ofMillis (ms : UInt64) : (Duration.ofMillis ms).millisWord = ms := by
  rw [Duration.millisWord, Duration.toMillis_ofMillis, UInt64.ofNat_toNat]

/-! ## One call among many -/

/-- What the handler does for an agent and a request does not depend on the calls before. -/
def Steady (n : Network) : Prop :=
  ∀ earlier agent r, n.handler earlier agent r = n.handler [] agent r

variable {n : Network} {task : String} {context : Option Metadata}

/-- What the handler does for an agent that a broadcast reaches. -/
def handlingOf (n : Network) (task : String) (context : Option Metadata) (agent : NetworkAgent) :
    Handling :=
  n.handler [] agent (broadcastRequest task context agent)

/-- How the call for an agent comes out by itself: with its own answer if it has one within the
default timeout. -/
def outcomeOf (n : Network) (task : String) (context : Option Metadata) (agent : NetworkAgent) :
    Except String String :=
  ((n.handlingOf task context agent).answerWithin n.config.defaultTimeoutMs.toNat).getD
    (.error (DelegationFault.timedOut agent.name n.config.defaultTimeoutMs).message)

/-- How long the call for an agent takes by itself: as long as it waits in all, or the default
timeout. -/
def spanOf (n : Network) (task : String) (context : Option Metadata) (agent : NetworkAgent) : Nat :=
  (n.handlingOf task context agent).spanWithin n.config.defaultTimeoutMs.toNat

/-- The state after one more call. -/
def noting (task : String) (context : Option Metadata) (s : NetworkState) (agent : NetworkAgent) :
    NetworkState :=
  { s with calls := s.calls ++ [⟨agent, broadcastRequest task context agent⟩] }

theorem takes_dispatch (hsteady : n.Steady) (agent : NetworkAgent) (c : Clock)
    (s : NetworkState) :
    (n.dispatch agent (broadcastRequest task context agent) c s).Takes
      (·.Tells agent.name (n.outcomeOf task context agent)) (n.spanOf task context agent) c.timer
      (noting task context s agent) := by
  have htakes := takes_attend agent n.config.defaultTimeout (n.handlingOf task context agent) c
    (noting task context s agent)
  rw [verdict, NetworkConfig.defaultTimeout, Duration.ceilMillis_ofMillis, millisWord_ofMillis]
    at htakes
  rw [dispatch_apply, hsteady s.calls]
  exact htakes

theorem takes_broadcastTask (hsteady : n.Steady) (p : NetworkAgent × Nat) (c : Clock)
    (s : NetworkState) :
    (n.broadcastTask task context p c s).Takes
      (fun x => x.1 = p.2 ∧ x.2.Tells p.1.name (n.outcomeOf task context p.1))
      (n.spanOf task context p.1) c.timer (noting task context s p.1) :=
  (takes_dispatch hsteady p.1 c s).andThen fun _ c s h => Routine.takes_pure ⟨rfl, h⟩ c s

theorem foldl_noting (task : String) (context : Option Metadata) (l : List NetworkAgent)
    (s : NetworkState) :
    l.foldl (noting task context) s =
      { s with calls := s.calls ++ l.map fun a => ⟨a, broadcastRequest task context a⟩ } := by
  induction l generalizing s with
  | nil => simp
  | cons a l ih =>
    rw [List.foldl_cons, ih, noting, List.map_cons, List.append_assoc, List.singleton_append]

/-! ## All calls -/

/-- Results that go with the places of their tasks come back in the order of the tasks. -/
theorem forall₂_sorted {α β : Type} {value : α → β → Prop} {l : List α} {done : List (α × Nat)}
    {settled : List (Nat × β)} (hdone : done.Perm l.zipIdx)
    (h : Forall₂ (fun p x => x.1 = p.2 ∧ value p.1 x.2) done settled) :
    Forall₂ value l ((settled.mergeSort fun a b => a.1 ≤ b.1).map (·.2)) := by
  let sorted := settled.mergeSort fun a b => a.1 ≤ b.1
  obtain ⟨tasks, htasks, hperm⟩ : ∃ tasks,
      Forall₂ (fun (x : Nat × β) (p : α × Nat) => x.1 = p.2 ∧ value p.1 x.2) sorted tasks ∧
        tasks.Perm done :=
    List.perm_comp_forall₂ (List.mergeSort_perm settled _) h.flip
  have hplaces : sorted.map (·.1) = tasks.map (·.2) := by
    rw [← List.forall₂_eq_eq_eq, List.forall₂_map_left_iff, List.forall₂_map_right_iff]
    exact htasks.imp fun _ _ h => h.1
  have hle : tasks.Pairwise fun p q => p.2 ≤ q.2 := by
    have hsorted : (sorted.map (·.1)).Pairwise (· ≤ ·) :=
      List.pairwise_map.mpr (pairwise_sorted (·.1) settled)
    rw [hplaces] at hsorted
    exact List.pairwise_map.mp hsorted
  rw [eq_of_ordered (·.2) (hperm.trans hdone) hle (pairwise_zipIdx l)] at htasks
  rw [List.forall₂_map_right_iff, ← List.zipIdx_map_fst 0 l, List.forall₂_map_left_iff]
  exact htasks.flip.imp fun _ _ h => h.2

theorem forall₂_zip {α β γ : Type} {R : α → β → Prop} {S : α → γ → Prop} {l : List α}
    {m : List β} {m' : List γ} (h : Forall₂ R l m) (h' : Forall₂ S l m') :
    Forall₂ (fun a p => R a p.1 ∧ S a p.2) l (m.zip m') := by
  induction h generalizing m' with
  | nil =>
    cases h'
    exact .nil
  | cons hr _ ih =>
    cases h' with
    | cons hs h' => exact .cons ⟨hr, hs⟩ (ih h')

/-- What a broadcast settles, notes and takes. -/
theorem runFrom_broadcast (hsteady : n.Steady) (task : String) (capabilities : List String)
    (context : Option Metadata) (x : Moment NetworkState) :
    let targets := x.2.registry.discover capabilities
    let y := (n.broadcast task capabilities context).runFrom x
    Forall₂ (fun a d => d.Tells a.name (n.outcomeOf task context a)) targets y.1 ∧
      y.2.2 = { x.2 with
        calls := x.2.calls ++ targets.map fun a => ⟨a, broadcastRequest task context a⟩ } ∧
      y.2.1.timer = x.1.timer + (targets.map (n.spanOf task context)).foldr max 0 := by
  intro targets y
  let tasks := targets.zipIdx.map (n.broadcastTask task context)
  let z := (Routine.together (fun _ s => s) tasks).runFrom x
  have hy : y = ((z.1.mergeSort fun a b => a.1 ≤ b.1).map (·.2), z.2) :=
    Routine.runFrom_bind (Routine.together (fun _ s => s) tasks) _ x
  obtain ⟨⟨done, hdone, hsettled⟩, hstate, htimer⟩ :=
    Routine.runFrom_together (takes_broadcastTask (n := n) hsteady) targets.zipIdx x
  have htargets : targets.zipIdx.map (·.1) = targets := List.zipIdx_map_fst 0 targets
  have hcalls : targets.zipIdx.foldl (fun s p => noting task context s p.1) x.2 =
      targets.foldl (noting task context) x.2 := by
    rw [← List.foldl_map, htargets]
  have hspans : targets.zipIdx.map (fun p => n.spanOf task context p.1) =
      targets.map (n.spanOf task context) := by
    rw [← htargets, List.map_map, htargets]
    rfl
  rw [hcalls, foldl_noting] at hstate
  rw [hspans] at htimer
  rw [hy]
  exact ⟨forall₂_sorted hdone hsettled, hstate, htimer⟩

/-- A call for an agent comes out among all others as it does alone. -/
theorem agrees_dispatch (hsteady : n.Steady) {agent : NetworkAgent} {d : DelegationResult}
    (h : d.Tells agent.name (n.outcomeOf task context agent)) (x : Moment NetworkState) :
    d.Agrees ((n.dispatch agent (broadcastRequest task context agent)).runFrom x).1 := by
  obtain ⟨-, -, halone⟩ := (takes_dispatch hsteady agent x.1 x.2).finish
  exact h.agrees halone

/-- **A broadcast settles all, each by itself.** If what the handler does for an agent depends on
nothing but the agent and its request, every agent that is discovered is called once, under any
topology, and no other is. There is one result for each, in their order; it is the one that the
agent has by itself, and it is the same for another network whose handler does the same for this
agent, whatever it does for one other. The timer moves on by the longest of their times. -/
theorem broadcast_settles_all {n : Network} (hsteady : n.Steady) (task : String)
    (capabilities : List String) (context : Option Metadata) (x : Moment NetworkState) :
    let targets := x.2.registry.discover capabilities
    let y := (n.broadcast task capabilities context).runFrom x
    y.2.2 = { x.2 with
        calls := x.2.calls ++ targets.map fun a => ⟨a, broadcastRequest task context a⟩ } ∧
    Forall₂ (fun a d => d.Tells a.name (n.outcomeOf task context a)) targets y.1 ∧
    Forall₂ (fun a d => ∀ x', d.Agrees
      ((n.dispatch a (broadcastRequest task context a)).runFrom x').1) targets y.1 ∧
    (∀ (n' : Network) (other : String), n'.Steady →
      n'.config.defaultTimeoutMs = n.config.defaultTimeoutMs →
      (∀ a ∈ targets, a.name ≠ other →
        n'.handlingOf task context a = n.handlingOf task context a) →
      Forall₂ (fun a p => a.name ≠ other → p.1.Agrees p.2) targets
        (y.1.zip ((n'.broadcast task capabilities context).runFrom x).1)) ∧
    y.2.1.timer = x.1.timer + (targets.map (n.spanOf task context)).foldr max 0 := by
  intro targets y
  obtain ⟨htells, hstate, htimer⟩ := runFrom_broadcast hsteady task capabilities context x
  refine ⟨hstate, htells, htells.imp fun _ _ h => agrees_dispatch hsteady h, ?_, htimer⟩
  intro n' other hsteady' htimeout hothers
  obtain ⟨htells', -, -⟩ := runFrom_broadcast hsteady' task capabilities context x
  have hsame : ∀ a ∈ targets, a.name ≠ other →
      n'.outcomeOf task context a = n.outcomeOf task context a := fun a ha hne => by
    rw [outcomeOf, outcomeOf, htimeout, hothers a ha hne]
  refine ((List.forall₂_and_left _ _).mpr ⟨hsame, forall₂_zip htells htells'⟩).imp ?_
  rintro a ⟨d, d'⟩ ⟨houtcome, hd, hd'⟩ hne
  exact hd.agrees (houtcome hne ▸ hd')

theorem broadcast_settles_trio :
    let agent (name : String) : NetworkAgent := { name, capabilities := [] }
    let n : Network :=
      { config := { defaultTimeoutMs := 20 }
        handler := fun _ a _ =>
          if a.name = "quick" then .wait 2 (.wait 3 (.answer (.ok "done")))
          else if a.name = "broken" then .stall 7 (.answer (.error "no"))
          else .hang }
    let registry :=
      ((Registry.empty.register (agent "stuck")).register (agent "quick")).register (agent "broken")
    let y := (n.broadcast "t" [] none).runFrom (.start, ⟨registry, []⟩)
    n.Steady ∧ y.2.2.calls.length = 3 ∧ y.2.1.timer = 20 ∧
      Forall₂ (fun p d => DelegationResult.Tells d p.1 p.2)
        [("stuck", .error (DelegationFault.timedOut "stuck" 20).message), ("quick", .ok "done"),
          ("broken", .error "no")] y.1 := by
  intro agent n registry y
  have hsteady : n.Steady := fun _ _ _ => rfl
  obtain ⟨hstate, htells, -, -, htimer⟩ :=
    broadcast_settles_all hsteady "t" [] none (.start, ⟨registry, []⟩)
  refine ⟨hsteady, ?_, ?_, ?_⟩
  · exact congrArg (·.calls.length) hstate
  · exact htimer
  · have houtcomes : registry.agents.map (fun a => (a.name, n.outcomeOf "t" none a)) =
        [("stuck", .error (DelegationFault.timedOut "stuck" 20).message), ("quick", .ok "done"),
          ("broken", .error "no")] := rfl
    rw [← houtcomes, List.forall₂_map_left_iff]
    exact htells

end Network

end Ensemble
