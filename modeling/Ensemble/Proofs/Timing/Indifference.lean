import Ensemble.Proofs.Pairing.Shuffle
import Ensemble.Proofs.Stream.Straight

/-!
# Results do not depend on timing

How long a participant takes decides when its calls are done, and so in which order those of a round
come into the transcript. Nothing else follows from it: `timing_indifferent` compares two runs whose
participants answer alike but take any time for it. Both come to the same output, rounds and
blackboard, and every round has the same calls in either.
-/

namespace Ensemble

open List (Forall₂)

open Run

namespace Participant

/-- Participants that differ at most in the time that they take: they have one name and answer by
one function of number and message. -/
def Counterpart (p p' : Participant) : Prop :=
  p.id = p'.id ∧ ∃ f, p.AnswersBy f ∧ p'.AnswersBy f

theorem id_member (p : Participant) (position : Nat) : (p.member position).id = p.id := by
  cases p <;> rfl

theorem Counterpart.peers {p p' : Participant} (h : p.Counterpart p') (position : Nat) :
    (p.member position).Peers (p'.member position) := by
  obtain ⟨hid, f, hanswers, hanswers'⟩ := h
  refine ⟨?_, position, f, hanswers.plays position, hanswers'.plays position⟩
  rw [id_member, id_member, hid]

theorem peers_members {team team' : List Participant} (h : Forall₂ Counterpart team team')
    (position : Nat) : Forall₂ Member.Peers (members position team) (members position team') := by
  induction h generalizing position with
  | nil => exact .nil
  | cons hp _ ih => exact .cons (hp.peers position) (ih (position + 1))

end Participant

/-! ## Results of participants -/

namespace AgentResults

/-- The same messages of each participant, in another order. -/
def Shuffled (r r' : AgentResults) : Prop :=
  Forall₂ (fun e e' => e.agentId = e'.agentId ∧ e.messages.Perm e'.messages) r.entries r'.entries

theorem shuffled_table (ids : List String) {replies replies' : String → List Message}
    (h : ∀ id, (replies id).Perm (replies' id)) :
    (table ids replies).Shuffled (table ids replies') := by
  refine List.forall₂_map_left_iff.mpr (List.forall₂_map_right_iff.mpr ?_)
  exact List.forall₂_same.mpr fun id _ => ⟨rfl, h id⟩

end AgentResults

/-- Options for a map-reduce run make one. -/
theorem Strategy.of_mapReduce {options : Options} {job : MapReduce.Job}
    (h : ofOptions options = .ok (.mapReduce job)) :
    ∃ p, options.pattern = .mapReduce p ∧ job.concurrency = p.concurrency.map (·.toNat) := by
  obtain ⟨pattern, maxRounds, timeout⟩ := options
  cases pattern with
  | mapReduce p =>
    obtain ⟨split, reduce, concurrency⟩ := p
    cases split <;> cases reduce <;> cases h
    exact ⟨_, rfl, rfl⟩
  | supervisor p => cases h
  | swarm p => cases h
  | pipeline p => cases h
  | debate p => cases h

namespace Orchestration

/-- Nothing is forgone in a run that nobody stops. -/
theorem not_forgone_of_calm {team : List Participant} {options : Options} {o : Orchestration}
    (h : ofParticipants team options = .ok o) (hcalm : ∀ p ∈ team, p.Calm)
    (htimeout : o.timeout = none) (input : String) {w : World} (hw : w.memory.cancelled = false) :
    ¬(o.ending input w).2.2.2.Forgone := by
  have hgo := unflagged_of_calm h hcalm htimeout default input hw
  exact not_forgone (accepted_of_build h).1 (forward_of_build h) hgo

variable {team team' : List Participant} {options : Options} {o o' : Orchestration}

/-- Runs of participants that take other times end with the same calls in another order. -/
theorem matched_ending (h : ofParticipants team options = .ok o)
    (h' : ofParticipants team' options = .ok o')
    (hunlimited : ∀ p, options.pattern = .mapReduce p → p.concurrency = none)
    (hteams : Forall₂ Participant.Counterpart team team') (input : String) {w w' : World}
    (htally : w.memory.tally = w'.memory.tally) (hgo : ¬(o.ending input w).2.2.2.Forgone)
    (hgo' : ¬(o'.ending input w').2.2.2.Forgone) :
    (o.ending input w).1 = (o'.ending input w').1 ∧
      ∃ coda, Matched (options.kind ≠ .mapReduce) coda (o.ending input w).2.2
        (o'.ending input w').2.2 := by
  obtain ⟨ho, hmembers⟩ := accepted_of_build h
  obtain ⟨-, hmembers'⟩ := accepted_of_build h'
  have hstrategy := (strategy_of_build h).1
  have hsame : o'.strategy = o.strategy :=
    Except.ok.inj ((strategy_of_build h').1.symm.trans hstrategy)
  have hpeers : Forall₂ Member.Peers o.members o'.members := by
    rw [hmembers, hmembers']
    exact Participant.peers_members hteams 0
  let d := Deadline.after w.clock.now o.timeout
  let d' := Deadline.after w'.clock.now o'.timeout
  have hending' : o'.ending input w' =
      (o.strategy.run o'.members d' input).runFrom (o'.beginning w') := by
    rw [ending, hsame]
  have hjoins : (Pairing.shuffle (options.kind ≠ .mapReduce) d d').Joins
      (fun x y => ∃ coda, Matched (options.kind ≠ .mapReduce) coda x.2 y.2)
      (o.strategy.run o.members d input) (o.strategy.run o'.members d' input) Eq := by
    refine Shuffle.joins_run hpeers ho.unique ?_ ?_ input
    · intro hkind job hjob
      obtain ⟨p, hp, -⟩ := Strategy.of_mapReduce (hstrategy.trans (congrArg Except.ok hjob))
      exact hkind (congrArg PatternOptions.kind hp)
    · intro job hjob
      obtain ⟨p, hp, hlimit⟩ := Strategy.of_mapReduce (hstrategy.trans (congrArg Except.ok hjob))
      rw [hlimit, hunlimited p hp]
      rfl
  have hids : o'.ids = o.ids := (ids_eq (fun h => h.1) hpeers).symm
  have hstart : Matched (options.kind ≠ .mapReduce) [] (o.beginning w).2 (o'.beginning w').2 := by
    rw [beginning, beginning, hids]
    exact .initial o.ids htally
  have hend := hjoins.both _ _ hstart
  rw [← hending'] at hend
  exact hend.resolve_right (not_or.mpr ⟨hgo, hgo'⟩)

/-- **Results do not depend on timing.** Two teams whose participants answer alike, whatever time
they take, come to the same output, rounds, blackboard and numbers of calls if nobody cancels and
there is no timeout. Each participant has the same replies, in the same order except for pieces of
a map-reduce run; and the events and the transcript have the same calls in every section between
the marks of rounds, each call with its reply, only in another order. -/
theorem timing_indifferent (h : ofParticipants team options = .ok o)
    (h' : ofParticipants team' options = .ok o') (htimeout : options.timeout = none)
    (hunlimited : ∀ p, options.pattern = .mapReduce p → p.concurrency = none)
    (hteams : Forall₂ Participant.Counterpart team team') (hcalm : ∀ p ∈ team, p.Calm)
    (hcalm' : ∀ p ∈ team', p.Calm) (stamp stamp' : RunStamp) (input : String) {w w' : World}
    (hw : w.memory.cancelled = false) (hw' : w'.memory.cancelled = false)
    (htally : w.memory.tally = w'.memory.tally) :
    let e := o.execute stamp input w
    let e' := o'.execute stamp' input w'
    e.2.output = e'.2.output ∧ e.2.rounds = e'.2.rounds ∧ e.2.blackboard = e'.2.blackboard ∧
    e.1.memory.tally = e'.1.memory.tally ∧
    e.2.agentResults.Shuffled e'.2.agentResults ∧
    (options.kind ≠ .mapReduce → e.2.agentResults = e'.2.agentResults) ∧
    ∃ groups groups' coda,
      Sectioned (o.stream stamp {} input w).2 e.2.messages groups coda ∧
      Sectioned (o'.stream stamp' {} input w').2 e'.2.messages groups' coda ∧
      Forall₂ List.Perm groups groups' := by
  obtain ⟨ho, hmembers⟩ := accepted_of_build h
  obtain ⟨ho', hmembers'⟩ := accepted_of_build h'
  have hgo := not_forgone_of_calm h hcalm ((strategy_of_build h).2.trans htimeout) input hw
  have hgo' := not_forgone_of_calm h' hcalm' ((strategy_of_build h').2.trans htimeout) input hw'
  obtain ⟨houtput, coda, hmatched⟩ :=
    matched_ending h h' hunlimited hteams input htally hgo hgo'
  obtain ⟨earlier, earlier', current, current', hs, hs', hearlier, hcurrent⟩ := hmatched.calls
  have hgroups : Forall₂ (Shuffled (options.kind ≠ .mapReduce)) (earlier ++ [current])
      (earlier' ++ [current']) := List.rel_append hearlier (.cons hcurrent .nil)
  -- the results of the participants are those of the calls in all sections
  obtain ⟨ledger⟩ := ledger_ending ho input w
  obtain ⟨ledger'⟩ := ledger_ending ho' input w'
  have hresults := hs.results ledger ho.unique
  have hresults' := hs'.results ledger' ho'.unique
  have hids : o.members.map (·.id) = o'.members.map (·.id) := by
    rw [hmembers, hmembers']
    exact ids_eq (fun h => h.1) (Participant.peers_members hteams 0)
  have hcalls := Shuffled.flatten hgroups
  simp only [execute_eq]
  refine ⟨houtput, hmatched.rounds, hmatched.blackboard, hmatched.tally, ?_, ?_,
    earlier ++ [current], earlier' ++ [current'], coda, ?_, ?_, ?_⟩
  · have hshuffled := AgentResults.shuffled_table (o.members.map (·.id)) fun id =>
      (hcalls.perm.filter (·.id = id)).map (·.reply)
    rwa [← hresults, hids, ← hresults'] at hshuffled
  · intro hkind
    refine hresults.trans (Eq.trans ?_ hresults'.symm)
    simp only [hids, hcalls.each hkind]
  · rw [stream_eq ho, execute_eq]
    exact hs.complete _
  · rw [stream_eq ho', execute_eq]
    exact hs'.complete _
  · exact hgroups.imp fun _ _ hg => hg.perm

/-- Two that answer alike at any pace: one says back what it is told, the other one fails at first.
They take the time given for a call. -/
def racers (left right : Nat) : List Participant :=
  [.simple ⟨"left", "", ""⟩ fun _ m => { delay := left, outcome := .ok m },
    .simple ⟨"right", "", ""⟩ fun n m =>
      { stall := right, delay := right, outcome := if n = 0 then .error "not yet" else .ok m }]

theorem racers_calm (left right : Nat) : ∀ p ∈ racers left right, p.Calm := by
  intro p hp
  rcases List.mem_pair.mp hp with rfl | rfl <;> intro n message <;> rfl

theorem racers_counterpart (left right left' right' : Nat) :
    Forall₂ Participant.Counterpart (racers left right) (racers left' right') := by
  refine .cons ⟨rfl, fun _ m => .ok m, ?_, ?_⟩ (.cons ⟨rfl, fun n m =>
    if n = 0 then .error "not yet" else .ok m, ?_, ?_⟩ .nil)
  all_goals exact Participant.answersBy_simple _ _

/-- Two rounds of a swarm come to the same whoever is faster. -/
theorem timing_indifferent_racers :
    ∃ o o', ofParticipants (racers 5 1) { pattern := .swarm {}, maxRounds := 2 } = .ok o ∧
      ofParticipants (racers 1 5) { pattern := .swarm {}, maxRounds := 2 } = .ok o' ∧
      (o.execute default "go" .fresh).2.output = (o'.execute default "go" .fresh).2.output ∧
      (o.execute default "go" .fresh).2.agentResults =
        (o'.execute default "go" .fresh).2.agentResults := by
  let options : Options := { pattern := .swarm {}, maxRounds := 2 }
  obtain ⟨o, h⟩ : ∃ o, ofParticipants (racers 5 1) options = .ok o := ⟨_, rfl⟩
  obtain ⟨o', h'⟩ : ∃ o, ofParticipants (racers 1 5) options = .ok o := ⟨_, rfl⟩
  have hunlimited : ∀ p, options.pattern = .mapReduce p → p.concurrency = none := by
    intro p hp
    cases hp
  obtain ⟨houtput, -, -, -, -, hresults, -⟩ :=
    timing_indifferent h h' rfl hunlimited (racers_counterpart 5 1 1 5) (racers_calm 5 1)
      (racers_calm 1 5) default default "go" (w := .fresh) rfl rfl rfl
  exact ⟨o, o', h, h', houtput, hresults (by decide)⟩

end Orchestration

end Ensemble
