import Ensemble.Orchestration
import Ensemble.Proofs.Consensus.Plurality
import Ensemble.Proofs.Run.Schedule
import Ensemble.Proofs.Stream.Rounds

/-!
# What a supervisor does

A supervisor asks everyone in the first round, and then everyone again or one participant after the
other. The output is made of all successful replies, whenever they came. `Asks` and `Aggregates` say
both without the program, and `supervisor_aggregates` that every run does so; where the two ways to
delegate ask the same participants, they are the same.
-/

namespace Ensemble

open Run

namespace Supervisor

/-! ## Who is asked -/

/-- Whom a supervisor has to ask in a round. -/
inductive Asks (members : List Member) : Delegation → (round : Nat) → List Member → Prop where
  | first (delegation : Delegation) : Asks members delegation 0 members
  | everyone (round : Nat) : Asks members .broadcast round members
  | turn {round : Nat} {m : Member} : 0 < round → members[round % members.length]? = some m →
      Asks members .roundRobin round [m]

theorem asks_targets {members : List Member} (hmembers : members ≠ []) (delegation : Delegation)
    (round : Nat) : Asks members delegation round (targets delegation members round) := by
  cases delegation with
  | broadcast => exact .everyone round
  | roundRobin =>
    cases round with
    | zero => exact .first .roundRobin
    | succ round =>
      have hlt : (round + 1) % members.length < members.length :=
        Nat.mod_lt _ (List.length_pos_of_ne_nil hmembers)
      have hm := List.getElem?_eq_getElem hlt
      rw [targets, hm]
      exact .turn (Nat.succ_pos round) hm

theorem targets_sublist (delegation : Delegation) (members : List Member) (round : Nat) :
    (targets delegation members round).Sublist members := by
  unfold targets
  split
  · cases h : members[_ % members.length]? with
    | none => exact List.nil_sublist _
    | some m => exact List.singleton_sublist.mpr (List.mem_of_getElem? h)
  · exact .refl _

/-- With one participant, or in the first round, both ways to delegate ask the same. -/
theorem targets_agree {members : List Member} {round : Nat}
    (h : members.length = 1 ∨ round = 0) (d d' : Delegation) :
    targets d members round = targets d' members round := by
  have hall : ∀ d, targets d members round = members := by
    intro d
    cases d with
    | broadcast => rfl
    | roundRobin =>
      cases round with
      | zero => rfl
      | succ round =>
        obtain ⟨m, rfl⟩ := List.length_eq_one_iff.mp (h.resolve_right (Nat.succ_ne_zero round))
        rw [targets, List.length_singleton, Nat.mod_one]
        rfl
  rw [hall d, hall d']

/-! ## What is made of the replies -/

/-- What is made of replies, each with who gave it. -/
structure Aggregates (how : Aggregation) (replies : List (String × Message)) (output : String) :
    Prop where
  concat : how = .concat → output = "\n".intercalate (replies.map (·.2.content))
  summarize : how = .summarize →
    output = "\n".intercalate (replies.map fun r => "[" ++ r.1 ++ "]: " ++ r.2.content)
  /-- The content that most replies have, of those that tie the one that was given first. -/
  vote : how = .vote → replies ≠ [] → ∃ before winner after, replies = before ++ winner :: after ∧
    Foremost (replies.map (·.2.content)) before.length winner.2.content ∧
    output = winner.2.content
  nothing : replies = [] → output = ""

theorem aggregates (how : Aggregation) (replies : List (String × Message)) :
    Aggregates how replies (aggregate how replies) where
  concat := by
    rintro rfl
    rw [aggregate, joinContents, List.map_map]
    rfl
  summarize := by
    rintro rfl
    rfl
  vote := by
    rintro rfl hne
    obtain ⟨before, winner, after, rfl, hplurality, hforemost⟩ :=
      exists_winner (fun r : String × Message => r.2.content) hne
    refine ⟨before, winner, after, rfl, hforemost, ?_⟩
    simp only [aggregate, hplurality]
    simp
  nothing := by
    rintro rfl
    cases how <;> rfl

/-! ## The run -/

/-- The rounds of a supervisor, which leave the replies. -/
def schedule (delegation : Delegation) (members : List Member) (input : String) :
    Schedule (List (String × Message)) where
  plan round _ := plan delegation members input round
  next replies new := replies ++ new

theorem rounds_eq (delegation : Delegation) (members : List Member) (deadline : Deadline)
    (input : String) (left round : Nat) (replies : List (String × Message)) :
    rounds delegation members deadline input left round replies =
      (schedule delegation members input).rounds deadline left round replies := by
  induction left generalizing round replies with
  | zero => rfl
  | succ left ih =>
    rw [rounds, Schedule.rounds]
    simp only [ih]
    rfl

theorem fits_schedule (delegation : Delegation) (members : List Member) (input : String) :
    (schedule delegation members input).Fits (members.map (·.id)) := by
  intro round _
  simp only [schedule, plan, List.map_map]
  exact (targets_sublist delegation members round).map (·.id)

/-- All replies are left, round by round. -/
theorem after_schedule (delegation : Delegation) (members : List Member) (input : String)
    (ids : List String) (earlier : List (String × Message)) (legs : List Leg) :
    (schedule delegation members input).after ids earlier legs =
      earlier ++ legs.flatMap fun l => replies ids l.calls := by
  induction legs generalizing earlier with
  | nil => exact (List.append_nil _).symm
  | cons l legs ih =>
    rw [List.flatMap_cons, ← List.append_assoc]
    exact ih _

theorem arrives_run {members : List Member} (deadline : Deadline) (options : SupervisorOptions)
    (maxRounds : Nat) (hunique : (members.map (·.id)).Nodup) (input : String) (c : Clock)
    (m : Memory) :
    (run options maxRounds members deadline input c
      (m, .initial (members.map (·.id)))).Arrives Untouched (Regime.history deadline).toGuarantee
      (fun _ s output => ∃ legs replies, Followed (members.map (·.id)) [] legs s.2 ∧
        (schedule options.delegation members input).Course (members.map (·.id)) deadline
          s.2.Forgone maxRounds 0 [] (instant c m) legs replies ∧
        s.2.asked = (schedule options.delegation members input).agenda (members.map (·.id)) 0 []
          legs ∧
        output = aggregate options.aggregation replies) c
      (m, .initial (members.map (·.id))) := by
  rw [run, rounds_eq]
  refine (Schedule.arrives_rounds (fits_schedule options.delegation members input) hunique maxRounds
    [] c (m, .initial (members.map (·.id))) (chronicle_initial _)).andThen ?_
  rintro c' s' replies ⟨legs, hfollowed, hcourse, hasked⟩
  exact ⟨List.prefix_refl s'.2.journal.toList, legs, replies, hfollowed, hcourse, hasked, rfl⟩

/-- Where all rounds ask the same, so do the runs. -/
theorem run_agree {members : List Member} {maxRounds : Nat}
    (h : members.length = 1 ∨ maxRounds ≤ 1) (d d' : Delegation) (how : Aggregation) :
    run ⟨d, how⟩ maxRounds members = run ⟨d', how⟩ maxRounds members := by
  funext deadline input
  have hrounds : rounds d members deadline input maxRounds 0 [] =
      rounds d' members deadline input maxRounds 0 [] := by
    rcases h with hsingle | hfew
    · -- a single participant is everyone in all rounds
      have hplan : schedule d members input = schedule d' members input := by
        simp only [schedule, plan, targets_agree (.inl hsingle) d d']
      rw [rounds_eq, rounds_eq, hplan]
    · rcases Nat.le_one_iff_eq_zero_or_eq_one.mp hfew with rfl | rfl
      · rfl
      · simp only [rounds, plan, targets_agree (.inr rfl) d d']
  rw [run, run, hrounds]

end Supervisor

namespace Orchestration

open Supervisor

variable {members : List Member} {options : Options} {o o' : Orchestration} {reader : Reader}

/-- A run of a supervisor, read to its end. -/
theorem supervisor_reading {p : SupervisorOptions} (h : build members options = .ok o)
    (hp : options.pattern = .supervisor p) (stamp : RunStamp) (hreader : reader.take = none)
    (input : String) (w : World) :
    ∃ result legs replies, (o.reading stamp reader input w).Ends result ∧
      Followed o.ids [] legs (o.reading stamp reader input w).last.state ∧
      (schedule p.delegation o.members input).Course o.ids (.after w.clock.now o.timeout)
        (o.reading stamp reader input w).last.state.Forgone options.maxRounds.toNat 0 []
        (instant w.clock w.memory) legs replies ∧
      (o.reading stamp reader input w).last.state.asked =
        (schedule p.delegation o.members input).agenda o.ids 0 [] legs ∧
      result.output = aggregate p.aggregation replies := by
  obtain ⟨ho, rfl⟩ := accepted_of_build h
  have hrun := arrives_run (.after w.clock.now o.timeout) p options.maxRounds.toNat ho.unique input
    w.clock w.memory
  have hstrategy : o.strategy = .supervisor p options.maxRounds.toNat :=
    strategy_eq_of_build h (by rw [Strategy.ofOptions, hp])
  obtain ⟨result, m, hends, legs, replies, hfollowed, hcourse, hasked, houtput⟩ :=
    reading_ends o stamp hreader input w (by rw [hstrategy]; exact hrun)
  exact ⟨result, legs, replies, hends, hfollowed, hcourse, hasked, houtput⟩

/-- **A supervisor aggregates in order.** Read to its end, a run of a supervisor shows its rounds.
In the first one, and in each one if the delegation is a broadcast, everyone is asked, in the order
of registration, and else the one whose turn it is; everyone who is called gets the input. A run
that never had to stop takes all its rounds and makes all these calls. The output is made of the
successful replies of all rounds, by the round and then in the order of registration, whenever they
came. With one participant or one round it makes no difference how the supervisor delegates. -/
theorem supervisor_aggregates {p : SupervisorOptions} (h : build members options = .ok o)
    (hp : options.pattern = .supervisor p) :
    (∀ (stamp : RunStamp) (reader : Reader), reader.take = none → ∀ (input : String) (w : World),
      ∃ result announced legs,
        (o.stream stamp reader input w).2 = announced ++ [.complete result] ∧
        (reader = {} → (o.execute stamp input w).2 = result) ∧
        result.rounds = legs.length ∧
        Shown announced result.messages (legs.map (·.calls)) ∧
        (∀ k, Asks members p.delegation k
          ((Supervisor.plan p.delegation members input k).map (·.member))) ∧
        Conducted (.after w.clock.now o.timeout) (members.map (·.id))
          (Supervisor.plan p.delegation members input) options.maxRounds.toNat
          (instant w.clock w.memory) []
          (o.reading stamp reader input w).last.state.journal.toList legs ∧
        (∀ l ∈ legs, ∀ c ∈ l.calls, c.dispatch.message.content = input) ∧
        Aggregates p.aggregation (legs.flatMap fun l => replies (members.map (·.id)) l.calls)
          result.output) ∧
    ∀ other : Delegation, ∃ o',
      build members { options with pattern := .supervisor { p with delegation := other } } =
        .ok o' ∧
      (members.length = 1 ∨ options.maxRounds.toNat ≤ 1 →
        o'.execute = o.execute ∧ o'.stream = o.stream) := by
  constructor
  · intro stamp reader hreader input w
    obtain ⟨result, legs, given, hends, hfollowed, hcourse, hasked, houtput⟩ :=
      supervisor_reading h hp stamp hreader input w
    have hmembers := nonempty_of_build h
    obtain ⟨ho, rfl⟩ := accepted_of_build h
    obtain ⟨hstream, hexecute, hrounds, hshown⟩ := shows_rounds hends hfollowed
    have hconducted := hcourse.conducted hfollowed (List.prefix_refl _)
      (reading_permitted ho stamp hends.concluded) (hasked.trans (List.append_nil _).symm)
    refine ⟨result, _, legs, hstream, hexecute, hrounds, hshown, fun k => ?_, hconducted, ?_, ?_⟩
    · rw [Supervisor.plan, List.map_map]
      exact (List.map_id' _).symm ▸ asks_targets hmembers p.delegation k
    · intro l hl c hc
      obtain ⟨k, hk⟩ := List.getElem?_of_mem hl
      obtain ⟨m, -, hdispatch⟩ := List.mem_map.mp (hconducted.called k l hk c hc)
      rw [← hdispatch]
      rfl
    · rw [houtput, hcourse.after_eq, after_schedule, List.nil_append]
      exact aggregates p.aggregation _
  · intro other
    obtain ⟨-, hmembers⟩ := accepted_of_build h
    have hstrategy : o.strategy = .supervisor p options.maxRounds.toNat :=
      strategy_eq_of_build h (by rw [Strategy.ofOptions, hp])
    have hfault : Options.fault?
        { options with pattern := .supervisor { p with delegation := other } }
          (members.map (·.id)) = options.fault? (members.map (·.id)) := by
      rw [Options.fault?, Options.fault?, Options.kind, Options.kind, hp]
      rfl
    refine ⟨_, build_alike h hfault rfl, fun hfew => runs_eq hmembers.symm
      (strategy_of_build h).2.symm (by rw [hstrategy]; rfl) fun deadline input => ?_⟩
    rw [hstrategy, hmembers]
    exact congrFun (congrFun (run_agree hfew other p.delegation p.aggregation) deadline) input

/-- A council that votes; one is quick to say no, one takes its time to say yes, and one is away. -/
def council (maxRounds : UInt64) : Except Error Orchestration :=
  ofParticipants
    [.simple ⟨"slow", "", ""⟩ fun _ m => { delay := 3, outcome := .ok { m with content := "yes" } },
      .simple ⟨"quick", "", ""⟩ fun _ m => { outcome := .ok { m with content := "no" } },
      .simple ⟨"away", "", ""⟩ fun _ _ => { outcome := .error "not here" }]
    { pattern := .supervisor ⟨.roundRobin, .vote⟩, maxRounds }

/-- In two rounds the votes of both count, and in a single one nobody is asked again. -/
theorem supervisor_aggregates_council :
    (∃ o, council 2 = .ok o ∧ ∃ result announced legs,
      (o.stream default { cancelAt := some 9 } "motion" .fresh).2 =
        announced ++ [.complete result] ∧
      Shown announced result.messages (legs.map (·.calls)) ∧
      Conducted (.after 0 o.timeout) o.ids (Supervisor.plan .roundRobin o.members "motion") 2
        ⟨0, false⟩ []
        (o.reading default { cancelAt := some 9 } "motion" .fresh).last.state.journal.toList legs ∧
      Aggregates .vote (legs.flatMap fun l => replies o.ids l.calls) result.output) ∧
    ∃ o, council 1 = .ok o ∧ ∃ o',
      build o.members { pattern := .supervisor ⟨.broadcast, .vote⟩, maxRounds := 1 } = .ok o' ∧
      o'.execute = o.execute ∧ o'.stream = o.stream := by
  constructor
  · obtain ⟨o, h⟩ : ∃ o, council 2 = .ok o := ⟨_, rfl⟩
    obtain ⟨hruns, -⟩ := supervisor_aggregates h rfl
    obtain ⟨result, announced, legs, hstream, -, -, hshown, -, hconducted, -, haggregates⟩ :=
      hruns default { cancelAt := some 9 } rfl "motion" .fresh
    rw [← (accepted_of_build h).2] at hconducted haggregates
    exact ⟨o, h, result, announced, legs, hstream, hshown, hconducted, haggregates⟩
  · obtain ⟨o, h⟩ : ∃ o, council 1 = .ok o := ⟨_, rfl⟩
    obtain ⟨-, hother⟩ := supervisor_aggregates h rfl
    obtain ⟨o', h', hsame⟩ := hother .broadcast
    rw [← (accepted_of_build h).2] at h'
    exact ⟨o, h, o', h', hsame (.inr (Nat.le_refl 1))⟩

end Orchestration

end Ensemble
