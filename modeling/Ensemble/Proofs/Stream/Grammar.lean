import Ensemble.Participant.Basic
import Ensemble.Proofs.Stream.Reading
import Mathlib.Data.List.Chain

/-!
# The grammar of a stream

The events of a run that is read to its end are its rounds, one after the other and numbered from
zero, then the call of the judge where a debate has one, then the result. `CallEvents` says what
stands between the two ends of a round: nothing but the events of calls, each settled once and right
before its end. `stream_grammar` puts the two together for every accepted orchestration.
-/

namespace Ensemble

namespace Event

/-- The participant whose call begins. -/
def started? : Event → Option String
  | agentStart id => some id
  | _ => none

/-- The participant whose call settles, and its answer. -/
def settlement? : Event → Option (String × Except String Message)
  | message id m => some (id, .ok m)
  | error (some id) detail => some (id, .error detail)
  | _ => none

/-- The participant whose call settles. -/
def settled? (e : Event) : Option String := e.settlement?.map (·.1)

/-- Whether the event is about a call. -/
def ofCall : Event → Bool
  | agentStart _ | agentEnd _ | message _ _ | error (some _) _ => true
  | _ => false

/-- Whether the event begins a call of a participant. -/
def starts (id : String) (e : Event) : Bool := e.started? = some id

/-- Whether the event settles a call of a participant. -/
def settles (id : String) (e : Event) : Bool := e.settled? = some id

/-- The events of rounds with the bodies given. -/
def rounds (bodies : List (List Event)) : List Event :=
  bodies.zipIdx.flatMap fun b => roundStart b.2 :: (b.1 ++ [roundEnd b.2])

theorem rounds_concat (bodies : List (List Event)) (body : List Event) :
    rounds (bodies ++ [body]) =
      rounds bodies ++ roundStart bodies.length :: (body ++ [roundEnd bodies.length]) := by
  simp [rounds, List.zipIdx_append]

example : rounds [[agentStart "a"], []] =
    [roundStart 0, agentStart "a", roundEnd 0, roundStart 1, roundEnd 1] := rfl

/-- What settles a call of a participant is an event of a call, and neither begins nor ends one. -/
theorem of_settled? {e : Event} {id : String} (h : e.settled? = some id) :
    e.ofCall = true ∧ e.started? = none ∧ ∀ x, e ≠ agentEnd x := by
  cases e with
  | message x m => exact ⟨rfl, rfl, fun _ => by simp⟩
  | error x detail =>
    cases x with
    | none => cases h
    | some x => exact ⟨rfl, rfl, fun _ => by simp⟩
  | agentStart x => cases h
  | agentEnd x => cases h
  | roundStart n => cases h
  | roundEnd n => cases h
  | complete r => cases h

theorem countP_starts_begin (x id : String) :
    [agentStart id].countP (starts x) = if id == x then 1 else 0 := by
  simp [List.countP_cons, starts, started?]

theorem countP_settles_begin (x id : String) : [agentStart id].countP (settles x) = 0 := by
  simp [settles, settled?, settlement?]

theorem countP_starts_settle {e : Event} {id : String} (h : e.settled? = some id) (x : String) :
    [e, agentEnd id].countP (starts x) = 0 := by
  have hend : (agentEnd id).started? = none := rfl
  simp [starts, (of_settled? h).2.1, hend]

theorem countP_settles_settle {e : Event} {id : String} (h : e.settled? = some id) (x : String) :
    [e, agentEnd id].countP (settles x) = if id == x then 1 else 0 := by
  have hend : (agentEnd id).settled? = none := rfl
  simp [List.countP_cons, settles, h, hend]

end Event

/-- The events of calls that have begun and settled, except for those of the participants in
`pending`, which have only begun. -/
structure CallEvents (pending : List String) (events : List Event) : Prop where
  ofCall : ∀ e ∈ events, e.ofCall = true
  /-- What settles a call is followed by the end of the call at once, and nothing else is. -/
  adjacent : events.IsChain fun e e' => ∀ id, e.settled? = some id ↔ e' = .agentEnd id
  head : ∀ e ∈ events.head?, ∀ id, e ≠ .agentEnd id
  last : ∀ e ∈ events.getLast?, e.settled? = none
  /-- No participant has ever settled more calls than have begun. -/
  ahead : ∀ id, ∀ before, before <+: events →
    before.countP (Event.settles id) ≤ before.countP (Event.starts id)
  balance : ∀ id, events.countP (Event.starts id) =
    events.countP (Event.settles id) + pending.count id

namespace CallEvents

variable {pending : List String} {events : List Event}

theorem start : CallEvents [] [] where
  ofCall := by simp
  adjacent := .nil
  head := by simp
  last := by simp
  ahead id before h := by simp [List.prefix_nil.mp h]
  balance id := rfl

theorem head_append {tail : List Event} (h : CallEvents pending events)
    (htail : ∀ e ∈ tail.head?, ∀ id, e ≠ .agentEnd id) :
    ∀ e ∈ (events ++ tail).head?, ∀ id, e ≠ .agentEnd id := by
  cases events with
  | nil => exact htail
  | cons e events => exact h.head

theorem ahead_append {tail : List Event} (h : CallEvents pending events)
    (htail : ∀ id, tail.countP (Event.settles id) ≤ pending.count id) (id : String)
    (before : List Event) (hbefore : before <+: events ++ tail) :
    before.countP (Event.settles id) ≤ before.countP (Event.starts id) := by
  rcases List.prefix_or_prefix_of_prefix hbefore (List.prefix_append events tail) with
    hbefore | ⟨rest, rfl⟩
  · exact h.ahead id before hbefore
  · have hrest : rest <+: tail := (List.prefix_append_right_inj events).mp hbefore
    have hsettles := hrest.sublist.countP_le (p := Event.settles id)
    have hpending := htail id
    have hbalance := h.balance id
    rw [List.countP_append, List.countP_append]
    omega

/-- A call begins. -/
theorem begun (id : String) (h : CallEvents pending events) :
    CallEvents (id :: pending) (events ++ [.agentStart id]) where
  ofCall e he := by
    rcases List.mem_append.mp he with he | he
    · exact h.ofCall e he
    · rw [List.mem_singleton.mp he]; rfl
  adjacent := by
    refine h.adjacent.append (.singleton _) fun e he e' he' x => ?_
    obtain rfl := Option.mem_some.mp he'
    simp [h.last e he]
  head := h.head_append (by simp)
  last := by simp [Event.settled?, Event.settlement?]
  ahead := h.ahead_append fun x => by
    rw [Event.countP_settles_begin]
    exact Nat.zero_le _
  balance x := by
    have hbalance := h.balance x
    rw [List.countP_append, List.countP_append, Event.countP_settles_begin,
      Event.countP_starts_begin, List.count_cons]
    omega

/-- A call settles and ends. -/
theorem settled {e : Event} {id : String} (he : e.settled? = some id)
    (h : CallEvents (id :: pending) events) :
    CallEvents pending (events ++ [e, .agentEnd id]) where
  ofCall e' he' := by
    rcases List.mem_append.mp he' with he' | he'
    · exact h.ofCall e' he'
    · rcases List.mem_pair.mp he' with rfl | rfl
      · exact (Event.of_settled? he).1
      · rfl
  adjacent := by
    have hpair : [e, .agentEnd id].IsChain
        fun e e' => ∀ id, e.settled? = some id ↔ e' = .agentEnd id := by
      simp [he]
    refine h.adjacent.append hpair fun e' he' e'' he'' x => ?_
    obtain rfl := Option.mem_some.mp he''
    simp [h.last e' he', (Event.of_settled? he).2.2 x]
  head := h.head_append fun e' he' => by
    obtain rfl := Option.mem_some.mp he'
    exact (Event.of_settled? he).2.2
  last := by simp [Event.settled?, Event.settlement?]
  ahead := h.ahead_append fun x => by
    rw [Event.countP_settles_settle he, List.count_cons]
    omega
  balance x := by
    have hbalance := h.balance x
    rw [List.count_cons] at hbalance
    rw [List.countP_append, List.countP_append, Event.countP_starts_settle he,
      Event.countP_settles_settle he]
    omega

theorem perm {pending' : List String} (hp : pending.Perm pending')
    (h : CallEvents pending events) : CallEvents pending' events where
  ofCall := h.ofCall
  adjacent := h.adjacent
  head := h.head
  last := h.last
  ahead := h.ahead
  balance x := by rw [h.balance x, hp.count_eq]

end CallEvents

/-! ## Events of journals -/

/-- How the settlement of a call is announced. -/
theorem Call.event?_settlement (c : Call) :
    ∃ e, c.settlement.event? = some e ∧ e.settlement? = some (c.id, c.answer) := by
  obtain ⟨d, answer⟩ := c
  cases answer with
  | ok m => exact ⟨_, rfl, rfl⟩
  | error detail => exact ⟨_, rfl, rfl⟩

theorem Event.settled?_of_settlement? {e : Event} {id : String} {answer : Except String Message}
    (h : e.settlement? = some (id, answer)) : e.settled? = some id := by
  rw [settled?, h]
  rfl

theorem CallLog.callEvents {pending : List Dispatch} {calls : List Call} {log : List Occurrence}
    (h : CallLog pending calls log) :
    CallEvents (pending.map (·.member.id)) (log.filterMap (·.event?)) := by
  induction h with
  | start => exact .start
  | begun d _ ih =>
    rw [List.filterMap_append]
    exact ih.begun d.member.id
  | skipped d _ ih =>
    rw [List.filterMap_append]
    exact (List.append_nil _).symm ▸ ih
  | settled c _ ih =>
    obtain ⟨e, he, hsettlement⟩ := c.event?_settlement
    rw [List.filterMap_append, List.filterMap_cons, he]
    exact ih.settled (Event.settled?_of_settlement? hsettlement)
  | perm hp _ ih => exact ih.perm (hp.map _)

/-- One more round is announced. -/
theorem Event.rounds_of_log {log body : List Occurrence} {bodies : List (List Event)}
    (h : log.filterMap (·.event?) = rounds bodies) :
    (log ++ Occurrence.roundBegun bodies.length :: (body ++ [.roundEnded bodies.length])).filterMap
      (·.event?) = rounds (bodies ++ [body.filterMap (·.event?)]) := by
  rw [rounds_concat, List.filterMap_append, h]
  refine congrArg (rounds bodies ++ ·) (congrArg (roundStart bodies.length :: ·) ?_)
  rw [List.filterMap_append]
  rfl

theorem RoundLog.events {rounds : Nat} {calls : List Call} {log : List Occurrence}
    (h : RoundLog rounds calls log) :
    ∃ bodies, log.filterMap (·.event?) = Event.rounds bodies ∧ bodies.length = rounds ∧
      ∀ body ∈ bodies, CallEvents [] body := by
  induction h with
  | start => exact ⟨[], rfl, rfl, by simp⟩
  | refused n _ ih =>
    obtain ⟨bodies, hevents, hrest⟩ := ih
    refine ⟨bodies, ?_, hrest⟩
    rw [List.filterMap_append, hevents]
    exact List.append_nil _
  | @round rounds _ _ _ body _ hbody ih =>
    obtain ⟨bodies, hevents, hlength, hbodies⟩ := ih
    refine ⟨bodies ++ [body.filterMap (·.event?)], ?_, ?_, ?_⟩
    · rw [← hlength]
      exact Event.rounds_of_log hevents
    · rw [List.length_append, hlength]
      rfl
    · intro b hb
      rcases List.mem_append.mp hb with hb | hb
      · exact hbodies b hb
      · rw [List.mem_singleton.mp hb]
        exact hbody.callEvents

theorem VerdictLog.events {s : Strategy} {calls : List Call} {log : List Occurrence}
    (h : VerdictLog s calls log) :
    log.filterMap (·.event?) = [] ∨ ∃ judge settlement, s.judge? = some judge ∧
      settlement.settled? = some judge ∧
      log.filterMap (·.event?) = [.agentStart judge, settlement, .agentEnd judge] := by
  cases h with
  | none => exact .inl rfl
  | @sought d _ _ hjudge hsingle =>
    cases hsingle with
    | skipped => exact .inl rfl
    | made answer =>
      obtain ⟨e, he, hsettlement⟩ := (Call.mk d answer).event?_settlement
      refine .inr ⟨d.member.id, e, hjudge, Event.settled?_of_settlement? hsettlement, ?_⟩
      rw [List.filterMap_cons, List.filterMap_cons, he]
      rfl

/-- **The grammar of a stream.** Whoever reads a run to its end receives its rounds, numbered from
zero and as many as the result counts, each with nothing but complete calls inside, then nothing or
one call of the judge, and then the result. -/
theorem Orchestration.stream_grammar {members : List Member} {options : Options}
    {o : Orchestration} (h : build members options = .ok o) (stamp : RunStamp) {reader : Reader}
    (hreader : reader.take = none) (input : String) (w : World) :
    ∃ result bodies verdict,
      (o.stream stamp reader input w).2 =
        Event.rounds bodies ++ verdict ++ [.complete result] ∧
      bodies.length = result.rounds ∧
      (∀ body ∈ bodies, CallEvents [] body) ∧
      (verdict = [] ∨ ∃ judge settlement, o.strategy.judge? = some judge ∧
        settlement.settled? = some judge ∧
        verdict = [.agentStart judge, settlement, .agentEnd judge]) := by
  obtain ⟨result, m, -, hevents, hfinished⟩ :=
    reading_to_end (accepted_of_build h).1 stamp hreader input w
  obtain ⟨ledger⟩ := hfinished.ledger
  obtain ⟨bodies, hrounds, hlength, hbodies⟩ := ledger.inRounds.events
  refine ⟨result, bodies, ledger.verdictLog.filterMap (·.event?), ?_, ?_, hbodies,
    ledger.behind.events⟩
  · rw [stream_eq_reading, hevents, ← hrounds, ← List.filterMap_append, ← ledger.occurrences,
      RunState.occurrences, List.filterMap_map]
    rfl
  · rw [hlength, hfinished.rounds]

/-- A debate of two before a judge; one of them has nothing to say, and the judge takes its time. -/
def Orchestration.hearing : Except Error Orchestration :=
  ofParticipants
    [.simple ⟨"pro", "", ""⟩ fun _ m => { delay := 2, outcome := .ok m },
      .simple ⟨"con", "", ""⟩ fun _ _ => { outcome := .error "nothing to say" },
      .simple ⟨"judge", "", ""⟩ fun _ m => { delay := 7, outcome := .ok { m with sender := "pro" } }]
    { pattern := .debate { rounds := 2, judge := some "judge" } }

theorem Orchestration.stream_grammar_hearing :
    ∃ o, hearing = .ok o ∧ ∃ result bodies verdict,
      (o.stream default { cancelAt := some 9 } "motion" .fresh).2 =
        Event.rounds bodies ++ verdict ++ [.complete result] ∧
      bodies.length = result.rounds ∧
      (∀ body ∈ bodies, CallEvents [] body) ∧
      (verdict = [] ∨ ∃ judge settlement, o.strategy.judge? = some judge ∧
        settlement.settled? = some judge ∧
        verdict = [.agentStart judge, settlement, .agentEnd judge]) := by
  obtain ⟨o, h⟩ : ∃ o, hearing = .ok o := ⟨_, rfl⟩
  exact ⟨o, h, stream_grammar h default rfl "motion" .fresh⟩

end Ensemble
