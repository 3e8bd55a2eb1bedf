import Ensemble.Orchestration
import Ensemble.Proofs.Run.Regime

/-!
# Runs that have to stop before they begin

A run that is cancelled or out of time at its start is over at once: the first round is refused, a
judge is passed over, and what is left is what a pattern makes of no replies at all.
`Strategy.run_stopped` says so for the five patterns, and `Orchestration.drive_stopped` what result
that leaves.
-/

namespace Ensemble

namespace Run

/-- Nothing has happened but that the journal was written into, and none of that is announced. -/
structure Quiet (s s' : Scene) : Prop where
  same : s' = (s.1, { s.2 with journal := s'.2.journal })
  journal : ∃ entries, s'.2.journal.toList = s.2.journal.toList ++ entries ∧
    ∀ e ∈ entries, e.occurrence.event? = none

theorem Quiet.refl (s : Scene) : Quiet s s :=
  ⟨rfl, [], (List.append_nil _).symm, by simp⟩

theorem Quiet.trans {s s' s'' : Scene} (h : Quiet s s') (h' : Quiet s' s'') : Quiet s s'' := by
  obtain ⟨hsame, entries, hjournal, hquiet⟩ := h
  obtain ⟨hsame', entries', hjournal', hquiet'⟩ := h'
  refine ⟨?_, entries ++ entries', ?_, ?_⟩
  · rw [hsame', hsame]
  · rw [hjournal', hjournal, List.append_assoc]
  · exact fun e he => (List.mem_append.mp he).elim (hquiet e) (hquiet' e)

theorem quiet_noted {o : Occurrence} (ho : o.event? = none) (c : Clock) (s : Scene) :
    Quiet s (noted o c s) := by
  refine ⟨rfl, [entry o c s], Array.toList_push, fun e he => ?_⟩
  rw [List.mem_singleton.mp he]
  exact ho

theorem Quiet.events {s s' : Scene} (h : Quiet s s') : s'.2.events = s.2.events := by
  obtain ⟨-, entries, hjournal, hquiet⟩ := h
  have hnone : entries.filterMap (·.occurrence.event?) = [] :=
    List.filterMap_eq_nil_iff.mpr hquiet
  rw [RunState.events, hjournal, List.filterMap_append, hnone, List.append_nil]
  rfl

variable {deadline : Deadline} {c : Clock} {s : Scene} {α β : Type}

/-- A run has to stop at the moment given. -/
def Stopped (deadline : Deadline) (c : Clock) (s : Scene) : Prop :=
  (s.1.cancelled || deadline.passed c.now) = true

theorem Quiet.stopped {s' : Scene} (h : Quiet s s') (hstop : Stopped deadline c s) :
    Stopped deadline c s' := by
  rw [h.same]
  exact hstop

/-- The routine is over at once with the value given, and nothing has happened. -/
def Halts (c : Clock) (s : Scene) (r : Routine Scene α) (a : α) : Prop :=
  ∃ s', Quiet s s' ∧ r c s = .done c s' a

theorem halts_pure (a : α) : Halts c s (pure a) a := ⟨s, .refl s, rfl⟩

theorem Halts.bind {r : Routine Scene α} {f : α → Routine Scene β} {a : α} {b : β}
    (h : Halts c s r a) (hf : ∀ s', Quiet s s' → Halts c s' (f a) b) : Halts c s (r >>= f) b := by
  obtain ⟨s', hquiet, hr⟩ := h
  obtain ⟨s'', hquiet', hfa⟩ := hf s' hquiet
  refine ⟨s'', hquiet.trans hquiet', ?_⟩
  rw [Routine.bind_apply, hr]
  exact hfa

theorem halts_note {o : Occurrence} (ho : o.event? = none) : Halts c s (note o) () :=
  ⟨noted o c s, quiet_noted ho c s, rfl⟩

theorem halts_stopping (hstop : Stopped deadline c s) : Halts c s (stopping deadline) true :=
  ⟨s, .refl s, congrArg (Progress.done c s) hstop⟩

/-- No round begins. -/
theorem halts_round (hstop : Stopped deadline c s) (round : Nat) {body : Routine Scene α} {a : α} :
    Halts c s (beginRound deadline round >>= fun begun => if begun then body else pure a) a := by
  have hrefused : Halts c s (beginRound deadline round) false :=
    (halts_stopping hstop).bind fun _ _ => (halts_note rfl).bind fun _ _ => halts_pure false
  exact hrefused.bind fun _ _ => halts_pure a

/-- No call is made. -/
theorem halts_call (hstop : Stopped deadline c s) (m : Member) (message : Message) :
    Halts c s (call deadline m message) .skipped := by
  have hskipped : Halts c s (invoke deadline m message) .skipped :=
    (halts_stopping hstop).bind fun _ _ => (halts_note rfl).bind fun _ _ =>
      halts_pure Outcome.skipped
  exact hskipped.bind fun s' _ => ⟨s', .refl s', rfl⟩

end Run

open Run

variable {deadline : Deadline} {c : Clock} {s : Scene}

theorem Supervisor.halts_rounds (hstop : Stopped deadline c s) (delegation : Delegation)
    (members : List Member) (input : String) (left round : Nat)
    (replies : List (String × Message)) :
    Halts c s (rounds delegation members deadline input left round replies) replies := by
  cases left with
  | zero => exact halts_pure replies
  | succ left => exact halts_round hstop round

theorem Supervisor.aggregate_nil (how : Aggregation) : aggregate how [] = "" := by
  cases how <;> rfl

theorem Swarm.halts_rounds (hstop : Stopped deadline c s)
    (converged : Option (List Message → Bool)) (members : List Member) (left round : Nat)
    (content : String) (last : List Message) :
    Halts c s (rounds converged members deadline left round content last) last := by
  cases left with
  | zero => exact halts_pure last
  | succ left => exact halts_round hstop round

theorem Pipeline.halts_steps (hstop : Stopped deadline c s) (o : PipelineOptions)
    (members : List Member) (step : Nat) (sender content : String) :
    Halts c s (steps o deadline members step sender content) content := by
  cases members with
  | nil => exact halts_pure content
  | cons m rest => exact halts_round hstop step

theorem Debate.halts_rounds (hstop : Stopped deadline c s) (arguing : List Member)
    (left round : Nat) (context : String) (last : List (String × Message)) :
    Halts c s (rounds arguing deadline left round context last) (context, last) := by
  cases left with
  | zero => exact halts_pure _
  | succ left => exact halts_round hstop round

/-- Whatever the voting, the verdict is what the debate was to be about. -/
theorem Debate.halts_run (hstop : Stopped deadline c s) (o : DebateOptions)
    (members : List Member) (input : String) : Halts c s (run o members deadline input) input := by
  refine (halts_rounds hstop _ _ _ input []).bind fun s' hquiet => ?_
  dsimp only
  cases o.voting with
  | majority => exact halts_pure input
  | unanimous => exact halts_pure input
  | judge =>
    cases judge? o members with
    | none => exact halts_pure input
    | some judge =>
      have hcall := halts_call (hquiet.stopped hstop) judge (verdictRequest input judge)
      exact hcall.bind fun _ _ => halts_pure input

namespace Strategy

/-- The output of a run without any replies. -/
def idleOutput (input : String) : Strategy → String
  | supervisor _ _ | swarm _ _ => ""
  | pipeline _ | debate _ => input
  | mapReduce job => (job.reduce []).content

/-- The transcript of a run without any calls. -/
def idleMessages : Strategy → List Message
  | mapReduce job => [(job.reduce []).withMetadata "phase" "reduce"]
  | _ => []

/-- The blackboard of a run without any replies. -/
def idleBlackboard (input : String) : Strategy → Metadata
  | swarm _ _ => Dict.empty.insertIfAbsent "input" (.str input)
  | _ => Dict.empty

/-- What a run without any calls leaves in its books, which were empty. -/
structure Idle (strategy : Strategy) (ids : List String) (input : String) (r : RunState) :
    Prop where
  messages : r.messages.toList = strategy.idleMessages
  results : r.results = .seeded ids
  rounds : r.rounds = 0
  blackboard : r.blackboard = strategy.idleBlackboard input
  events : r.events = []

/-- Books that were empty but for the blackboard, after a quiet run of a pattern that adds no
message of its own. -/
theorem idle_of_quiet {s : Strategy} {ids : List String} (input : String) {m : Memory}
    {scene : Scene} (hmessages : s.idleMessages = [])
    (h : Quiet (m, { RunState.initial ids with blackboard := s.idleBlackboard input }) scene) :
    scene.1 = m ∧ s.Idle ids input scene.2 := by
  have hevents := h.events
  rw [h.same] at hevents ⊢
  exact ⟨rfl, hmessages.symm, rfl, rfl, rfl, hevents⟩

/-- A run that has to stop at its start is over at once, without any calls. -/
theorem run_stopped (strategy : Strategy) (members : List Member) {ids : List String}
    (input : String) {m : Memory} (hstop : Stopped deadline c (m, .initial ids)) :
    ∃ r, strategy.run members deadline input c (m, .initial ids) =
        .done c (m, r) (strategy.idleOutput input) ∧ strategy.Idle ids input r := by
  cases strategy with
  | supervisor o maxRounds =>
    have hrun : Halts c (m, .initial ids) (Supervisor.run o maxRounds members deadline input) "" :=
      (Supervisor.halts_rounds hstop _ _ _ _ _ _).bind fun s' _ => by
        rw [Supervisor.aggregate_nil]
        exact halts_pure ""
    obtain ⟨⟨_, r⟩, hquiet, hdone⟩ := hrun
    obtain ⟨rfl, hidle⟩ := idle_of_quiet (s := .supervisor o maxRounds) input rfl hquiet
    exact ⟨r, hdone, hidle⟩
  | swarm o maxRounds =>
    -- the input is on the blackboard before the first round is refused
    let posted : Scene :=
      (m, { RunState.initial ids with blackboard := (swarm o maxRounds).idleBlackboard input })
    have hposted : Stopped deadline c posted := hstop
    have hrest : Halts c posted (Swarm.rounds o.converged members deadline maxRounds 0 input [] >>=
        fun last => pure (joinContents last)) (joinContents []) :=
      (Swarm.halts_rounds hposted _ _ _ _ _ _).bind fun _ _ => halts_pure _
    obtain ⟨⟨_, r⟩, hquiet, hdone⟩ := hrest
    obtain ⟨rfl, hidle⟩ := idle_of_quiet (s := .swarm o maxRounds) input rfl hquiet
    exact ⟨r, hdone, hidle⟩
  | pipeline o =>
    obtain ⟨⟨_, r⟩, hquiet, hdone⟩ := Pipeline.halts_steps hstop o members 0 orchestratorName input
    obtain ⟨rfl, hidle⟩ := idle_of_quiet (s := .pipeline o) input rfl hquiet
    exact ⟨r, hdone, hidle⟩
  | mapReduce job =>
    have hround : Halts c (m, .initial ids) (MapReduce.mapRound job members deadline input) [] :=
      halts_round hstop 0
    obtain ⟨⟨m', r⟩, hquiet, hdone⟩ := hround
    have hevents := hquiet.events
    obtain ⟨hmemory, hbooks⟩ := Prod.ext_iff.mp hquiet.same
    dsimp only at hmemory hbooks hevents
    -- the message of the reduction is all that is added to the books
    let reduced := (job.reduce []).withMetadata "phase" "reduce"
    refine ⟨{ r with messages := r.messages.push reduced }, ?_, ?_⟩
    · have hrun : MapReduce.run job members deadline input c (m, .initial ids) =
          (MapReduce.mapRound job members deadline input c (m, .initial ids)).andThen fun replies =>
            recordMessage ((job.reduce replies).withMetadata "phase" "reduce") >>= fun _ =>
              pure ((job.reduce replies).withMetadata "phase" "reduce").content := rfl
      rw [run, hrun, hdone, hmemory]
      rfl
    · rw [hbooks] at hevents ⊢
      exact ⟨rfl, rfl, rfl, rfl, hevents⟩
  | debate o =>
    obtain ⟨⟨_, r⟩, hquiet, hdone⟩ := Debate.halts_run hstop o members input
    obtain ⟨rfl, hidle⟩ := idle_of_quiet (s := .debate o) input rfl hquiet
    exact ⟨r, hdone, hidle⟩

end Strategy

end Ensemble
