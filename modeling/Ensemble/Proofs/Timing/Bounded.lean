import Ensemble.Proofs.Run.Foresight
import Ensemble.Proofs.Stream.Observation
import Ensemble.Proofs.Stream.Straight

/-!
# So many pieces at a time

A map-reduce run with a limit works on so many pieces at a time and takes the replies as they come;
without a limit it works on all of them at once and puts the replies in the order of the pieces. If
all participants answer by number and message and nothing stops the runs, both hand the same calls
on to the reduction, up to their order, and even in one order if there is room for one piece only;
if there is room for all of them the runs are the same up to the reduction, whatever the
participants and the reader do. `bounded_agrees` says all three.
-/

namespace Ensemble

open Run

namespace MapReduce

/-! ## What is handed on to the reduction -/

/-- The calls for the pieces: in their order without a limit, else in the order in which they were
done. -/
def mapCalls (deadline : Deadline) (concurrency : Option Nat) (plan : List Dispatch) :
    Routine Scene (List Settled) :=
  match concurrency with
  | some limit => dispatchBounded deadline limit plan
  | none => dispatchRound deadline plan

/-- The calls of the one round; none if it is refused. -/
def roundCalls (members : List Member) (deadline : Deadline) (concurrency : Option Nat)
    (pieces : List String) : Routine Scene (List Settled) := do
  if ← beginRound deadline 0 then
    let calls ← mapCalls deadline concurrency (plan members pieces)
    endRound 0
    return calls
  else
    return []

/-- The successful replies of calls. -/
def replies (calls : List Settled) : List Message := calls.filterMap (·.outcome.response?)

/-- The message that calls are reduced to. -/
def reduction (reduce : List Message → Message) (calls : List Settled) : Message :=
  (reduce (replies calls)).withMetadata "phase" "reduce"

/-- A run makes the calls of its round, and records and returns what they are reduced to. -/
theorem run_eq (job : Job) (members : List Member) (deadline : Deadline) (input : String) :
    run job members deadline input =
      roundCalls members deadline job.concurrency (job.split input) >>= fun calls =>
        recordMessage (reduction job.reduce calls) >>= fun _ =>
          pure (reduction job.reduce calls).content := by
  have hpieces : mapPieces deadline job.concurrency (plan members (job.split input)) =
      mapCalls deadline job.concurrency (plan members (job.split input)) >>= fun calls =>
        pure (replies calls) := by
    unfold mapPieces mapCalls
    cases job.concurrency <;> rfl
  have hround : mapRound job members deadline input =
      roundCalls members deadline job.concurrency (job.split input) >>= fun calls =>
        pure (replies calls) := by
    unfold mapRound roundCalls
    rw [hpieces]
    simp only [bind_assoc]
    refine congrArg (beginRound deadline 0 >>= ·) (funext fun begun => ?_)
    cases begun with
    | true => simp only [if_true, bind_assoc, pure_bind]
    | false => rfl
  unfold run
  rw [hround]
  simp only [bind_assoc, pure_bind]
  rfl

/-- The calls that a run left to itself hands on to the reduction. What is made of them has no part
in it. -/
def handed (members : List Member) (timeout : Option Duration) (concurrency : Option Nat)
    (pieces : List String) (w : World) : List Settled × Moment Scene :=
  (roundCalls members (.after w.clock.now timeout) concurrency pieces).runFrom
    (w.clock, w.memory, .initial (members.map (·.id)))

variable {deadline : Deadline}

/-! ## The same calls -/

/-- With room for one, calls are done in the order in which they stand in line. -/
theorem positions_single (line : List (Dispatch × Nat)) (settled : List Settled)
    (x : Moment Scene) :
    ((Routine.runFrom (Routine.Pool.run settle (.refill [] []
      (line.map fun q => perform deadline q.1 q.2)) settled) x).1.map (·.position)) =
      settled.reverse.map (·.position) ++ line.map (·.2) := by
  induction line generalizing settled x with
  | nil =>
    rw [List.map_nil, Routine.Pool.refill, Routine.Pool.runFrom_over, List.map_nil, List.append_nil]
  | cons q line ih =>
    have hposition : ∀ x : Moment Scene,
        ((perform deadline q.1 q.2).runFrom x).1.position = q.2 := by
      intro x
      rw [perform, Routine.runFrom_bind, Routine.runFrom_pure]
    rw [List.map_cons, Routine.Pool.refill, List.nil_append, Routine.Pool.runFrom_single, ih,
      List.reverse_cons, List.map_append, List.map_singleton, hposition, List.append_assoc]
    rfl

theorem positions_dispatchBounded (plan : List Dispatch) (x : Moment Scene) :
    ((dispatchBounded deadline 1 plan).runFrom x).1.map (·.position) = List.range plan.length := by
  have hpool : dispatchBounded deadline 1 plan =
      Routine.Pool.run settle (.refill [] [] (tasks deadline plan)) [] := by
    unfold dispatchBounded Routine.bounded
    cases tasks deadline plan <;> rfl
  rw [hpool, tasks, positions_single, List.zipIdx_map_snd, List.range_eq_range']
  rfl

/-- **The calls of a round that goes through** are those foreseen: in the order of the pieces
without a limit or with room for one, and in some order with any limit. -/
theorem roundCalls_worked {members : List Member} {pieces : List String} {parts : List Part}
    (hparts : parts.map (·.dispatch) = plan members pieces) {concurrency : Option Nat}
    (hlimit : concurrency ≠ some 0) (x : Moment Scene) {y : List Settled × Moment Scene}
    (hy : (roundCalls members deadline concurrency pieces).runFrom x = y)
    (hnot : ¬y.2.2.2.Forgone) :
    y.1.Perm ((foresee x.2.1.tally parts.zipIdx).map (·.settled)) ∧
      (concurrency = none ∨ concurrency = some 1 →
        y.1 = (foresee x.2.1.tally parts.zipIdx).map (·.settled)) := by
  subst hy
  rw [roundCalls, Routine.runFrom_bind] at hnot ⊢
  generalize hbegin : (beginRound deadline 0).runFrom x = b at hnot ⊢
  obtain ⟨begun, x'⟩ := b
  rcases begun_round 0 x hbegin with ⟨rfl, hforgone⟩ | ⟨rfl, hmemory, -⟩
  · exact absurd hforgone hnot
  · simp only [if_true, Routine.runFrom_bind, Routine.runFrom_pure] at hnot ⊢
    generalize hcalls : (mapCalls deadline concurrency (plan members pieces)).runFrom x' = z
      at hnot ⊢
    have hnot' : ¬z.2.2.2.Forgone := fun hforgone =>
      hnot (hforgone.gains (gains_noted (o := .roundEnded 0) rfl z.2.1 z.2.2))
    dsimp only at hmemory
    rw [← hparts] at hcalls
    rw [← hmemory]
    cases concurrency with
    | none =>
      have hworked := (worked_dispatchRound parts x' hcalls).resolve_left hnot'
      exact ⟨hworked.1 ▸ .refl _, fun _ => hworked.1⟩
    | some limit =>
      have hpos : 0 < limit := Nat.pos_of_ne_zero fun hzero => hlimit (congrArg some hzero)
      obtain ⟨done, hdone, hworked⟩ :=
        (worked_dispatchBounded parts hpos x' hcalls).resolve_left hnot'
      have hperm : z.1.Perm ((foresee x'.2.1.tally parts.zipIdx).map (·.settled)) := by
        rw [hdone]
        exact hworked.perm.map _
      refine ⟨hperm, fun hsome => ?_⟩
      obtain rfl : limit = 1 := Option.some_inj.mp (hsome.resolve_left (by simp))
      -- calls in the order of their positions are not moved by sorting
      have hpositions : z.1.map (·.position) = List.range parts.length := by
        rw [← hcalls]
        exact (positions_dispatchBounded _ x').trans (by rw [List.length_map])
      have hordered : z.1.Pairwise fun a b => a.position < b.position := by
        have hlt := List.pairwise_lt_range (n := parts.length)
        rw [← hpositions, List.pairwise_map] at hlt
        exact hlt
      exact (inOrder_eq (.refl _) hordered).symm.trans (inOrder_eq hperm (ordered_foresee _ parts))

/-! ## The same run -/

/-- With room for all pieces their calls are those of a run without a limit, in another order. -/
theorem roundCalls_none {members : List Member} {pieces : List String} {limit : Nat}
    (hroom : pieces.length ≤ limit) :
    roundCalls members deadline none pieces =
      roundCalls members deadline (some limit) pieces >>= fun calls => pure (inOrder calls) := by
  have hlength : (tasks deadline (plan members pieces)).length ≤ limit := by
    rw [tasks, List.length_map, List.length_zipIdx]
    refine Nat.le_trans (List.length_filterMap_le _ _) ?_
    rwa [List.length_zipIdx]
  have hbounded : dispatchBounded deadline limit (plan members pieces) =
      Routine.together settle (tasks deadline (plan members pieces)) := by
    unfold dispatchBounded Routine.bounded Routine.together
    rw [List.take_of_length_le hlength, List.drop_eq_nil_of_le hlength]
  have hnone : inOrder [] = [] := List.mergeSort_nil
  unfold roundCalls mapCalls
  rw [bind_assoc]
  refine congrArg (beginRound deadline 0 >>= ·) (funext fun begun => ?_)
  cases begun with
  | true => simp only [if_true, hbounded, dispatchRound, bind_assoc, pure_bind]
  | false => simp only [Bool.false_eq_true, if_false, pure_bind, hnone]

end MapReduce

open MapReduce (handed plan reduction roundCalls)

/-- Only the number of events counts for what a reader does. -/
theorem Reader.react_congr (reader : Reader) (received : Nat) {events events' : List Event}
    (h : events.length = events'.length) (m : Memory) :
    reader.react received events m = reader.react received events' m := by
  simp only [react, h]

namespace RunResult

/-- The run was neither cancelled nor out of time. -/
def Unstopped (r : RunResult) : Prop := r.cancelled = false ∧ r.timedOut = false

/-- Output and transcript are made of the reduction of the calls. -/
structure Reduces (r : RunResult) (reduce : List Message → Message) (calls : List Settled) :
    Prop where
  output : r.output = (reduction reduce calls).content
  last : r.messages.getLast? = some (reduction reduce calls)

/-- A result that had no output yet, with a message that closes the transcript. -/
def closed (r : RunResult) (m : Message) : RunResult :=
  { r with output := m.content, messages := r.messages ++ [m] }

end RunResult

namespace Orchestration

/-- Whatever the last step of a run makes of its books, who reads to the end receives the same
events before the result, and leaves the same world. -/
theorem readOn_closing {α : Type} (cancelAt : Option Nat) (p : Progress Scene α)
    (journal received : Nat) :
    ∃ world announced a c s, ∀ (tail : α → Routine Scene RunResult) (r : RunState)
      (result : RunResult), tail a c s = .done c (s.1, r) result → r.journal = s.2.journal →
      readOn ⟨cancelAt, none⟩ (p.andThen tail) journal received =
        (world, announced ++ [.complete result]) := by
  let reader : Reader := ⟨cancelAt, none⟩
  induction p generalizing journal received with
  | done c s a =>
    -- which event comes last makes no difference to the reader
    let events := s.2.eventsFrom journal
    refine ⟨⟨c, reader.react received (events ++ [.roundEnd 0]) s.1⟩, events, a, c, s, ?_⟩
    intro tail r result htail hjournal
    have hevents : r.eventsFrom journal = events := by
      rw [RunState.eventsFrom, hjournal]
      rfl
    have hlength : (events ++ [Event.complete result]).length =
        (events ++ [Event.roundEnd 0]).length := by
      simp only [List.length_append, List.length_singleton]
    rw [Progress.andThen, htail, readOn, hevents, receive_all]
    rw [Reader.react_congr reader received hlength]
  | waiting w c s k ih =>
    obtain ⟨m, r₀⟩ := s
    let events := r₀.eventsFrom journal
    obtain ⟨world, announced, a, c', s', h⟩ := ih (c.advance w.due)
      (reader.react received events m, r₀) r₀.journal.size (received + events.length)
    refine ⟨world, events ++ announced, a, c', s', ?_⟩
    intro tail r result htail hjournal
    have hrest := h tail r result htail hjournal
    simp only [Progress.andThen, readOn, receive_all, satisfied_all, Bool.false_eq_true, if_false]
    rw [hrest, List.append_assoc]

/-- Options of a map-reduce run. -/
def mapping (split : String → List String) (reduce : List Message → Message) (maxRounds : UInt64)
    (timeout : Option Duration) (concurrency : Option UInt64) : Options :=
  { pattern := .mapReduce { split := some split, reduce := some reduce, concurrency }
    maxRounds
    timeout }

variable {team : List Participant} {split : String → List String}
  {reduce : List Message → Message} {maxRounds : UInt64} {timeout : Option Duration}
  {concurrency : Option UInt64} {o : Orchestration}

theorem of_mapping
    (h : ofParticipants team (mapping split reduce maxRounds timeout concurrency) = .ok o) :
    o = ⟨Participant.members 0 team, .mapReduce ⟨split, reduce, concurrency.map (·.toNat)⟩,
      timeout⟩ := by
  obtain ⟨-, hmembers⟩ := accepted_of_build h
  obtain ⟨hstrategy, htimeout⟩ := strategy_of_build h
  obtain ⟨members, strategy, t⟩ := o
  have hstrategy' : Strategy.mapReduce ⟨split, reduce, concurrency.map (·.toNat)⟩ = strategy :=
    Except.ok.inj hstrategy
  dsimp only at hmembers htimeout
  rw [hmembers, htimeout, ← hstrategy']
  rfl

variable {job : MapReduce.Job} {members : List Member}

/-- The result of a map-reduce run but for the reduction, if its calls were over at a moment. -/
def unreduced (o : Orchestration) (stamp : RunStamp) (started : Nat) (x : Moment Scene) :
    RunResult :=
  o.report stamp started ("", x)

theorem report_reduced (o : Orchestration) (stamp : RunStamp) (started : Nat) (x : Moment Scene)
    (m : Message) :
    o.report stamp started
        (m.content, x.1, x.2.1, { x.2.2 with messages := x.2.2.messages.push m }) =
      (o.unreduced stamp started x).closed m := by
  have hmessages : (x.2.2.messages.push m).toList = x.2.2.messages.toList ++ [m] :=
    Array.toList_push
  simp only [report, unreduced, RunResult.closed, conclude, Routine.runFrom, Progress.finish,
    hmessages]

/-- A map-reduce run is the calls of its round and then a last step. -/
theorem drive_reduced (members : List Member) (job : MapReduce.Job) (timeout : Option Duration)
    (stamp : RunStamp) (input : String) (w : World) :
    ∃ tail : List Settled → Routine Scene RunResult,
      (Orchestration.mk members (.mapReduce job) timeout).drive stamp input w.clock
          (w.memory, .initial (members.map (·.id))) =
        (roundCalls members (.after w.clock.now timeout) job.concurrency (job.split input) w.clock
          (w.memory, .initial (members.map (·.id)))).andThen tail ∧
      ∀ calls c s, tail calls c s =
        .done c (s.1, { s.2 with messages := s.2.messages.push (reduction job.reduce calls) })
          (((Orchestration.mk members (.mapReduce job) timeout).unreduced stamp w.clock.now
            (c, s)).closed (reduction job.reduce calls)) := by
  let o : Orchestration := ⟨members, .mapReduce job, timeout⟩
  let deadline := Deadline.after w.clock.now timeout
  let last : List Settled → Routine Scene RunResult := fun calls =>
    (recordMessage (reduction job.reduce calls) >>= fun _ =>
      pure (reduction job.reduce calls).content) >>= o.conclude stamp deadline w.clock.now
  have hdrive : o.drive stamp input w.clock (w.memory, .initial o.ids) =
      (MapReduce.run job members deadline input >>= o.conclude stamp deadline w.clock.now)
        w.clock (w.memory, .initial o.ids) := by
    simp only [drive, Routine.bind_apply, Routine.clock, Progress.andThen]
    rfl
  refine ⟨last, ?_, fun calls c s => ?_⟩
  · rw [MapReduce.run_eq, bind_assoc] at hdrive
    exact hdrive
  · have hlast : last calls c s =
        .done c (s.1, { s.2 with messages := s.2.messages.push (reduction job.reduce calls) })
          (o.report stamp w.clock.now ((reduction job.reduce calls).content, c, s.1,
            { s.2 with messages := s.2.messages.push (reduction job.reduce calls) })) := rfl
    rw [hlast]
    exact congrArg (Progress.done c _) (o.report_reduced stamp w.clock.now (c, s) _)

theorem ending_reduced (input : String) (w : World) :
    (Orchestration.mk members (.mapReduce job) timeout).ending input w =
      let y := handed members timeout job.concurrency (job.split input) w
      ((reduction job.reduce y.1).content, y.2.1, y.2.2.1,
        { y.2.2.2 with messages := y.2.2.2.messages.push (reduction job.reduce y.1) }) := by
  have hrun : (Orchestration.mk members (.mapReduce job) timeout).ending input w =
      (MapReduce.run job members (.after w.clock.now timeout) input).runFrom
        (w.clock, w.memory, .initial (members.map (·.id))) := rfl
  rw [hrun, MapReduce.run_eq, Routine.runFrom_bind]
  rfl

theorem execute_reduced (stamp : RunStamp) (input : String) (w : World) :
    ((Orchestration.mk members (.mapReduce job) timeout).execute stamp input w).2.Reduces job.reduce
      (handed members timeout job.concurrency (job.split input) w).1 := by
  let o : Orchestration := ⟨members, .mapReduce job, timeout⟩
  let y := handed members timeout job.concurrency (job.split input) w
  have hexecute : (o.execute stamp input w).2 =
      (o.unreduced stamp w.clock.now y.2).closed (reduction job.reduce y.1) := by
    rw [execute_eq, ending_reduced]
    exact o.report_reduced stamp w.clock.now y.2 _
  exact ⟨congrArg RunResult.output hexecute,
    (congrArg (·.messages.getLast?) hexecute).trans List.getLast?_concat⟩

/-- With room for all pieces a run is the one without a limit up to its last step. -/
theorem streams_reduced {input : String} {limit : Nat} (hroom : (split input).length ≤ limit)
    (stamp : RunStamp) (w : World) (cancelAt : Option Nat) :
    ∃ (world : World) (announced : List Event) (result : RunResult) (calls calls' : List Settled),
      calls.Perm calls' ∧
      (Orchestration.mk members (.mapReduce ⟨split, reduce, some limit⟩) timeout).stream stamp
          ⟨cancelAt, none⟩ input w =
        (world, announced ++ [.complete (result.closed (reduction reduce calls))]) ∧
      (Orchestration.mk members (.mapReduce ⟨split, reduce, none⟩) timeout).stream stamp
          ⟨cancelAt, none⟩ input w =
        (world, announced ++ [.complete (result.closed (reduction reduce calls'))]) := by
  let o : Orchestration := ⟨members, .mapReduce ⟨split, reduce, none⟩, timeout⟩
  let start : Scene := (w.memory, .initial (members.map (·.id)))
  let deadline := Deadline.after w.clock.now timeout
  let round := roundCalls members deadline (some limit) (split input) w.clock start
  obtain ⟨tail, hdrive, htail⟩ :=
    drive_reduced members ⟨split, reduce, some limit⟩ timeout stamp input w
  obtain ⟨tail', hdrive', htail'⟩ :=
    drive_reduced members ⟨split, reduce, none⟩ timeout stamp input w
  have hround : roundCalls members deadline none (split input) w.clock start =
      round.andThen fun calls => pure (inOrder calls) := by
    rw [MapReduce.roundCalls_none hroom]
    rfl
  have hsorted : (round.andThen fun calls => pure (inOrder calls)).andThen tail' =
      round.andThen fun calls => tail' (inOrder calls) := Progress.andThen_andThen round _ _
  obtain ⟨world, announced, calls, c, s, hread⟩ := readOn_closing cancelAt round 0 0
  have hcalls : calls.Perm (inOrder calls) := (List.mergeSort_perm calls _).symm
  refine ⟨world, announced, o.unreduced stamp w.clock.now (c, s), calls, inOrder calls, hcalls,
    ?_, ?_⟩
  · have hstream := hread tail _ _ (htail calls c s) rfl
    rw [stream, satisfied_all, if_neg Bool.false_ne_true, ids, hdrive]
    exact hstream
  · have hstream := hread (fun calls => tail' (inOrder calls)) _ _ (htail' (inOrder calls) c s) rfl
    rw [stream, satisfied_all, if_neg Bool.false_ne_true, ids, hdrive', hround, hsorted]
    exact hstream

/-- A run that was not stopped has handed on all its calls. -/
theorem not_forgone_handed
    (ho : (Orchestration.mk (Participant.members 0 team) (.mapReduce job) timeout).Accepted)
    {stamp : RunStamp} {input : String} {w : World}
    (hgo : ((Orchestration.mk (Participant.members 0 team) (.mapReduce job) timeout).execute stamp
      input w).2.Unstopped) :
    ¬(handed (Participant.members 0 team) timeout job.concurrency (job.split input)
      w).2.2.2.Forgone := by
  have hnot := not_forgone ho (Participant.members_forward 0 team) hgo
  rwa [ending_reduced] at hnot

/-- A plan for participants that answer by number and message. -/
theorem exists_parts_plan (hanswers : ∀ p ∈ team, ∃ f, p.AnswersBy f) (pieces : List String) :
    ∃ parts : List Part, parts.map (·.dispatch) = plan (Participant.members 0 team) pieces := by
  refine exists_parts fun d hd => ?_
  obtain ⟨p, hp, i, hmember⟩ :=
    Participant.of_mem_members (MapReduce.plan_for _ pieces d hd).1
  obtain ⟨f, hf⟩ := hanswers p hp
  exact ⟨i, f, hmember ▸ hf.plays i⟩

/-- **Runs with a limit and without one agree.** Both reduce the calls that they hand on. If neither
run was stopped and all participants answer by number and message, these are the same up to their
order, each piece with the same participant, message and outcome; without a limit they stand in the
order of the pieces, and with a limit of one they do so too. If there is room for all pieces the
runs are the same up to the reduction, events and transcript included, whatever the participants do
and even if they or the reader cancel: they differ at most in the order in which the calls are
handed on. -/
theorem bounded_agrees {limit : UInt64} {o₁ o₂ : Orchestration}
    (h₁ : ofParticipants team (mapping split reduce maxRounds timeout (some limit)) = .ok o₁)
    (h₂ : ofParticipants team (mapping split reduce maxRounds timeout none) = .ok o₂)
    (stamp : RunStamp) (input : String) (w : World) :
    let members := Participant.members 0 team
    let calls₁ := (handed members timeout (some limit.toNat) (split input) w).1
    let calls₂ := (handed members timeout none (split input) w).1
    let r₁ := (o₁.execute stamp input w).2
    let r₂ := (o₂.execute stamp input w).2
    r₁.Reduces reduce calls₁ ∧ r₂.Reduces reduce calls₂ ∧
    (r₁.Unstopped → r₂.Unstopped → (∀ p ∈ team, ∃ f, p.AnswersBy f) →
      calls₁.Perm calls₂ ∧ calls₂.map (·.dispatch) = plan members (split input) ∧
      calls₂.map (·.position) = List.range (plan members (split input)).length ∧
      (limit = 1 → calls₁ = calls₂ ∧ r₁.output = r₂.output)) ∧
    ((split input).length ≤ limit.toNat → ∀ cancelAt,
      ∃ (world : World) (announced : List Event) (result : RunResult) (calls calls' : List Settled),
        calls.Perm calls' ∧
        o₁.stream stamp ⟨cancelAt, none⟩ input w =
          (world, announced ++ [.complete (result.closed (reduction reduce calls))]) ∧
        o₂.stream stamp ⟨cancelAt, none⟩ input w =
          (world, announced ++ [.complete (result.closed (reduction reduce calls'))])) := by
  intro members calls₁ calls₂ r₁ r₂
  have ho₁ := (accepted_of_build h₁).1
  have ho₂ := (accepted_of_build h₂).1
  have hlimit : some limit.toNat ≠ some 0 := by
    rw [of_mapping h₁] at ho₁
    exact ho₁.works
  obtain rfl := of_mapping h₁
  obtain rfl := of_mapping h₂
  have hreduces₁ : r₁.Reduces reduce calls₁ := execute_reduced stamp input w
  have hreduces₂ : r₂.Reduces reduce calls₂ := execute_reduced stamp input w
  refine ⟨hreduces₁, hreduces₂, ?_, ?_⟩
  · intro hgo₁ hgo₂ hanswers
    obtain ⟨parts, hparts⟩ := exists_parts_plan hanswers (split input)
    have hworked₁ := MapReduce.roundCalls_worked hparts hlimit _ rfl
      (not_forgone_handed ho₁ hgo₁)
    have hnone : (none : Option Nat) ≠ some 0 := by simp
    have hworked₂ := MapReduce.roundCalls_worked hparts hnone _ rfl
      (not_forgone_handed ho₂ hgo₂)
    have hcalls₂ : calls₂ = (foresee w.memory.tally parts.zipIdx).map (·.settled) :=
      hworked₂.2 (.inl rfl)
    refine ⟨?_, ?_, ?_, ?_⟩
    · rw [hcalls₂]
      exact hworked₁.1
    · rw [hcalls₂, dispatches_settled, hparts]
    · rw [hcalls₂, positions_settled, ← hparts, List.length_map]
    · rintro rfl
      have hsame : calls₁ = calls₂ := (hworked₁.2 (.inr rfl)).trans hcalls₂.symm
      refine ⟨hsame, ?_⟩
      rw [hreduces₁.output, hreduces₂.output, hsame]
  · exact fun hroom cancelAt => streams_reduced hroom stamp w cancelAt

/-- Two that share the work: one of them takes its time, the other one fails at its second piece. -/
def sharers : List Participant :=
  [.simple ⟨"slow", "", ""⟩ fun _ m => { delay := 5, outcome := .ok m },
    .simple ⟨"quick", "", ""⟩ fun n m =>
      { delay := 1, outcome := if n = 0 then .ok m else .error "no more" }]

/-- Work on a text four times over, so many times at once. -/
def sharing (limit : Option UInt64) : Except Error Orchestration :=
  ofParticipants sharers
    (mapping (List.replicate 4) (fun ms => .plain "reducer" (joinContents ms)) 1 none limit)

theorem sharers_calm : ∀ p ∈ sharers, p.Calm := by
  intro p hp
  rcases List.mem_pair.mp hp with rfl | rfl <;> intro n message <;> rfl

theorem sharers_answer : ∀ p ∈ sharers, ∃ f, p.AnswersBy f := by
  intro p hp
  rcases List.mem_pair.mp hp with rfl | rfl <;> exact ⟨_, Participant.answersBy_simple _ _⟩

theorem unstopped_sharing {limit : Option UInt64} {o : Orchestration} (h : sharing limit = .ok o)
    (input : String) : (o.execute default input .fresh).2.Unstopped :=
  unflagged_of_calm h sharers_calm (strategy_of_build h).2 default input rfl

/-- One piece at a time comes to the same as all at once, and so does room for four even if the
reader cancels. -/
theorem bounded_agrees_sharing :
    (∃ o₁ o₂, sharing (some 1) = .ok o₁ ∧ sharing none = .ok o₂ ∧
      (o₁.execute default "go" .fresh).2.Unstopped ∧ (o₂.execute default "go" .fresh).2.Unstopped ∧
      (o₁.execute default "go" .fresh).2.output = (o₂.execute default "go" .fresh).2.output) ∧
    ∃ o₁ o₂ world announced result₁ result₂, sharing (some 4) = .ok o₁ ∧ sharing none = .ok o₂ ∧
      o₁.stream default { cancelAt := some 2 } "go" .fresh =
        (world, announced ++ [.complete result₁]) ∧
      o₂.stream default { cancelAt := some 2 } "go" .fresh =
        (world, announced ++ [.complete result₂]) ∧
      result₁.agentResults = result₂.agentResults := by
  obtain ⟨o₂, h₂⟩ : ∃ o, sharing none = .ok o := ⟨_, rfl⟩
  constructor
  · obtain ⟨o₁, h₁⟩ : ∃ o, sharing (some 1) = .ok o := ⟨_, rfl⟩
    have hgo₁ := unstopped_sharing h₁ "go"
    have hgo₂ := unstopped_sharing h₂ "go"
    have hagree := (bounded_agrees h₁ h₂ default "go" .fresh).2.2.1 hgo₁ hgo₂ sharers_answer
    exact ⟨o₁, o₂, h₁, h₂, hgo₁, hgo₂, (hagree.2.2.2 rfl).2⟩
  · obtain ⟨o₁, h₁⟩ : ∃ o, sharing (some 4) = .ok o := ⟨_, rfl⟩
    have hroom : (List.replicate 4 "go").length ≤ (4 : UInt64).toNat := by decide
    obtain ⟨world, announced, result, calls, calls', -, hstream₁, hstream₂⟩ :=
      (bounded_agrees h₁ h₂ default "go" .fresh).2.2.2 hroom (some 2)
    exact ⟨o₁, o₂, world, announced, _, _, h₁, h₂, hstream₁, hstream₂, rfl⟩

end Orchestration

end Ensemble
