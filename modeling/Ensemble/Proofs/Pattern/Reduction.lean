import Ensemble.Proofs.Pattern.MapReduce

/-!
# What a map-reduce run is reduced to

A map-reduce run hands the calls of its round on to the reduction when all of them are over, and
what the reduction makes of them closes the transcript. `follow_closing` says that the last step of
a run has no part in what comes before it, for any reader, so the calls handed on are the same for
all reductions. `map_reduce_accounts` says which calls these are and what the result shows of them.
-/

namespace Ensemble

open Run

/-- Whoever was asked has been called, if nothing was forgone. -/
theorem RunState.begun_eq_asked {r : RunState} (h : ¬r.Forgone) :
    r.occurrences.filterMap (·.begun?) = r.asked := by
  refine List.filterMap_congr fun o ho => ?_
  cases o with
  | callSkipped id message => exact absurd ⟨_, ho, rfl⟩ h
  | _ => rfl

/-- A reading to the end shows in its flags that something was forgone. -/
theorem Orchestration.reading_not_forgone {participants : List Participant} {options : Options}
    {o : Orchestration} (h : ofParticipants participants options = .ok o) (stamp : RunStamp)
    (reader : Reader) (input : String) (w : World) {result : RunResult}
    (hresult : (o.reading stamp reader input w).result = some result)
    (hgo : result.Unstopped ∨
      ∀ e ∈ (o.reading stamp reader input w).entries,
        e.stopped (.after w.clock.now o.timeout) = false) :
    ¬(o.reading stamp reader input w).last.state.Forgone := by
  rintro ⟨occurrence, hmem, hforgoes⟩
  obtain ⟨e, he, rfl⟩ := List.mem_map.mp hmem
  have hsound := reading_sound (accepted_of_build h).1
    (K := .advances (.after w.clock.now o.timeout))
    (fun m hm => Member.within_advances (forward_of_build h m hm) _) stamp reader input
  obtain ⟨m, hstep, hfinished⟩ := hsound.concluded result hresult
  have hstretch := stretch_drop hstep
  rcases hgo with hgo | hgo
  · have hstopped := hstretch.stopped_of_forgoes he hforgoes
    have hunstopped : (instant (o.reading stamp reader input w).last.world.clock m).stopped
        (.after w.clock.now o.timeout) = false :=
      Bool.or_eq_false_iff.mpr
        ⟨hfinished.cancelled.symm.trans hgo.1, hfinished.timedOut.symm.trans hgo.2⟩
    exact Bool.false_ne_true (hunstopped.symm.trans hstopped)
  · have hstopped := (hstretch.permitted e he).forgoes hforgoes
    rw [hgo e he] at hstopped
    cases hstopped

namespace MapReduce

/-! ## The round -/

variable {deadline : Deadline} {start : Instant} {limit : Nat} {calls : List Dispatch}
  {done : List Settled} {log : List Occurrence}

/-- The journals of a round that is over, with its calls in the order in which they were over: all
were answered or skipped, unless the run had to stop before the round began. -/
inductive RoundedOff (deadline : Deadline) (start : Instant) (calls : List Dispatch) :
    (done : List Settled) → List Occurrence → Prop where
  | refused : start.stopped deadline = true → RoundedOff deadline start calls [] [.roundRefused 0]
  | worked {done body} : Concluded calls done body →
      RoundedOff deadline start calls done (.roundBegun 0 :: (body ++ [.roundEnded 0]))

/-- Every call that has begun is over. -/
theorem RoundedOff.begun_perm (h : RoundedOff deadline start calls done log) :
    (log.filterMap (·.begun?)).Perm ((done.filterMap (·.call?)).map (·.dispatch.address)) := by
  cases h with
  | refused => exact .refl _
  | worked hbody =>
    rw [List.filterMap_cons, List.filterMap_append]
    exact (List.append_nil _).symm ▸ hbody.begun

/-- Calls were answered in the order in which they were over. -/
theorem RoundedOff.answered (h : RoundedOff deadline start calls done log) :
    log.filterMap (·.settled?) = (done.filterMap (·.call?)).map fun c => (c.id, c.answer) := by
  cases h with
  | refused => rfl
  | worked hbody =>
    rw [List.filterMap_cons, List.filterMap_append]
    exact (List.append_nil _).trans hbody.answered

/-- No call is over twice. -/
theorem RoundedOff.positions_nodup (h : RoundedOff deadline start calls done log) :
    (done.map (·.position)).Nodup := by
  cases h with
  | refused => exact List.nodup_nil
  | worked hbody => exact hbody.positions.nodup_iff.mpr List.nodup_range

/-- Calls as they are handed on, without a limit: in the order of the plan. -/
theorem RoundedOff.inOrder (h : RoundedOff deadline start calls done log) :
    (inOrder done).Pairwise fun a b => a.position < b.position := by
  have hpositions : ((Run.inOrder done).map (·.position)).Nodup :=
    ((List.mergeSort_perm done _).map _).nodup_iff.mpr h.positions_nodup
  refine (pairwise_inOrder done).imp₂ (fun a b hle hne => ?_) (List.pairwise_map.mp hpositions)
  exact Nat.lt_of_le_of_ne hle hne

variable {stopped : Prop} {ids : List String} {r : RunState}

theorem Rounded.roundedOff
    (h : Rounded limit calls (start.stopped deadline = true) (.initial ids) done r) :
    RoundedOff deadline start calls done r.occurrences := by
  cases h with
  | refused hstopped hrefused =>
    rw [hrefused.occurrences]
    exact .refused hstopped
  | worked hbegun hworked hended =>
    obtain ⟨body, hbody, hgain⟩ := hworked
    rw [hended.occurrences, hgain.occurrences, hbegun.occurrences, List.append_assoc]
    exact .worked (concluded_shifts hbody)

/-- What the transcript shows of the round. -/
theorem Rounded.messages (h : Rounded limit calls stopped (.initial ids) done r) :
    r.messages.toList = (done.filterMap (·.call?)).flatMap (·.exchange) := by
  cases h with
  | refused _ hrefused => exact hrefused.messages
  | worked hbegun hworked hended =>
    obtain ⟨body, -, hgain⟩ := hworked
    rw [hended.messages, hgain.messages, hbegun.messages]
    simp [RunState.initial]

/-- If nothing was forgone, the whole plan was asked. -/
theorem Rounded.asked (h : Rounded limit calls stopped (.initial ids) done r)
    (hforgone : ¬r.Forgone) : r.asked = calls.map (·.address) := by
  rcases h.concluded with ⟨hlog, -⟩ | ⟨body, hlog, hbody⟩
  · refine absurd ⟨.roundRefused 0, ?_, rfl⟩ hforgone
    rw [hlog]
    exact List.mem_cons_self
  · have hasked := hbody.asked
    rw [RunState.asked, hlog, List.filterMap_cons, List.filterMap_append]
    exact hasked

end MapReduce

/-! ## The last step -/

namespace Orchestration

/-- Whatever the last step of a run is, who reads the run to its end comes to the same value before
it, or has had enough by then. -/
theorem follow_closing {α : Type} {guarantee : StepKind Scene} {Q : Scene → α → Prop}
    (reader : Reader) {p : Progress Scene α} {c₀ : Clock} {s₀ : Scene}
    (h : p.Keeps Untouched guarantee (fun _ _ _ s a => Q s a) c₀ s₀) (journal received : Nat) :
    (∀ tail : α → Routine Scene RunResult,
      (follow reader (p.andThen tail) journal received).result = none) ∨
    ∃ a c s, Q s a ∧ ∀ (tail : α → Routine Scene RunResult) (r : RunState) (result : RunResult),
      tail a c s = .done c (s.1, r) result →
        (follow reader (p.andThen tail) journal received).result = some result ∧
        (follow reader (p.andThen tail) journal received).last.state = r := by
  induction p generalizing c₀ s₀ journal received with
  | done c s a =>
    refine .inr ⟨a, c, s, h, fun tail r result htail => ?_⟩
    rw [Progress.andThen, htail, follow]
    exact ⟨rfl, rfl⟩
  | waiting w c s k ih =>
    obtain ⟨m, r⟩ := s
    let events := reader.receive received (r.eventsFrom journal)
    let m' := reader.react received events m
    by_cases hsatisfied : reader.satisfied (received + events.length) = true
    · left
      intro tail
      simp only [Progress.andThen, follow, events, hsatisfied, if_true]
    · have hgoes : ∀ tail : α → Routine Scene RunResult,
          let whole := follow reader ((Progress.waiting w c (m, r) k).andThen tail) journal received
          let rest := follow reader ((k (c.advance w.due) (m', r)).andThen tail) r.journal.size
            (received + events.length)
          whole.result = rest.result ∧ whole.last = rest.last := by
        intro tail whole rest
        simp only [whole, Progress.andThen, follow]
        rw [if_neg hsatisfied]
        exact ⟨rfl, rfl⟩
      have hrest := h.2 (c.advance w.due) (m', r) rfl
      rcases ih _ (m', r) hrest r.journal.size (received + events.length) with
        hnone | ⟨a, c', s', hq, hend⟩
      · left
        intro tail
        rw [(hgoes tail).1]
        exact hnone tail
      · refine .inr ⟨a, c', s', hq, fun tail r' result htail => ?_⟩
        rw [(hgoes tail).1, (hgoes tail).2]
        exact hend tail r' result htail

/-- The readings of map-reduce runs that differ in their reductions alone: no reader comes to a
result of any, or all of them reduce the same calls, and what they make of these is their output and
the end of their transcript. -/
theorem reading_closed {concurrency : Option Nat} (hlimit : concurrency ≠ some 0)
    (members : List Member) (split : String → List String) (timeout : Option Duration)
    (stamp : RunStamp) {reader : Reader} (hreader : reader.take ≠ some 0) (input : String)
    (w : World) :
    let calls := MapReduce.plan members (split input)
    let stopped := (instant w.clock w.memory).stopped (.after w.clock.now timeout) = true
    let reading (reduce : List Message → Message) :=
      (Orchestration.mk members (.mapReduce ⟨split, reduce, concurrency⟩) timeout).reading stamp
        reader input w
    (∀ reduce, (reading reduce).result = none) ∨
    ∃ (done : List Settled) (r : RunState) (unreduced : RunResult),
      MapReduce.Rounded (MapReduce.room concurrency calls) calls stopped
        (.initial (members.map (·.id))) done r ∧
      unreduced.messages = r.messages.toList ∧
      ∀ reduce,
        let closing := MapReduce.reduction reduce (MapReduce.arranged concurrency done)
        (reading reduce).result = some (unreduced.closed closing) ∧
        (reading reduce).last.state.journal = r.journal := by
  intro calls stopped reading
  let o (reduce : List Message → Message) : Orchestration :=
    ⟨members, .mapReduce ⟨split, reduce, concurrency⟩, timeout⟩
  let start : Scene := (w.memory, .initial (members.map (·.id)))
  let round := MapReduce.roundCalls members (.after w.clock.now timeout) concurrency (split input)
    w.clock start
  have hreads : ∀ reduce, ∃ tail : List Settled → Routine Scene RunResult,
      reading reduce = follow reader (round.andThen tail) 0 0 ∧
      ∀ handed c s, tail handed c s =
        .done c (s.1, { s.2 with messages := s.2.messages.push (MapReduce.reduction reduce handed) })
          (((o reduce).unreduced stamp w.clock.now (c, s)).closed
            (MapReduce.reduction reduce handed)) := by
    intro reduce
    obtain ⟨tail, hdrive, htail⟩ :=
      drive_reduced members ⟨split, reduce, concurrency⟩ timeout stamp input w
    refine ⟨tail, ?_, htail⟩
    rw [← hdrive]
    exact reading_of_take hreader (o reduce) stamp input w
  have hround : round.Keeps Untouched _ (fun _ _ _ s handed => ∃ done,
      handed = MapReduce.arranged concurrency done ∧
      MapReduce.Rounded (MapReduce.room concurrency calls) calls stopped start.2 done s.2)
      w.clock start := MapReduce.keeps_roundCalls hlimit w.clock start
  rcases follow_closing reader hround 0 0 with hnone | ⟨_, c, s, ⟨done, rfl, hdone⟩, hend⟩
  · left
    intro reduce
    obtain ⟨tail, hreading, -⟩ := hreads reduce
    rw [hreading]
    exact hnone tail
  · -- but for the reduction, the results are the same
    refine .inr ⟨done, s.2, (o default).unreduced stamp w.clock.now (c, s), hdone, rfl, ?_⟩
    intro reduce closing
    obtain ⟨tail, hreading, htail⟩ := hreads reduce
    obtain ⟨hresult, hstate⟩ := hend tail _ _ (htail _ c s)
    rw [hreading, hstate]
    exact ⟨hresult, rfl⟩

end Orchestration

/-! ## The accounts -/

/-- What the reading of a map-reduce run that is over says of the calls of its plan: those in `done`
are over, in this order, those in `handed` went to the reduction, and it came to `reduced`. -/
structure Reading.Reckoned (deadline : Deadline) (start : Instant) (calls : List Dispatch)
    (concurrency : Option UInt64) (R : Reading) (result : RunResult) (done handed : List Settled)
    (reduced : Message) : Prop where
  /-- Each call of the plan was answered or skipped, unless the run had to stop before its round. -/
  ended : MapReduce.RoundedOff deadline start calls done R.last.state.occurrences
  /-- Every call that has begun is over. -/
  settled : (R.last.state.occurrences.filterMap (·.begun?)).Perm
    ((done.filterMap (·.call?)).map (·.dispatch.address))
  answered : R.last.state.occurrences.filterMap (·.settled?) =
    (done.filterMap (·.call?)).map fun c => (c.id, c.answer)
  /-- If the run was not stopped, all calls of the plan have begun. -/
  complete : (result.Unstopped ∨ ∀ e ∈ R.entries, e.stopped deadline = false) →
    R.last.state.occurrences.filterMap (·.begun?) = calls.map (·.address)
  /-- All calls that are over go to the reduction. -/
  all : handed.Perm done
  /-- With a limit they stand in the order in which they were over. -/
  limited : concurrency ≠ none → handed = done
  /-- Without a limit they stand in the order of the pieces. -/
  unlimited : concurrency = none → handed.Pairwise fun a b => a.position < b.position
  output : result.output = reduced.content
  /-- What the reduction came to closes the transcript, tagged. -/
  transcript : ∃ m, result.messages = (done.filterMap (·.call?)).flatMap (·.exchange) ++ [m] ∧
    { m with metadata := reduced.metadata } = reduced ∧
    ∀ key, m.meta? key = if key = "phase" then some (.str "reduce") else reduced.meta? key
  length : result.messages.length =
    2 * (R.last.state.occurrences.filterMap (·.begun?)).length + 1

namespace Orchestration

open MapReduce (Shares plan reduction)

variable {team : List Participant} {split : String → List String}
  {reduce : List Message → Message} {maxRounds : UInt64} {timeout : Option Duration}
  {concurrency : Option UInt64} {o : Orchestration}

/-- The functions of a map-reduce run are no matter of the gate. -/
theorem mapping_with
    (h : ofParticipants team (mapping split reduce maxRounds timeout concurrency) = .ok o)
    (reduce' : List Message → Message) :
    ofParticipants team (mapping split reduce' maxRounds timeout concurrency) =
      .ok ⟨Participant.members 0 team, .mapReduce ⟨split, reduce', concurrency.map (·.toNat)⟩,
        timeout⟩ :=
  build_alike h rfl rfl

theorem length_exchanges (calls : List Call) :
    (calls.flatMap (·.exchange)).length = 2 * calls.length := by
  induction calls with
  | nil => rfl
  | cons c calls ih =>
    rw [List.flatMap_cons, List.length_append, ih, List.length_cons]
    simp only [Call.exchange, List.length_cons, List.length_nil]
    omega

/-- The calls of a round that was read to its end, and what they were reduced to. -/
theorem reckoned_of_rounded {deadline : Deadline} {start : Instant} {calls : List Dispatch}
    {slots : Nat} {ids : List String} {done : List Settled} {r : RunState} {R : Reading}
    {result unreduced : RunResult}
    (hdone : MapReduce.Rounded slots calls (start.stopped deadline = true) (.initial ids) done r)
    (hlog : R.last.state.occurrences = r.occurrences)
    (hmessages : unreduced.messages = r.messages.toList)
    (hresult : result = unreduced.closed (reduction reduce
      (MapReduce.arranged (concurrency.map (·.toNat)) done)))
    (hforgone : (result.Unstopped ∨ ∀ e ∈ R.entries, e.stopped deadline = false) → ¬r.Forgone) :
    let handed := MapReduce.arranged (concurrency.map (·.toNat)) done
    R.Reckoned deadline start calls concurrency result done handed
      (reduce (handed.filterMap (·.outcome.response?))) := by
  intro handed
  have hover := hdone.roundedOff
  have hexchanges : unreduced.messages = (done.filterMap (·.call?)).flatMap (·.exchange) :=
    hmessages.trans hdone.messages
  have htranscript : result.messages =
      (done.filterMap (·.call?)).flatMap (·.exchange) ++ [reduction reduce handed] := by
    rw [hresult, RunResult.closed, hexchanges]
  refine
    { ended := hlog ▸ hover
      settled := hlog ▸ hover.begun_perm
      answered := hlog ▸ hover.answered
      complete := ?_
      all := ?_
      limited := ?_
      unlimited := ?_
      output := congrArg RunResult.output hresult
      transcript := ⟨_, htranscript, rfl, fun key => Message.meta?_withMetadata _ _ _ _⟩
      length := ?_ }
  · intro hgo
    have hnot := hforgone hgo
    rw [hlog, RunState.begun_eq_asked hnot]
    exact hdone.asked hnot
  · cases concurrency with
    | some limit => exact .refl _
    | none => exact List.mergeSort_perm done _
  · intro hlimit
    cases concurrency with
    | some limit => rfl
    | none => exact absurd rfl hlimit
  · rintro rfl
    exact hover.inOrder
  · have hbegun := hover.begun_perm.length_eq
    rw [htranscript, List.length_append, length_exchanges, hlog, hbegun, List.length_map]
    rfl

/-- **A map-reduce run accounts for its calls.** The pieces go to the participants in turn, each
with its number, and the calls that begin are those of the first pieces, each once; of all pieces
if the run was not stopped. When the run is over, every call that has begun is settled. Only then
is a reduction made, once, of all successful replies: without a limit in the order of the pieces,
and with one in the order in which they came. Whatever the reduction is, it has no part in what
comes before it; what it comes to is the output, and closes a transcript that has two messages for
each call, with its metadata kept but for the tag. -/
theorem map_reduce_accounts
    (h : ofParticipants team (mapping split reduce maxRounds timeout concurrency) = .ok o)
    (stamp : RunStamp) {reader : Reader} (hreader : reader.take ≠ some 0) (input : String)
    (w : World) :
    let pieces := split input
    let calls := plan o.members pieces
    let R := o.reading stamp reader input w
    let begun := R.last.state.occurrences.filterMap (·.begun?)
    List.Forall₂ (fun p d => Shares o.members p.1 p.2 d) pieces.zipIdx calls ∧
    o.stream stamp reader input w = (R.last.world, R.events) ∧
    (reader = {} → R.result = some (o.execute stamp input w).2) ∧
    (reader.take = none → ∃ result, R.result = some result) ∧
    begun <+: calls.map (·.address) ∧
    (∃ j ≤ pieces.length,
      begun.map (·.2.meta? "chunk_index") = (List.range j).map fun k => some (.nat k)) ∧
    ∀ result, R.result = some result → ∃ done handed unreduced,
      R.Reckoned (.after w.clock.now o.timeout) (instant w.clock w.memory) calls concurrency result
        done handed (reduce (handed.filterMap (·.outcome.response?))) ∧
      ∀ reduce', ∃ o',
        ofParticipants team (mapping split reduce' maxRounds timeout concurrency) = .ok o' ∧
        (o'.reading stamp reader input w).result =
          some (RunResult.closed unreduced (reduction reduce' handed)) ∧
        (o'.reading stamp reader input w).last.state.journal = R.last.state.journal := by
  intro pieces calls R begun
  obtain ⟨ho, hteam⟩ := accepted_of_build h
  have hmembers : o.members ≠ [] := hteam ▸ nonempty_of_build h
  have hsound := reading_sound ho (K := .advances (.after w.clock.now o.timeout))
    (fun m hm => Member.within_advances (forward_of_build h m hm) _) stamp reader input
  have hall := stretch_drop
    (hsound.reached R.last (List.mem_append_right _ List.mem_cons_self))
  have hasked := (orderly_reading h stamp hreader input w).asked
  have hinTurn : begun <+: calls.map (·.address) := hall.begun_first.trans hasked
  refine ⟨MapReduce.plan_shares hmembers pieces, stream_eq_reading o stamp reader input w, ?_, ?_,
    hinTurn, indices_begun hmembers hinTurn, ?_⟩
  · rintro rfl
    exact reading_execute o stamp input w
  · intro htake
    obtain ⟨result, hend⟩ := exists_ends ho stamp htake input w
    exact ⟨result, hend.concluded⟩
  · intro result hresult
    have hforgone := reading_not_forgone h stamp reader input w hresult
    have hlimit := limit_of_mapping h
    obtain rfl := of_mapping h
    rcases reading_closed hlimit (Participant.members 0 team) split timeout stamp hreader input w
      with hnone | ⟨done, r, unreduced, hdone, hmessages, hend⟩
    · cases (hnone reduce).symm.trans hresult
    · obtain ⟨hclosed, hjournal⟩ := hend reduce
      have hresult' := Option.some.inj (hresult.symm.trans hclosed)
      have hlog : R.last.state.occurrences = r.occurrences :=
        congrArg (fun journal => journal.toList.map (·.occurrence)) hjournal
      refine ⟨done, MapReduce.arranged (concurrency.map (·.toNat)) done, unreduced, ?_, ?_⟩
      · refine reckoned_of_rounded hdone hlog hmessages hresult' fun hgo => ?_
        rintro ⟨occurrence, hmem, hforgoes⟩
        exact hforgone hgo ⟨occurrence, hlog ▸ hmem, hforgoes⟩
      · intro reduce'
        obtain ⟨hclosed', hjournal'⟩ := hend reduce'
        exact ⟨_, mapping_with h reduce', hclosed', hjournal'.trans hjournal.symm⟩

/-- Four pieces, of which one fails, two at a time and all at once: nine messages either way. -/
theorem map_reduce_accounts_sharing :
    (∃ o, sharing (some 2) = .ok o ∧ ∃ done reduced,
      (o.reading default {} "go" .fresh).Reckoned (.after 0 o.timeout) ⟨0, false⟩
        (plan o.members ["go", "go", "go", "go"]) (some 2) (o.execute default "go" .fresh).2 done
        done reduced ∧
      (o.execute default "go" .fresh).2.messages.length = 9) ∧
    ∃ o, sharing none = .ok o ∧ ∃ done handed reduced,
      (o.reading default {} "go" .fresh).Reckoned (.after 0 o.timeout) ⟨0, false⟩
        (plan o.members ["go", "go", "go", "go"]) none (o.execute default "go" .fresh).2 done
        handed reduced ∧
      (o.execute default "go" .fresh).2.messages.length = 9 := by
  have hall : ∀ {limit o}, sharing limit = .ok o → ∃ done handed reduced,
      (o.reading default {} "go" .fresh).Reckoned (.after 0 o.timeout) ⟨0, false⟩
        (plan o.members ["go", "go", "go", "go"]) limit (o.execute default "go" .fresh).2 done
        handed reduced ∧
      (o.execute default "go" .fresh).2.messages.length = 9 := by
    intro limit o h
    obtain ⟨hshares, -, hresult, -, -, -, hover⟩ :=
      map_reduce_accounts h default (show Reader.take {} ≠ some 0 by simp) "go" .fresh
    obtain ⟨done, handed, -, hreckoned, -⟩ := hover _ (hresult rfl)
    refine ⟨done, handed, _, hreckoned, ?_⟩
    have hlength := hreckoned.length
    rw [hreckoned.complete (.inl (unstopped_sharing h "go")), List.length_map,
      ← hshares.length_eq] at hlength
    exact hlength
  constructor
  · obtain ⟨o, h⟩ : ∃ o, sharing (some 2) = .ok o := ⟨_, rfl⟩
    obtain ⟨done, handed, reduced, hreckoned, hlength⟩ := hall h
    obtain rfl := hreckoned.limited (Option.some_ne_none 2)
    exact ⟨o, h, _, reduced, hreckoned, hlength⟩
  · obtain ⟨o, h⟩ : ∃ o, sharing none = .ok o := ⟨_, rfl⟩
    exact ⟨o, h, hall h⟩

end Orchestration

end Ensemble
