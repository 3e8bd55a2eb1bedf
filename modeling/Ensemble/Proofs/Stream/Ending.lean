import Ensemble.Proofs.Run.Custom
import Ensemble.Proofs.Stream.Reading

/-!
# What the end of a run shows in a reading of it

A run of a strategy works up to its output, and the result is made of what has been gathered by
then. `reading_ends` carries what holds of the output and the books at that point over to whoever
reads the run to its end, and `reading_invariant` what nothing in a run can break; so
`reading_permitted`, that rounds and calls are forgone only when a run has to stop.
-/

namespace Ensemble

open Run

/-- A journal stays free of what is not permitted. -/
def Run.Regime.permits (deadline : Deadline) : Regime deadline where
  step _ s _ s' := (∀ e ∈ s.2.journal.toList, e.Permitted deadline) →
    ∀ e ∈ s'.2.journal.toList, e.Permitted deadline
  refl _ _ h := h
  trans h h' hstart := h' (h hstart)
  note {o c s} he hstart e hmem := by
    have hpushed : e ∈ s.2.journal.toList ++ [entry o c s] := by simpa [noted] using hmem
    rcases List.mem_append.mp hpushed with hold | hnew
    · exact hstart e hold
    · rwa [List.mem_singleton.mp hnew]
  gather hjournal hstart := by rwa [hjournal]
  elapse _ _ _ h := h

theorem Member.within_permits (m : Member) (deadline : Deadline) :
    m.Within (Run.Regime.permits deadline) :=
  m.within_of_books fun _ _ _ _ _ h => h

/-- The reading of a run that is over: its events are those of the journal and the result, which
reports what has been gathered. -/
structure Reading.Ends (R : Reading) (result : RunResult) : Prop where
  concluded : R.result = some result
  events : R.events = R.last.state.events ++ [.complete result]
  messages : result.messages = R.last.state.messages.toList
  agentResults : result.agentResults = R.last.state.results
  rounds : result.rounds = R.last.state.rounds
  blackboard : result.blackboard = R.last.state.blackboard

/-- Where the run waited: at the pauses, and at the end if the reader had enough before it was
over. -/
def Reading.waits (R : Reading) : List Snapshot :=
  match R.result with
  | none => R.snapshots
  | some _ => R.pauses

theorem Reading.waits_cons (x : Snapshot) (R : Reading) (events : List Event) :
    Reading.waits ⟨x :: R.pauses, R.last, R.result, events⟩ = x :: R.waits := by
  obtain ⟨pauses, last, result, _⟩ := R
  cases result <;> rfl

namespace Orchestration

variable {o : Orchestration} {reader : Reader} {input : String} {w : World}

/-- Such a reading is what the stream shows. -/
theorem stream_of_ends {stamp : RunStamp} {result : RunResult}
    (h : (o.reading stamp reader input w).Ends result) :
    (o.stream stamp reader input w).2 =
      (o.reading stamp reader input w).last.state.events ++ [.complete result] := by
  rw [stream_eq_reading, h.events]

/-- Without a reader who interferes, its result is that of the straight run. -/
theorem execute_of_ends {stamp : RunStamp} {result : RunResult}
    (h : (o.reading stamp {} input w).Ends result) : (o.execute stamp input w).2 = result :=
  Option.some.inj ((o.reading_execute stamp input w).symm.trans h.concluded)

/-- What a run arrives at, with its output, is what the reading of it to its end shows. -/
theorem reading_ends {Q : Clock → Scene → String → Prop} (o : Orchestration) (stamp : RunStamp)
    (hreader : reader.take = none) (input : String) (w : World)
    (hrun : (o.strategy.run o.members (.after w.clock.now o.timeout) input w.clock
      (w.memory, .initial o.ids)).Arrives Untouched
        (Regime.history (.after w.clock.now o.timeout)).toGuarantee Q w.clock
        (w.memory, .initial o.ids)) :
    ∃ result m, (o.reading stamp reader input w).Ends result ∧
      Q (o.reading stamp reader input w).last.world.clock
        (m, (o.reading stamp reader input w).last.state) result.output := by
  let deadline := Deadline.after w.clock.now o.timeout
  have hdrive : (o.drive stamp input w.clock (w.memory, .initial o.ids)).Arrives Untouched
      (Regime.history deadline).toGuarantee (fun c s result => ∃ output, Q c s output ∧
        o.conclude stamp deadline w.clock.now output c s = .done c s result) w.clock
      (w.memory, .initial o.ids) :=
    hrun.andThen fun c s output hq => ⟨List.prefix_refl s.2.journal.toList, output, hq, rfl⟩
  obtain ⟨result, hresult, hevents⟩ := follow_events hreader hdrive 0
  obtain ⟨m, -, output, hq, hconclude⟩ := (follow_sound reader hdrive 0 0).concluded result hresult
  obtain ⟨-, -, rfl⟩ := Progress.done.inj hconclude
  rw [reading_eq_follow hreader]
  exact ⟨_, m, ⟨hresult, hevents, rfl, rfl, rfl, rfl⟩, hq⟩

/-- Every reading without a limit comes to a result. -/
theorem exists_ends (ho : o.Accepted) (stamp : RunStamp) (hreader : reader.take = none)
    (input : String) (w : World) :
    ∃ result, (o.reading stamp reader input w).Ends result := by
  have hrun := Strategy.meets_run (K := .history (.after w.clock.now o.timeout))
    (fun m _ => m.within_history _) ho.works input w.clock (w.memory, .initial o.ids) rfl
  obtain ⟨result, m, hends, -⟩ := reading_ends (Q := fun _ s _ =>
    Nonempty (Ledger o.strategy o.members s.2)) o stamp hreader input w hrun
  exact ⟨result, hends⟩

/-- What holds of a run that has just begun, and what neither its steps nor the participants can
break, holds at the end of every reading that came to a result. -/
theorem reading_invariant {I : RunState → Prop} (ho : o.Accepted) (hstart : I (.initial o.ids))
    (hrun : (o.strategy.run o.members (.after w.clock.now o.timeout) input w.clock
      (w.memory, .initial o.ids)).Keeps Untouched (fun _ s _ s' => I s.2 → I s'.2)
        (fun _ s _ s' _ => I s.2 → I s'.2) w.clock (w.memory, .initial o.ids))
    (stamp : RunStamp) {result : RunResult}
    (hresult : (o.reading stamp reader input w).result = some result) :
    I (o.reading stamp reader input w).last.state := by
  let K := Regime.history (.after w.clock.now o.timeout)
  have hdrive : (o.drive stamp input w.clock (w.memory, .initial o.ids)).Keeps Untouched
      (fun _ s _ s' => I s.2 → I s'.2) (fun _ s _ s' _ => I s.2 → I s'.2) w.clock
      (w.memory, .initial o.ids) :=
    (Progress.keeps_andThen (o.strategy.run o.members (.after w.clock.now o.timeout) input w.clock
      (w.memory, .initial o.ids)) _).mpr hrun
  -- it holds before the last step, and the last step does not break it
  have hbefore := hdrive.invariant (I := fun s => I s.2) hstart
    (fun _ _ hs h => by rwa [hs]) fun _ _ _ _ hstep h => hstep h
  have hkeeps := (o.drive_keeps ho (K := K) (fun m _ => m.within_history _) stamp input
    w.memory).and hbefore
  have hends : (o.drive stamp input w.clock (w.memory, .initial o.ids)).Arrives Untouched
      K.toGuarantee (fun _ s _ => I s.2) w.clock (w.memory, .initial o.ids) :=
    hkeeps.mono (fun _ _ h => h) (fun _ _ _ _ h => h.1) fun _ _ _ _ _ h => ⟨h.1.1, h.2.2 h.2.1⟩
  unfold reading at hresult ⊢
  split at hresult
  · cases hresult
  · next hunsatisfied =>
    rw [if_neg hunsatisfied]
    obtain ⟨m, -, hend⟩ := (follow_sound reader hends 0 0).concluded result hresult
    exact hend

/-- What the books are like whenever a routine waits, and when it is done, they are like in every
reading of it. -/
theorem follow_keeps {P E : RunState → Prop} (reader : Reader) {p : Progress Scene RunResult}
    {c₀ : Clock} {s₀ : Scene}
    (h : p.Keeps Untouched (fun _ _ _ s => P s.2) (fun _ _ _ s _ => E s.2) c₀ s₀)
    (journal received : Nat) :
    (∀ x ∈ (follow reader p journal received).waits, P x.state) ∧
      ∀ result, (follow reader p journal received).result = some result →
        E (follow reader p journal received).last.state := by
  induction p generalizing c₀ s₀ journal received with
  | done c s result => exact ⟨by simp [follow, Reading.waits], fun _ _ => h⟩
  | waiting w c s k ih =>
    obtain ⟨m, r⟩ := s
    let events := reader.receive received (r.eventsFrom journal)
    let m' := reader.react received events m
    simp only [follow]
    split
    · refine ⟨fun x hx => ?_, by simp⟩
      obtain rfl := List.mem_singleton.mp hx
      exact h.1
    · obtain ⟨hwaits, hend⟩ := ih (c.advance w.due) (m', r) (h.2 _ (m', r) rfl) r.journal.size
        (received + events.length)
      refine ⟨fun x hx => ?_, hend⟩
      rw [Reading.waits_cons] at hx
      rcases List.mem_cons.mp hx with rfl | hx
      · exact h.1
      · exact hwaits x hx

/-- Who wants an event at all reads on the routine that drives the run. -/
theorem reading_of_take (hreader : reader.take ≠ some 0) (o : Orchestration) (stamp : RunStamp)
    (input : String) (w : World) :
    o.reading stamp reader input w =
      follow reader (o.drive stamp input w.clock (w.memory, .initial o.ids)) 0 0 := by
  have hunsatisfied : reader.satisfied 0 = false := by
    obtain ⟨cancelAt, take⟩ := reader
    cases take with
    | none => rfl
    | some n =>
      have hpos : n ≠ 0 := fun hzero => hreader (congrArg some hzero)
      simp [Reader.satisfied, hpos]
  rw [reading, hunsatisfied, if_neg Bool.false_ne_true]

theorem reading_keeps {P E : RunState → Prop} (stamp : RunStamp) (hreader : reader.take ≠ some 0)
    (hrun : (o.strategy.run o.members (.after w.clock.now o.timeout) input w.clock
      (w.memory, .initial o.ids)).Keeps Untouched (fun _ _ _ s => P s.2) (fun _ _ _ s _ => E s.2)
        w.clock (w.memory, .initial o.ids)) :
    (∀ x ∈ (o.reading stamp reader input w).waits, P x.state) ∧
      ∀ result, (o.reading stamp reader input w).result = some result →
        E (o.reading stamp reader input w).last.state := by
  have hdrive : (o.drive stamp input w.clock (w.memory, .initial o.ids)).Keeps Untouched
      (fun _ _ _ s => P s.2) (fun _ _ _ s _ => E s.2) w.clock (w.memory, .initial o.ids) :=
    (Progress.keeps_andThen (o.strategy.run o.members (.after w.clock.now o.timeout) input w.clock
      (w.memory, .initial o.ids)) _).mpr hrun
  rw [reading_of_take hreader]
  exact follow_keeps reader hdrive 0 0

/-- Rounds and calls of a run that came to a result began only while it might go on, and were
forgone only when it had to stop. -/
theorem reading_permitted (ho : o.Accepted) (stamp : RunStamp) {result : RunResult}
    (hresult : (o.reading stamp reader input w).result = some result) :
    ∀ e ∈ (o.reading stamp reader input w).last.state.journal.toList,
      e.Permitted (.after w.clock.now o.timeout) := by
  let deadline := Deadline.after w.clock.now o.timeout
  have hmeets := Strategy.meets_run (K := .permits deadline)
    (fun m _ => m.within_permits deadline) ho.works input w.clock (w.memory, .initial o.ids) rfl
  refine reading_invariant (I := fun r => ∀ e ∈ r.journal.toList, e.Permitted deadline) ho
    (by simp [RunState.initial]) ?_ stamp hresult
  exact hmeets.mono (fun _ _ h => h) (fun _ _ _ _ h => h) fun _ _ _ _ _ h => h.1

end Orchestration

end Ensemble
