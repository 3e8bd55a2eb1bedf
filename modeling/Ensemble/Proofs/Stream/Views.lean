import Ensemble.Proofs.Stream.Grammar

/-!
# Three views of the calls of a run

A run shows its calls three times: in the transcript, among the results of each participant, and in
the events. `Accounts` says how the first two are made of a list of calls, those that were begun,
in the order in which they settled, and `views_agree` that the events are made of the same list.
What was skipped is in none of the three.
-/

namespace Ensemble

namespace AgentResults

/-- One entry per id, with the replies given. -/
def table (ids : List String) (replies : String → List Message) : AgentResults :=
  ⟨ids.map fun id => ⟨id, replies id⟩⟩

theorem pushEntry_table {ids : List String} (hnodup : ids.Nodup) {id : String} (hid : id ∈ ids)
    (m : Message) (replies : String → List Message) :
    pushEntry id m (table ids replies).entries =
      (table ids fun x => if x = id then replies x ++ [m] else replies x).entries := by
  induction ids with
  | nil => cases hid
  | cons x ids ih =>
    obtain ⟨hx, hnodup⟩ := List.nodup_cons.mp hnodup
    simp only [table, List.map_cons, pushEntry]
    split
    · next heq =>
      subst heq
      -- the other entries are those of other participants
      refine congrArg (_ :: ·) (List.map_congr_left fun y hy => ?_)
      have hne : y ≠ x := fun h => hx (h ▸ hy)
      simp only [hne, if_false]
    · next hne =>
      have hmem : id ∈ ids := (List.mem_cons.mp hid).resolve_left fun h => hne h.symm
      exact congrArg (_ :: ·) (ih hnodup hmem)

/-- Replies that come one after the other are filed under whom they are pushed for, in their
order. -/
theorem foldl_push {ids : List String} (hnodup : ids.Nodup) {calls : List Call}
    (hcalls : ∀ c ∈ calls, c.id ∈ ids) (replies : String → List Message) :
    calls.foldl (fun l c => l.push c.id c.reply) (table ids replies) =
      table ids fun id => replies id ++ (calls.filter (·.id = id)).map (·.reply) := by
  induction calls generalizing replies with
  | nil => simp
  | cons c calls ih =>
    have hc : (table ids replies).push c.id c.reply =
        table ids fun id => if id = c.id then replies id ++ [c.reply] else replies id :=
      congrArg AgentResults.mk (pushEntry_table hnodup (hcalls c List.mem_cons_self) _ _)
    rw [List.foldl_cons, hc, ih fun c' hc' => hcalls c' (List.mem_cons_of_mem c hc')]
    refine congrArg (table ids) (funext fun id => ?_)
    by_cases h : id = c.id
    · simp [h]
    · simp [h, Ne.symm h]

end AgentResults

/-! ## Events of calls -/

theorem Occurrence.started?_event? (o : Occurrence) :
    o.event?.bind (·.started?) = o.begun?.map (·.1) := by
  cases o <;> rfl

theorem Occurrence.settlement?_event? (o : Occurrence) :
    o.event?.bind (·.settlement?) = o.settled? := by
  cases o <;> rfl

theorem RunState.filterMap_events {α : Type} (f : Event → Option α) (r : RunState) :
    r.events.filterMap f = r.occurrences.filterMap fun o => o.event?.bind f := by
  rw [events, occurrences, List.filterMap_filterMap, List.filterMap_map]
  rfl

theorem RunState.events_eq (r : RunState) : r.events = r.occurrences.filterMap (·.event?) := by
  rw [events, occurrences, List.filterMap_map]
  rfl

theorem RunState.Gains.events {log : List Occurrence} {calls : List Call} {r r' : RunState}
    (h : Gains log calls r r') : r'.events = r.events ++ log.filterMap (·.event?) := by
  rw [events_eq, events_eq, h.occurrences, List.filterMap_append]

namespace Ledger

variable {strategy : Strategy} {members : List Member} {r : RunState}

/-- The calls of the ledger are those that the journal reports as begun. -/
theorem begun_perm (l : Ledger strategy members r) :
    (r.occurrences.filterMap (·.begun?)).Perm
      (l.calls.map fun c => (c.id, c.dispatch.message)) := by
  have hverdict := l.behind.callLog.begun_perm
  rw [List.nil_append, List.map_map] at hverdict
  rw [l.occurrences, List.filterMap_append, calls, List.map_append]
  exact l.inRounds.begun_perm.append hverdict

/-- The calls of the ledger are those that the journal reports as settled, in this order. -/
theorem settled_eq (l : Ledger strategy members r) :
    r.occurrences.filterMap (·.settled?) = l.calls.map fun c => (c.id, c.answer) := by
  rw [l.occurrences, List.filterMap_append, l.inRounds.settled_eq, l.behind.callLog.settled_eq,
    calls, List.map_append]

/-- Each participant has the replies of the calls that were made of it. -/
theorem results_table (l : Ledger strategy members r) (hnodup : (members.map (·.id)).Nodup) :
    r.results = AgentResults.table (members.map (·.id)) fun id =>
      (l.calls.filter (·.id = id)).map (·.reply) := by
  have hcalls : ∀ c ∈ l.calls, c.id ∈ members.map (·.id) := fun c hc =>
    List.mem_map.mpr ⟨c.dispatch.member, (l.addressed c hc).1, rfl⟩
  exact l.results.trans (AgentResults.foldl_push hnodup hcalls fun _ => [])

/-- Each participant has the replies to the messages addressed to it. -/
theorem results_eq (l : Ledger strategy members r) (hnodup : (members.map (·.id)).Nodup) :
    r.results.entries = members.map fun m =>
      ⟨m.id, (l.calls.filter (·.dispatch.message.recipient = some m.id)).map (·.reply)⟩ := by
  rw [l.results_table hnodup]
  simp only [AgentResults.table, List.map_map]
  refine List.map_congr_left fun m _ => ?_
  -- a call's message is addressed to the participant that was called
  have hfilter : l.calls.filter (·.id = m.id) =
      l.calls.filter (·.dispatch.message.recipient = some m.id) :=
    List.filter_congr fun c hc => by
      rw [decide_eq_decide, (l.addressed c hc).2, Option.some_inj]
      exact Iff.rfl
  simp only [Function.comp_apply, hfilter]

end Ledger

/-- How the books and the result of a run account for its calls: the calls that were begun are those
that have settled, and transcript and results are made of them. -/
structure Accounts (o : Orchestration) (r : RunState) (result : RunResult) (calls : List Call)
    (coda : List Message) : Prop where
  begun : (r.occurrences.filterMap (·.begun?)).Perm
    (calls.map fun c => (c.id, c.dispatch.message))
  settled : r.occurrences.filterMap (·.settled?) = calls.map fun c => (c.id, c.answer)
  /-- Members were called, in messages addressed to them. -/
  addressed : ∀ c ∈ calls, c.dispatch.For o.members
  /-- Message and reply of each call stand side by side. -/
  transcript : result.messages = calls.flatMap (·.exchange) ++ coda
  closes : o.strategy.Coda coda
  /-- Each participant has the replies to the messages addressed to it. -/
  results : result.agentResults.entries = o.members.map fun m =>
    ⟨m.id, (calls.filter (·.dispatch.message.recipient = some m.id)).map (·.reply)⟩

/-- The calls of a run that is over are accounted for. -/
theorem Orchestration.Finished.accounts {o : Orchestration} (ho : o.Accepted) {started : Nat}
    {c : Clock} {s : Scene} {result : RunResult} (h : o.Finished started c s result) :
    ∃ calls coda, Accounts o s.2 result calls coda := by
  obtain ⟨ledger⟩ := h.ledger
  refine ⟨ledger.calls, ledger.coda, ledger.begun_perm, ledger.settled_eq, ledger.addressed, ?_,
    ledger.closes, ?_⟩
  · exact h.messages.trans ledger.messages
  · rw [h.agentResults, ledger.results_eq ho.unique]

namespace Accounts

variable {o : Orchestration} {r : RunState} {result : RunResult} {calls : List Call}
  {coda : List Message}

/-- The events begin the same calls. -/
theorem started_perm (h : Accounts o r result calls coda) :
    (r.events.filterMap (·.started?)).Perm (calls.map (·.id)) := by
  have hbegun := h.begun.map (·.1)
  rw [List.map_filterMap, List.map_map] at hbegun
  simp only [RunState.filterMap_events, Occurrence.started?_event?]
  exact hbegun

/-- The events settle the same calls, in the same order. -/
theorem settlements_eq (h : Accounts o r result calls coda) :
    r.events.filterMap (·.settlement?) = calls.map fun c => (c.id, c.answer) := by
  simp only [RunState.filterMap_events, Occurrence.settlement?_event?]
  exact h.settled

end Accounts

/-- **Transcript, results and events are three views of the same calls**, which are the calls that
were begun. The transcript has the message and the reply of each, and nothing behind them but the
message of a reduction; the events settle them in the same order, with the reply itself or the text
of the failure; and every participant has its replies, whoever they claim to be from. -/
theorem Orchestration.views_agree {members : List Member} {options : Options}
    {o : Orchestration} (h : build members options = .ok o) (stamp : RunStamp) {reader : Reader}
    (hreader : reader.take = none) (input : String) (w : World) :
    ∃ result announced calls coda,
      o.members = members ∧
      (o.stream stamp reader input w).2 = announced ++ [.complete result] ∧
      Accounts o (o.reading stamp reader input w).last.state result calls coda ∧
      (announced.filterMap (·.started?)).Perm (calls.map (·.id)) ∧
      announced.filterMap (·.settlement?) = calls.map (fun c => (c.id, c.answer)) := by
  obtain ⟨ho, hmembers⟩ := accepted_of_build h
  obtain ⟨result, m, -, hevents, hfinished⟩ := reading_to_end ho stamp hreader input w
  obtain ⟨calls, coda, haccounts⟩ := hfinished.accounts ho
  refine ⟨result, _, calls, coda, hmembers, ?_, haccounts, haccounts.started_perm,
    haccounts.settlements_eq⟩
  rw [stream_eq_reading, hevents]

theorem Orchestration.views_agree_hearing :
    ∃ o, hearing = .ok o ∧ ∃ result announced calls coda,
      o.ids = ["pro", "con", "judge"] ∧
      (o.stream default { cancelAt := some 12 } "motion" .fresh).2 =
        announced ++ [.complete result] ∧
      Accounts o (o.reading default { cancelAt := some 12 } "motion" .fresh).last.state result calls
        coda ∧
      (announced.filterMap (·.started?)).Perm (calls.map (·.id)) ∧
      announced.filterMap (·.settlement?) = calls.map (fun c => (c.id, c.answer)) := by
  obtain ⟨o, h⟩ : ∃ o, hearing = .ok o := ⟨_, rfl⟩
  obtain ⟨result, announced, calls, coda, hmembers, hviews⟩ :=
    views_agree h default (show Reader.take { cancelAt := some 12 } = none from rfl) "motion" .fresh
  have hids : o.ids = ["pro", "con", "judge"] := by
    rw [ids, hmembers]
    rfl
  exact ⟨o, h, result, announced, calls, coda, hids, hviews⟩

end Ensemble
