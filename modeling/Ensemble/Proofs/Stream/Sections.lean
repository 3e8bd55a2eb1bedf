import Ensemble.Proofs.Stream.Views

/-!
# Calls between the marks of rounds

The begins and ends of rounds cut the events of a run into sections: one for the calls of each
round, and those between and behind them. `Sectioned` gives the calls of a run section by section,
in the order in which they settled, and the transcript and the results of the participants are made
of the calls of all sections.
-/

namespace Ensemble

/-! ## Sections of a stream -/

namespace Event

/-- Whether a round begins or ends. -/
def marks : Event → Bool
  | roundStart _ | roundEnd _ => true
  | _ => false

/-- The stretches of events that the begins and ends of rounds mark off. -/
def sections (events : List Event) : List (List Event) := events.splitOnP marks

theorem sections_mark {e : Event} (he : e.marks = true) (events : List Event) :
    sections (events ++ [e]) = sections events ++ [[]] :=
  List.splitOnP_append_cons events [] he

theorem exists_sections (events : List Event) : ∃ first rest, sections events = first :: rest :=
  List.exists_cons_of_ne_nil (List.splitOnP_ne_nil marks events)

theorem sections_cons_mark {e : Event} (he : e.marks = true) (events : List Event) :
    sections (e :: events) = [] :: sections events := by
  rw [sections, List.splitOnP_cons_eq_if_modifyHead, if_pos he, sections]

theorem sections_cons {e : Event} {events first : List Event} {rest : List (List Event)}
    (he : e.marks = false) (h : sections events = first :: rest) :
    sections (e :: events) = (e :: first) :: rest := by
  rw [sections] at h ⊢
  rw [List.splitOnP_cons_eq_if_modifyHead, he, if_neg Bool.false_ne_true, h, List.modifyHead_cons]

/-- Events that mark nothing off belong to the last section. -/
theorem sections_append {events more : List Event} {earlier : List (List Event)}
    {current : List Event} (h : sections events = earlier ++ [current])
    (hmore : ∀ e ∈ more, e.marks = false) :
    sections (events ++ more) = earlier ++ [current ++ more] := by
  induction events generalizing earlier current with
  | nil =>
    have hwhole : sections more = [more] := List.splitOnP_eq_singleton hmore
    cases earlier with
    | nil =>
      obtain rfl : [] = current := (List.cons.inj h).1
      exact hwhole
    | cons first earlier =>
      exact absurd (List.cons.inj h).2.symm (List.append_ne_nil_of_right_ne_nil earlier (by simp))
  | cons e events ih =>
    obtain ⟨first, rest, hsections⟩ := exists_sections events
    rw [List.cons_append]
    by_cases he : e.marks = true
    · rw [sections_cons_mark he] at h ⊢
      cases earlier with
      | nil =>
        rw [hsections] at h
        cases (List.cons.inj h).2
      | cons _ earlier =>
        obtain ⟨rfl, hrest⟩ := List.cons.inj h
        rw [ih hrest, List.cons_append]
    · have hplain : e.marks = false := eq_false_of_ne_true he
      rw [sections_cons hplain hsections] at h
      cases earlier with
      | nil =>
        obtain ⟨rfl, rfl⟩ := List.cons.inj h
        exact sections_cons hplain (@ih [] first hsections)
      | cons _ earlier =>
        obtain ⟨rfl, rfl⟩ := List.cons.inj h
        exact sections_cons hplain (@ih (first :: earlier) current hsections)

example : sections [.roundStart 0, .agentStart "a", .agentEnd "a", .roundEnd 0] =
    [[], [.agentStart "a", .agentEnd "a"], []] := rfl

/-- The calls that settle in the sections are those that settle at all. -/
theorem settlements_sections (events : List Event) :
    ((sections events).map (·.filterMap (·.settlement?))).flatten =
      events.filterMap (·.settlement?) := by
  induction events with
  | nil => rfl
  | cons e events ih =>
    by_cases he : e.marks = true
    · have hnone : e.settlement? = none := by cases e <;> first | rfl | cases he
      rw [sections_cons_mark he, List.filterMap_cons_none hnone, ← ih]
      rfl
    · obtain ⟨first, rest, hsections⟩ := exists_sections events
      rw [sections_cons (eq_false_of_ne_true he) hsections]
      rw [hsections, List.map_cons, List.flatten_cons] at ih
      rw [List.map_cons, List.flatten_cons, List.filterMap_cons, List.filterMap_cons, ← ih]
      cases e.settlement? <;> rfl

end Event

/-! ## Calls by sections -/

/-- What is left of a call that is over: who was called, with which message, and the answer. -/
structure CallRecord where
  id : String
  message : Message
  answer : Except String Message

namespace CallRecord

/-- The message that stands for an answer, or that records a failure. -/
def replyOf (id : String) : Except String Message → Message
  | .ok m => m
  | .error detail => .failure id detail

/-- The reply to the call, as the transcript has it. -/
def reply (r : CallRecord) : Message := replyOf r.id r.answer

/-- What the transcript shows of the call. -/
def exchange (r : CallRecord) : List Message := [r.message, r.reply]

/-- If nobody is called twice, the calls of any one participant do not show in which order all of
them were done. -/
theorem filter_id_eq {records records' : List CallRecord} (hperm : records.Perm records')
    (hunique : (records.map (·.id)).Nodup) (id : String) :
    records.filter (·.id = id) = records'.filter (·.id = id) := by
  have hdistinct : ∀ l : List CallRecord, (l.map (·.id)).Nodup →
      (l.filter (·.id = id)).Pairwise fun r r' => r.id ≠ r'.id := by
    intro l hl
    exact (List.pairwise_map.mp hl).sublist List.filter_sublist
  have hunique' : (records'.map (·.id)).Nodup := (hperm.map (·.id)).nodup_iff.mp hunique
  refine (hperm.filter _).eq_of_pairwise ?_ (hdistinct _ hunique) (hdistinct _ hunique')
  intro r r' hr hr' hne
  have hid := of_decide_eq_true (List.mem_filter.mp hr).2
  have hid' := of_decide_eq_true (List.mem_filter.mp hr').2
  exact absurd (hid.trans hid'.symm) hne

end CallRecord

/-- The record of a call. -/
def Call.record (c : Call) : CallRecord := ⟨c.id, c.dispatch.message, c.answer⟩

theorem Call.exchange_record (c : Call) : c.record.exchange = c.exchange := rfl

/-- Calls by the sections of a stream: the events settle them section by section, and the transcript
shows them in the same order, with nothing behind them but `coda`. -/
structure Sectioned (events : List Event) (messages : List Message)
    (groups : List (List CallRecord)) (coda : List Message) : Prop where
  settled : (Event.sections events).map (·.filterMap (·.settlement?)) =
    groups.map (·.map fun r => (r.id, r.answer))
  transcript : messages = groups.flatten.flatMap (·.exchange) ++ coda

/-- Calls mark nothing off. -/
theorem CallLog.marks_eq_false {pending : List Dispatch} {calls : List Call}
    {log : List Occurrence} (h : CallLog pending calls log) :
    ∀ e ∈ log.filterMap (·.event?), e.marks = false := by
  induction h with
  | start => simp
  | begun d _ ih => simpa [Occurrence.event?, or_imp, forall_and, Event.marks] using ih
  | skipped d _ ih => simpa [Occurrence.event?] using ih
  | settled c _ ih =>
    obtain ⟨d, answer⟩ := c
    cases answer <;>
      simpa [Occurrence.event?, or_imp, forall_and, Event.marks, Call.settlement] using ih
  | perm _ _ ih => exact ih

namespace Sectioned

variable {r r' : RunState} {earlier : List (List CallRecord)} {current : List CallRecord}

/-- A run that has just begun has one section, with no calls in it. -/
theorem initial (ids : List String) :
    Sectioned (RunState.initial ids).events (RunState.initial ids).messages.toList [[]] [] :=
  ⟨rfl, rfl⟩

/-- The begin or the end of a round opens a section. -/
theorem mark {groups : List (List CallRecord)}
    (h : Sectioned r.events r.messages.toList groups []) {o : Occurrence} {e : Event}
    (ho : o.event? = some e) (he : e.marks = true) (hgain : r.Gains [o] [] r') :
    Sectioned r'.events r'.messages.toList (groups ++ [[]]) [] where
  settled := by
    have hevents : r'.events = r.events ++ [e] := by
      rw [hgain.events, List.filterMap_cons_some ho, List.filterMap_nil]
    rw [hevents, Event.sections_mark he, List.map_append, List.map_append, h.settled]
    rfl
  transcript := by
    have hmessages : r'.messages.toList = r.messages.toList := by
      rw [hgain.messages, List.flatMap_nil, List.append_nil]
    rw [hmessages, h.transcript, List.flatten_append, List.flatten_singleton]
    simp only [List.append_nil]

/-- Calls belong to the last section. -/
theorem calls (h : Sectioned r.events r.messages.toList (earlier ++ [current]) [])
    {calls : List Call} {log : List Occurrence} (hlog : CallLog [] calls log)
    (hgain : r.Gains log calls r') :
    Sectioned r'.events r'.messages.toList (earlier ++ [current ++ calls.map (·.record)]) [] where
  settled := by
    have hsettled := h.settled
    rw [List.map_append] at hsettled
    obtain ⟨first, last, hsections, hfirst, hlast⟩ := List.map_eq_append_iff.mp hsettled
    obtain ⟨events, rfl, hevents⟩ := List.map_eq_singleton_iff.mp hlast
    have hmore : (log.filterMap (·.event?)).filterMap (·.settlement?) =
        (calls.map (·.record)).map fun r => (r.id, r.answer) := by
      rw [List.filterMap_filterMap, List.map_map]
      simp only [Occurrence.settlement?_event?]
      exact hlog.settled_eq
    rw [hgain.events, Event.sections_append hsections hlog.marks_eq_false]
    simp only [List.map_append, List.map_cons, List.map_nil, List.filterMap_append, hfirst, hevents,
      hmore]
  transcript := by
    have hexchange : calls.flatMap (·.exchange) = (calls.map (·.record)).flatMap (·.exchange) := by
      simp only [List.flatMap_map, Call.exchange_record]
    rw [hgain.messages, h.transcript, hexchange]
    simp only [List.append_nil, List.flatten_append, List.flatten_singleton, List.flatMap_append,
      List.append_assoc]

/-- The result that ends a stream belongs to the last section. -/
theorem complete {events : List Event} {messages coda : List Message}
    {groups : List (List CallRecord)} (h : Sectioned events messages groups coda)
    (result : RunResult) : Sectioned (events ++ [.complete result]) messages groups coda where
  settled := by
    obtain ⟨front, last, hsections⟩ : ∃ front last, Event.sections events = front ++ [last] :=
      (List.eq_nil_or_concat' _).resolve_left (List.splitOnP_ne_nil _ events)
    have hmore : ∀ e ∈ [Event.complete result], e.marks = false := by simp [Event.marks]
    rw [← h.settled, Event.sections_append hsections hmore, hsections]
    simp [Event.settlement?]
  transcript := h.transcript

/-- Each participant has the replies of its calls in all sections. -/
theorem results {strategy : Strategy} {members : List Member} {messages coda : List Message}
    {groups : List (List CallRecord)} (h : Sectioned r.events messages groups coda)
    (l : Ledger strategy members r) (hunique : (members.map (·.id)).Nodup) :
    r.results = AgentResults.table (members.map (·.id)) fun id =>
      (groups.flatten.filter (·.id = id)).map (·.reply) := by
  have hcalls : l.calls.map (fun c => (c.id, c.answer)) =
      groups.flatten.map fun r => (r.id, r.answer) := by
    rw [← l.settled_eq, List.map_flatten, ← h.settled, Event.settlements_sections,
      RunState.filterMap_events]
    simp only [Occurrence.settlement?_event?]
  rw [l.results_table hunique]
  refine congrArg (AgentResults.table _) (funext fun id => ?_)
  -- a reply is made of the name and the answer alone
  let filed (l : List (String × Except String Message)) : List Message :=
    (l.filter (·.1 = id)).map fun p => CallRecord.replyOf p.1 p.2
  have hof : ∀ calls : List Call, (calls.filter (·.id = id)).map (·.reply) =
      filed (calls.map fun c => (c.id, c.answer)) := by
    intro calls
    simp only [filed, List.filter_map, List.map_map]
    rfl
  have hof' : ∀ records : List CallRecord, (records.filter (·.id = id)).map (·.reply) =
      filed (records.map fun r => (r.id, r.answer)) := by
    intro records
    simp only [filed, List.filter_map, List.map_map]
    rfl
  rw [hof, hof', hcalls]

end Sectioned

end Ensemble
