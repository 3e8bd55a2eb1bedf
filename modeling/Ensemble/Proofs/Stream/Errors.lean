import Ensemble.Proofs.Stream.Ending
import Ensemble.Proofs.Stream.Sections

/-!
# Errors in the transcript

A failed call shows in the events as an error, and in the transcript as a message with the tag of
failures. No message that a run sends out has this tag, but replies and reductions are made by
others, who may set it as well: `errors_announced` says which messages of the transcript count as
errors, and that they are the failures that were announced exactly if nobody else has set the tag.
-/

namespace Ensemble

open Run

/-! ## Messages that are sent out -/

/-- No call has begun in a message that is tagged as a failure. -/
def RunState.Plain (r : RunState) : Prop :=
  ∀ begun ∈ r.occurrences.filterMap (·.begun?), begun.2.isError = false

/-- Nobody is asked in a message that is tagged as a failure. -/
def Guarantee.plain : Guarantee Scene :=
  ofRelation (fun s s' => s.2.Plain → s'.2.Plain) (fun _ h => h) fun h h' hs => h' (h hs)

theorem Run.custom_plain : Custom .plain where
  note {o c s} ho hs := by
    have hnoted : (noted o c s).2.occurrences = s.2.occurrences ++ [o] := by
      simp [noted, RunState.occurrences, entry]
    intro begun hbegun
    rw [hnoted, List.filterMap_append] at hbegun
    rcases List.mem_append.mp hbegun with hbegun | hbegun
    · exact hs begun hbegun
    · obtain ⟨o', ho', hsome⟩ := List.mem_filterMap.mp hbegun
      obtain rfl := List.mem_singleton.mp ho'
      cases o' with
      | callBegun id m =>
        cases hsome
        exact ho id m rfl
      | _ => cases hsome
  gather {c m r r'} hjournal _ hs := by
    have hsame : r'.occurrences = r.occurrences := by
      rw [RunState.occurrences, RunState.occurrences, hjournal]
    change r'.Plain
    unfold RunState.Plain
    rw [hsame]
    exact hs

theorem Run.posts_plain : Posts .plain := fun _ _ _ _ h => h

/-- At the end of a reading that came to a result, nobody has been asked in a message that is tagged
as a failure. -/
theorem Orchestration.reading_plain {o : Orchestration} (ho : o.Accepted) (stamp : RunStamp)
    (reader : Reader) (input : String) (w : World) {result : RunResult}
    (hresult : (o.reading stamp reader input w).result = some result) :
    (o.reading stamp reader input w).last.state.Plain := by
  have hstart : (RunState.initial o.ids).Plain := by
    intro begun hbegun
    cases hbegun
  have hrun : Does .plain (o.strategy.run o.members (.after w.clock.now o.timeout) input) :=
    Strategy.meets_custom (fun m _ => does_handle (fun _ _ _ _ h => h) m) custom_plain
      (fun _ => posts_plain) ho.works input
  refine reading_invariant ho hstart ?_ stamp hresult
  exact (hrun w.clock (w.memory, .initial o.ids) trivial).mono (fun _ _ _ => trivial)
    (fun _ _ _ _ h => h) fun _ _ _ _ _ h => h.1

/-! ## Messages that count as errors -/

/-- The messages of the transcript that count as errors are replies to calls and messages behind all
calls, in their order. -/
theorem Accounts.errors_eq {o : Orchestration} {r : RunState} {result : RunResult}
    {calls : List Call} {coda : List Message} (h : Accounts o r result calls coda)
    (hplain : r.Plain) :
    result.errors = (calls.map (·.reply)).filter (·.isError) ++ coda.filter (·.isError) := by
  have hsent : ∀ c ∈ calls, c.dispatch.message.isError = false := by
    intro c hc
    have hbegun : (c.id, c.dispatch.message) ∈ r.occurrences.filterMap (·.begun?) :=
      h.begun.mem_iff.mpr (List.mem_map.mpr ⟨c, hc, rfl⟩)
    exact hplain _ hbegun
  have hcalls : ∀ l : List Call, (∀ c ∈ l, c.dispatch.message.isError = false) →
      (l.flatMap (·.exchange)).filter (·.isError) = (l.map (·.reply)).filter (·.isError) := by
    intro l hl
    induction l with
    | nil => rfl
    | cons c l ih =>
      have hrest := ih fun c' hc' => hl c' (List.mem_cons_of_mem c hc')
      rw [List.flatMap_cons, List.filter_append, hrest,
        Call.exchange, List.filter_cons_of_neg (by simp [hl c List.mem_cons_self]), List.map_cons,
        ← List.filter_append]
      rfl
  rw [RunResult.errors, h.transcript, List.filter_append, hcalls calls hsent]

namespace Event

/-- The reply that an event announces, or the record of a failure. -/
def reply? (e : Event) : Option Message :=
  e.settlement?.map fun s => CallRecord.replyOf s.1 s.2

/-- The record of the failure that an event announces. -/
def failure? : Event → Option Message
  | error (some id) detail => some (.failure id detail)
  | _ => none

/-- The successful reply that an event announces. -/
def success? : Event → Option Message
  | message _ m => some m
  | _ => none

/-- An event announces nothing, a success or a failure. -/
theorem reply?_cases (e : Event) :
    (e.reply? = none ∧ e.failure? = none ∧ e.success? = none) ∨
    (∃ m, e.reply? = some m ∧ e.failure? = none ∧ e.success? = some m) ∨
    ∃ m, m.isError = true ∧ e.reply? = some m ∧ e.failure? = some m ∧ e.success? = none := by
  cases e with
  | message id m => exact .inr (.inl ⟨m, rfl, rfl, rfl⟩)
  | error id detail =>
    cases id with
    | none => exact .inl ⟨rfl, rfl, rfl⟩
    | some id => exact .inr (.inr ⟨_, Message.isError_failure id detail, rfl, rfl, rfl⟩)
  | agentStart _ | agentEnd _ | roundStart _ | roundEnd _ | complete _ => exact .inl ⟨rfl, rfl, rfl⟩

/-- Replies with the tag are failures, or successes that have it too. -/
theorem length_tagged (events : List Event) :
    ((events.filterMap (·.reply?)).filter (·.isError)).length =
      (events.filterMap (·.failure?)).length +
        ((events.filterMap (·.success?)).filter (·.isError)).length := by
  induction events with
  | nil => rfl
  | cons e events ih =>
    rcases e.reply?_cases with ⟨hr, hf, hs⟩ | ⟨m, hr, hf, hs⟩ | ⟨m, hm, hr, hf, hs⟩
    · rw [List.filterMap_cons_none hr, List.filterMap_cons_none hf, List.filterMap_cons_none hs, ih]
    · rw [List.filterMap_cons_some hr, List.filterMap_cons_none hf, List.filterMap_cons_some hs]
      by_cases hm : m.isError = true
      · rw [List.filter_cons_of_pos hm, List.filter_cons_of_pos hm, List.length_cons,
          List.length_cons, ih, Nat.add_assoc]
      · rw [List.filter_cons_of_neg hm, List.filter_cons_of_neg hm, ih]
    · rw [List.filterMap_cons_some hr, List.filterMap_cons_some hf, List.filterMap_cons_none hs,
        List.filter_cons_of_pos hm, List.length_cons, List.length_cons, ih, Nat.add_right_comm]

/-- If no success has the tag, the replies with the tag are the failures. -/
theorem tagged_eq {events : List Event}
    (h : (events.filterMap (·.success?)).filter (·.isError) = []) :
    (events.filterMap (·.reply?)).filter (·.isError) = events.filterMap (·.failure?) := by
  induction events with
  | nil => rfl
  | cons e events ih =>
    rcases e.reply?_cases with ⟨hr, hf, hs⟩ | ⟨m, hr, hf, hs⟩ | ⟨m, hm, hr, hf, hs⟩
    · rw [List.filterMap_cons_none hs] at h
      rw [List.filterMap_cons_none hr, List.filterMap_cons_none hf, ih h]
    · rw [List.filterMap_cons_some hs] at h
      have hm : ¬m.isError = true := List.filter_eq_nil_iff.mp h m List.mem_cons_self
      rw [List.filter_cons_of_neg hm] at h
      rw [List.filterMap_cons_some hr, List.filterMap_cons_none hf, List.filter_cons_of_neg hm,
        ih h]
    · rw [List.filterMap_cons_none hs] at h
      rw [List.filterMap_cons_some hr, List.filterMap_cons_some hf, List.filter_cons_of_pos hm,
        ih h]

end Event

namespace Orchestration

/-- **What counts as an error** in the transcript of a run that is read to its end: each failure
that was announced, by the participant that failed and with its text, and besides them only replies
and reductions that are tagged as failures themselves, in the order in which they came. So the
errors are the announced failures, one by one, if and only if no successful reply and no reduction
has the tag. -/
theorem errors_announced {members : List Member} {options : Options} {o : Orchestration}
    (h : build members options = .ok o) (stamp : RunStamp) {reader : Reader}
    (hreader : reader.take = none) (input : String) (w : World) :
    ∃ result announced coda,
      (o.stream stamp reader input w).2 = announced ++ [.complete result] ∧
      o.strategy.Coda coda ∧
      result.errors = (announced.filterMap (·.reply?)).filter (·.isError) ++
        coda.filter (·.isError) ∧
      (result.errors = announced.filterMap (·.failure?) ↔
        (announced.filterMap (·.success?)).filter (·.isError) = [] ∧
          coda.filter (·.isError) = []) := by
  obtain ⟨ho, -⟩ := accepted_of_build h
  obtain ⟨result, m, hresult, hevents, hfinished⟩ := reading_to_end ho stamp hreader input w
  obtain ⟨calls, coda, haccounts⟩ := hfinished.accounts ho
  have hplain := reading_plain ho stamp reader input w hresult
  let announced := (o.reading stamp reader input w).last.state.events
  have hreplies : announced.filterMap (·.reply?) = calls.map (·.reply) := by
    have hsettled : announced.filterMap (·.reply?) = (announced.filterMap (·.settlement?)).map
        fun s => CallRecord.replyOf s.1 s.2 := List.map_filterMap.symm
    rw [hsettled, haccounts.settlements_eq, List.map_map]
    rfl
  have herrors : result.errors =
      (announced.filterMap (·.reply?)).filter (·.isError) ++ coda.filter (·.isError) := by
    rw [hreplies]
    exact haccounts.errors_eq hplain
  refine ⟨result, announced, coda, ?_, haccounts.closes, herrors, ?_, ?_⟩
  · rw [stream_eq_reading, hevents]
  · intro hequal
    have hlength := congrArg List.length hequal
    rw [herrors, List.length_append, Event.length_tagged] at hlength
    constructor
    · exact List.length_eq_zero_iff.mp (by omega)
    · exact List.length_eq_zero_iff.mp (by omega)
  · rintro ⟨hsuccesses, hcoda⟩
    rw [herrors, hcoda, List.append_nil, Event.tagged_eq hsuccesses]

/-- A reply that may be tagged as a failure. -/
def doubt (tagged : Bool) : Message :=
  (Message.plain "glad" "fine").withMetadata "error" (.bool tagged)

/-- One that replies, and one that fails. -/
def doubtful (tagged : Bool) : Except Error Orchestration :=
  ofParticipants
    [.simple ⟨"glad", "", ""⟩ fun _ _ => { outcome := .ok (doubt tagged) },
      .simple ⟨"sad", "", ""⟩ fun _ _ => { outcome := .error "no" }]
    { pattern := .pipeline {} }

/-- With a reply that is not tagged, the failure is the only error. -/
theorem errors_announced_doubtful :
    ∃ o, doubtful false = .ok o ∧ ∃ result announced,
      (o.stream default {} "go" .fresh).2 = announced ++ [.complete result] ∧
      result.errors = announced.filterMap (·.failure?) := by
  obtain ⟨o, h⟩ : ∃ o, doubtful false = .ok o := ⟨_, rfl⟩
  obtain ⟨result, announced, coda, hstream, hcoda, -, hiff⟩ :=
    errors_announced h default (show Reader.take {} = none from rfl) "go" .fresh
  have hnone : ((o.stream default {} "go" .fresh).2.filterMap (·.success?)).filter (·.isError) =
      [] := by
    refine List.length_eq_zero_iff.mp ?_
    cases h
    decide +kernel
  have hsuccesses : (announced.filterMap (·.success?)).filter (·.isError) = [] := by
    rw [hstream, List.filterMap_append, List.filter_append] at hnone
    exact (List.append_eq_nil_iff.mp hnone).1
  have hempty : coda = [] := by
    cases h
    exact hcoda
  refine ⟨o, h, result, announced, hstream, hiff.mpr ⟨hsuccesses, ?_⟩⟩
  rw [hempty]
  rfl

/-- A successful reply that is tagged as a failure counts as an error, though none is announced. -/
theorem errors_unannounced :
    ∃ o, doubtful true = .ok o ∧
      (o.execute default "go" .fresh).2.errors.map (·.content) = ["fine", "no"] ∧
      ((o.stream default {} "go" .fresh).2.filterMap (·.failure?)).map (·.content) = ["no"] := by
  obtain ⟨o, h⟩ : ∃ o, doubtful true = .ok o := ⟨_, rfl⟩
  refine ⟨o, h, ?_⟩
  cases h
  decide +kernel

end Orchestration

end Ensemble
