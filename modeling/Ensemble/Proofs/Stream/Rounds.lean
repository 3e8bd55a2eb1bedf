import Ensemble.Proofs.Run.Rounds
import Ensemble.Proofs.Stream.Ending
import Ensemble.Proofs.Stream.Views

/-!
# Rounds as they are shown

A run that is told by its rounds shows them to the reader of its events and in its transcript:
`Shown` says how. The calls of a run are not made up, then: each round that is announced has its own
group of them, which begin and settle between the two ends of the round.
-/

namespace Ensemble

/-- The events of a round in which the calls given were made, listed in the order in which they
settled. -/
structure Event.Reports (body : List Event) (group : List Call) : Prop where
  complete : CallEvents [] body
  started : (body.filterMap (·.started?)).Perm (group.map (·.id))
  settled : body.filterMap (·.settlement?) = group.map fun c => (c.id, c.answer)

/-- The events and the transcript of rounds with the calls given. -/
structure Shown (announced : List Event) (messages : List Message) (groups : List (List Call)) :
    Prop where
  rounds : ∃ bodies, announced = Event.rounds bodies ∧ List.Forall₂ Event.Reports bodies groups
  transcript : messages = groups.flatten.flatMap (·.exchange)

theorem CallLog.reports {group : List Call} {body : List Occurrence} (h : CallLog [] group body) :
    Event.Reports (body.filterMap (·.event?)) group where
  complete := h.callEvents
  started := by
    have hbegun := h.begun_perm.map (·.1)
    rw [List.nil_append, List.map_map, List.map_map, List.map_filterMap] at hbegun
    simp only [List.filterMap_filterMap, Occurrence.started?_event?]
    exact hbegun
  settled := by
    simp only [List.filterMap_filterMap, Occurrence.settlement?_event?]
    exact h.settled_eq

theorem Grouped.events {groups : List (List Call)} {log : List Occurrence}
    (h : Grouped groups log) :
    ∃ bodies, log.filterMap (·.event?) = Event.rounds bodies ∧
      List.Forall₂ Event.Reports bodies groups := by
  induction h with
  | start => exact ⟨[], rfl, .nil⟩
  | refused n _ ih =>
    obtain ⟨bodies, hevents, hreports⟩ := ih
    refine ⟨bodies, ?_, hreports⟩
    rw [List.filterMap_append, hevents]
    exact List.append_nil _
  | @round groups log group body _ hbody ih =>
    obtain ⟨bodies, hevents, hreports⟩ := ih
    refine ⟨bodies ++ [body.filterMap (·.event?)], ?_, ?_⟩
    · rw [← hreports.length_eq]
      exact Event.rounds_of_log hevents
    · exact List.rel_append hreports (.cons hbody.reports .nil)

/-- What a run between two rounds has shown so far. -/
theorem Chronicle.shown {ids : List String} {groups : List (List Call)} {r : RunState}
    (h : Chronicle ids groups r) :
    Shown r.events r.messages.toList groups ∧ r.rounds = groups.length := by
  obtain ⟨log, hlog, hgain⟩ := h
  obtain ⟨bodies, hevents, hreports⟩ := hlog.events
  refine ⟨⟨⟨bodies, ?_, hreports⟩, ?_⟩, ?_⟩
  · rw [RunState.events_eq, hgain.occurrences, List.filterMap_append, hevents]
    rfl
  · exact hgain.messages
  · rw [hgain.rounds, hlog.roundLog.countP_beginsRound]
    exact Nat.zero_add _

/-- What the reading of a run that has told its rounds to the end shows. -/
theorem Orchestration.shows_rounds {o : Orchestration} {stamp : RunStamp} {reader : Reader}
    {input : String} {w : World} {result : RunResult} {legs : List Leg}
    (hends : (o.reading stamp reader input w).Ends result)
    (hfollowed : Followed o.ids [] legs (o.reading stamp reader input w).last.state) :
    (o.stream stamp reader input w).2 =
        (o.reading stamp reader input w).last.state.events ++ [.complete result] ∧
      (reader = {} → (o.execute stamp input w).2 = result) ∧
      result.rounds = legs.length ∧
      Shown (o.reading stamp reader input w).last.state.events result.messages
        (legs.map (·.calls)) := by
  obtain ⟨hshown, hrounds⟩ := hfollowed.told.shown
  refine ⟨stream_of_ends hends, ?_, ?_, ?_⟩
  · rintro rfl
    exact execute_of_ends hends
  · rw [hends.rounds, hrounds, List.nil_append, List.length_map]
  · rw [hends.messages]
    exact hshown

end Ensemble
