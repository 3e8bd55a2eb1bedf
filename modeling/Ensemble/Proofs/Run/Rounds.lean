import Ensemble.Proofs.Run.Advance
import Mathlib.Data.List.Nodup

/-!
# Runs told by their rounds

Where a round depends on what the rounds before it came to, a run is told round by round: by the
calls of each, in the order in which they settled. `Chronicle` is a run between two rounds and
`Midway` one in the middle of a round. What a round hands on to the next one are its successful
replies; `Dealt.replies_eq` says that these stand in the order in which the participants were asked,
whatever the order in which they replied. Where it matters when a round was over, a run is
`Followed` by its `Leg`s.
-/

namespace Ensemble

/-! ## Replies of a round -/

namespace Call

/-- The reply, if the call succeeded. -/
def success? (c : Call) : Option Message :=
  match c.answer with
  | .ok m => some m
  | .error _ => none

/-- The reply, if the call succeeded, with the id of who gave it. -/
def given? (c : Call) : Option (String × Message) := c.success?.map fun m => (c.id, m)

end Call

/-- The reply of a participant in a round with the calls given, if it was called and succeeded. -/
def reply? (group : List Call) (id : String) : Option Message :=
  (group.find? (·.id = id)).bind (·.success?)

/-- The successful replies of a round with the calls given, in the order of the ids. -/
def replies (ids : List String) (group : List Call) : List (String × Message) :=
  ids.filterMap fun id => (reply? group id).map fun m => (id, m)

@[simp] theorem replies_nil (ids : List String) : replies ids [] = [] := by
  simp [replies, reply?]

theorem reply?_of_mem {group : List Call} (hunique : (group.map (·.id)).Nodup) {c : Call}
    (hc : c ∈ group) : reply? group c.id = c.success? := by
  have hfind : group.find? (·.id = c.id) = some c := by
    cases h : group.find? (·.id = c.id) with
    | none => simpa using List.find?_eq_none.mp h c hc
    | some c' =>
      have hid : c'.id = c.id := by simpa using List.find?_some h
      rw [List.inj_on_of_nodup_map hunique (List.mem_of_find?_eq_some h) hc hid]
  rw [reply?, hfind, Option.bind_some]

namespace Settled

theorem response?_eq (a : Settled) : a.response? = a.call?.bind (·.given?) := by
  obtain ⟨n, d, o⟩ := a
  cases o <;> rfl

theorem id_of_call? {a : Settled} {c : Call} (h : a.call? = some c) : c.id = a.id :=
  congrArg (·.member.id) (dispatch_of_call? h)

theorem isSkipped_eq_true {a : Settled} : a.outcome.isSkipped = true ↔ a.call? = none := by
  obtain ⟨n, d, o⟩ := a
  cases o <;> simp [call?, Outcome.isSkipped]

/-- Everything was skipped if no call was made. -/
theorem all_isSkipped {done : List Settled} :
    done.all (·.outcome.isSkipped) = true ↔ done.filterMap (·.call?) = [] := by
  simp only [List.all_eq_true, List.filterMap_eq_nil_iff, isSkipped_eq_true]

end Settled

namespace Run

namespace Dealt

variable {plan : List Dispatch} {r₀ r : RunState} {done : List Settled}

theorem ids_perm (h : Dealt plan r₀ done r) :
    (done.map (·.id)).Perm (plan.map (·.member.id)) := by
  have hids := h.all.map fun p => p.1.member.id
  rw [List.map_map] at hids
  rw [← List.zipIdx_map_fst 0 plan, List.map_map]
  exact hids

/-- Nobody is called twice who is not asked twice. -/
theorem unique (h : Dealt plan r₀ done r) (hunique : (plan.map (·.member.id)).Nodup) :
    ((done.filterMap (·.call?)).map (·.id)).Nodup := by
  have hdone : (done.map (·.id)).Nodup := h.ids_perm.nodup_iff.mpr hunique
  refine List.pairwise_map.mpr (List.pairwise_filterMap.mpr ?_)
  refine (List.pairwise_map.mp hdone).imp fun hne c hc c' hc' hsame => hne ?_
  rw [← Settled.id_of_call? hc, ← Settled.id_of_call? hc', hsame]

/-- A participant has the reply of its call. -/
theorem reply?_eq (h : Dealt plan r₀ done r) (hunique : (plan.map (·.member.id)).Nodup)
    {a : Settled} (ha : a ∈ done) :
    reply? (done.filterMap (·.call?)) a.id = a.call?.bind (·.success?) := by
  cases hcall : a.call? with
  | some c =>
    have hc : c ∈ done.filterMap (·.call?) := List.mem_filterMap.mpr ⟨a, ha, hcall⟩
    rw [← Settled.id_of_call? hcall, reply?_of_mem (h.unique hunique) hc, Option.bind_some]
  | none =>
    have hnone : (done.filterMap (·.call?)).find? (·.id = a.id) = none := by
      refine List.find?_eq_none.mpr fun c hc => ?_
      obtain ⟨a', ha', hcall'⟩ := List.mem_filterMap.mp hc
      intro hid
      have hsame : a'.id = a.id := by
        rw [← Settled.id_of_call? hcall']
        exact of_decide_eq_true hid
      have hdone : (done.map (·.id)).Nodup := h.ids_perm.nodup_iff.mpr hunique
      rw [List.inj_on_of_nodup_map hdone ha' ha hsame, hcall] at hcall'
      cases hcall'
    rw [reply?, hnone]

/-- **The replies of a round** stand in the order in which it was planned. -/
theorem replies_eq (h : Dealt plan r₀ done r) (hunique : (plan.map (·.member.id)).Nodup) :
    (Run.inOrder done).filterMap (·.response?) =
      replies (plan.map (·.member.id)) (done.filterMap (·.call?)) := by
  have hids : (Run.inOrder done).map (·.id) = plan.map (·.member.id) := by
    have hplan := congrArg (List.map fun p => p.1.member.id) h.inOrder_eq
    rw [List.map_map] at hplan
    rw [← List.zipIdx_map_fst 0 plan, List.map_map]
    exact hplan
  rw [replies, ← hids, List.filterMap_map]
  refine List.filterMap_congr fun a ha => ?_
  have hdone : a ∈ done := (List.mergeSort_perm done _).mem_iff.mp ha
  rw [Function.comp_apply, h.reply?_eq hunique hdone, Settled.response?_eq]
  cases hcall : a.call? with
  | none => rfl
  | some c => simp [Call.given?, Settled.id_of_call? hcall]

/-- They are the replies of the calls, in another order. -/
theorem replies_perm (h : Dealt plan r₀ done r) (hunique : (plan.map (·.member.id)).Nodup) :
    (replies (plan.map (·.member.id)) (done.filterMap (·.call?))).Perm
      ((done.filterMap (·.call?)).filterMap (·.given?)) := by
  rw [← h.replies_eq hunique, List.filterMap_filterMap]
  simp only [← Settled.response?_eq]
  exact (List.mergeSort_perm done _).filterMap _

/-- If nothing has been forgone, the calls that were made are those that were planned. -/
theorem all_made (h : Dealt plan r₀ done r) (hforgone : ¬r.Forgone) :
    ((done.filterMap (·.call?)).map (·.dispatch)).Perm plan := by
  obtain ⟨log, hlog, hgain⟩ := h.log
  have hmade : ∀ a ∈ done, (a.call?.map (·.dispatch)) = some a.dispatch := by
    intro a ha
    cases hcall : a.call? with
    | some c => rw [Option.map_some, Settled.dispatch_of_call? hcall]
    | none =>
      obtain ⟨o, ho, hforgoes⟩ := hlog.forgoes ha hcall
      exact absurd (hgain.forgone ho hforgoes) hforgone
  have hplan := h.all.map Prod.fst
  rw [List.map_map, List.zipIdx_map_fst] at hplan
  rw [List.map_filterMap, List.filterMap_congr hmade, List.filterMap_eq_map']
  exact hplan

/-- If nothing has been forgone, everyone who was planned was called. -/
theorem all_called (h : Dealt plan r₀ done r) (hforgone : ¬r.Forgone) :
    ((done.filterMap (·.call?)).map (·.id)).Perm (plan.map (·.member.id)) := by
  have hmade := (h.all_made hforgone).map (·.member.id)
  rw [List.map_map] at hmade
  exact hmade

end Dealt

end Run

/-! ## Journals of rounds -/

/-- The journals of rounds, with the calls of each. -/
inductive Grouped : (groups : List (List Call)) → List Occurrence → Prop where
  | start : Grouped [] []
  | refused {groups log} (n : Nat) : Grouped groups log → Grouped groups (log ++ [.roundRefused n])
  | round {groups log group body} : Grouped groups log → CallLog [] group body →
      Grouped (groups ++ [group])
        (log ++ .roundBegun groups.length :: (body ++ [.roundEnded groups.length]))

theorem Grouped.roundLog {groups : List (List Call)} {log : List Occurrence}
    (h : Grouped groups log) : RoundLog groups.length groups.flatten log := by
  induction h with
  | start => exact .start
  | refused n _ ih => exact .refused n ih
  | round _ hbody ih =>
    rw [List.length_append, List.flatten_append, List.flatten_singleton]
    exact .round ih hbody

/-- A run of participants with the ids given that has taken rounds with these calls and is between
two rounds. -/
def Chronicle (ids : List String) (groups : List (List Call)) (r : RunState) : Prop :=
  ∃ log, Grouped groups log ∧ (RunState.initial ids).Gains log groups.flatten r

/-- A run in the middle of a round, of which the calls given are over and no others are underway. -/
def Midway (ids : List String) (groups : List (List Call)) (group : List Call) (r : RunState) :
    Prop :=
  ∃ log body, Grouped groups log ∧ CallLog [] group body ∧
    (RunState.initial ids).Gains (log ++ .roundBegun groups.length :: body)
      (groups.flatten ++ group) r

section

variable {ids : List String} {groups : List (List Call)} {group : List Call} {r r' : RunState}

theorem chronicle_initial (ids : List String) : Chronicle ids [] (.initial ids) :=
  ⟨[], .start, .refl _⟩

theorem Chronicle.refused (h : Chronicle ids groups r) {n : Nat}
    (hgain : r.Gains [.roundRefused n] [] r') : Chronicle ids groups r' := by
  obtain ⟨log, hlog, htold⟩ := h
  have hgain' := htold.trans hgain
  rw [List.append_nil] at hgain'
  exact ⟨_, .refused n hlog, hgain'⟩

theorem Chronicle.begun (h : Chronicle ids groups r)
    (hgain : r.Gains [.roundBegun groups.length] [] r') : Midway ids groups [] r' := by
  obtain ⟨log, hlog, htold⟩ := h
  exact ⟨log, [], hlog, .start, htold.trans hgain⟩

theorem Midway.calls {calls : List Call} {log : List Occurrence} (h : Midway ids groups group r)
    (hlog : CallLog [] calls log) (hgain : r.Gains log calls r') :
    Midway ids groups (group ++ calls) r' := by
  obtain ⟨log₁, body, hlog₁, hbody, hmidway⟩ := h
  refine ⟨log₁, body ++ log, hlog₁, hbody.append hlog, ?_⟩
  have hgain' := hmidway.trans hgain
  rwa [List.append_assoc, List.cons_append, List.append_assoc] at hgain'

theorem Midway.ended (h : Midway ids groups group r)
    (hgain : r.Gains [.roundEnded groups.length] [] r') :
    Chronicle ids (groups ++ [group]) r' := by
  obtain ⟨log, body, hlog, hbody, hmidway⟩ := h
  refine ⟨_, .round hlog hbody, ?_⟩
  have hgain' := hmidway.trans hgain
  rw [List.append_nil, List.append_assoc, List.cons_append] at hgain'
  rwa [List.flatten_append, List.flatten_singleton]

/-- Books that differ in the blackboard only tell the same. -/
theorem Chronicle.posted (h : Chronicle ids groups r) (board : Metadata) :
    Chronicle ids groups { r with blackboard := board } := by
  obtain ⟨log, hlog, hgain⟩ := h
  exact ⟨log, hlog, ⟨hgain.1, hgain.2, hgain.3, hgain.4⟩⟩

theorem Midway.posted (h : Midway ids groups group r) (board : Metadata) :
    Midway ids groups group { r with blackboard := board } := by
  obtain ⟨log, body, hlog, hbody, hgain⟩ := h
  exact ⟨log, body, hlog, hbody, ⟨hgain.1, hgain.2, hgain.3, hgain.4⟩⟩

/-! ## Rounds one after the other -/

/-- A round as it took place: the calls that were made, and the instant at which it was over. -/
structure Leg where
  calls : List Call
  close : Instant

/-- What the journal says of the end of the round. -/
def Leg.mark (l : Leg) (round : Nat) : Entry :=
  ⟨.roundEnded round, l.close.moment, l.close.cancelled⟩

theorem Leg.mark_mem (calls : List Call) (round : Nat) (c : Clock) (s : Scene) :
    (Leg.mark ⟨calls, Run.instant c s.1⟩ round) ∈
      (Run.noted (.roundEnded round) c s).2.journal.toList := by
  simp [Run.noted, Leg.mark, Run.entry, Run.instant]

/-- The books of a run that has taken rounds with the calls given and then some more. -/
structure Followed (ids : List String) (groups : List (List Call)) (legs : List Leg)
    (r : RunState) : Prop where
  told : Chronicle ids (groups ++ legs.map (·.calls)) r
  marks : ∀ i (l : Leg), legs[i]? = some l → l.mark (groups.length + i) ∈ r.journal.toList

theorem Followed.nil (h : Chronicle ids groups r) : Followed ids groups [] r := by
  refine ⟨?_, by simp⟩
  rwa [List.map_nil, List.append_nil]

theorem Followed.cons {l : Leg} {legs : List Leg} (h : Followed ids (groups ++ [l.calls]) legs r)
    (hmark : l.mark groups.length ∈ r.journal.toList) : Followed ids groups (l :: legs) r where
  told := by
    have htold := h.told
    rwa [List.append_assoc, List.singleton_append, ← List.map_cons] at htold
  marks i l' hl := by
    cases i with
    | zero =>
      obtain rfl : l = l' := by simpa using hl
      exact hmark
    | succ i =>
      have hrest := h.marks i l' (by simpa using hl)
      rwa [List.length_append, List.length_singleton, Nat.add_assoc, Nat.add_comm 1] at hrest

end

end Ensemble
