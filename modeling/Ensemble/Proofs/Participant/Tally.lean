import Ensemble.Proofs.Participant.Answer

/-!
# Answers by number and message

A call is counted when it begins. A participant answers by a function if its answer is that function
of the number of calls before and of the message, whenever it comes and whatever goes on meanwhile.
`Member.Plays` is what a run can rely on then: the call counts at one seat and at no other, and its
answer is known from that moment on.
-/

namespace Ensemble

/-! ## What calls leave as it is -/

namespace Guarantee

/-- No more than that nothing is guaranteed. -/
def anything : Guarantee Memory := ofRelation Anything (fun _ => trivial) fun _ _ => trivial

/-- The count of the calls that led here stays as it is. -/
def count : Guarantee Memory :=
  ofRelation (fun m m' => m'.calls = m.calls) (fun _ => rfl) fun h h' => h'.trans h

/-- No further call is counted. -/
def tallies : Guarantee Memory :=
  ofRelation (fun m m' => m'.tally = m.tally) (fun _ => rfl) fun h h' => h'.trans h

/-- Nothing is cancelled. -/
def calm : Guarantee Memory :=
  ofRelation (fun m m' => m.cancelled = false → m'.cancelled = false) (fun _ h => h)
    fun h h' hm => h' (h hm)

theorem anything_timeless : anything.Timeless := timeless_of_still fun _ _ _ => trivial

theorem count_timeless : count.Timeless := timeless_of_still fun _ _ _ => rfl

theorem tallies_timeless : tallies.Timeless := timeless_of_still fun _ _ _ => rfl

theorem calm_timeless : calm.Timeless := timeless_of_still fun _ _ _ h => h

end Guarantee

namespace Participant

open Orchestration (build)

variable {G inner : Guarantee Memory}

theorem members_eq (position : Nat) (team : List Participant) :
    members position team = (team.zipIdx position).map fun q => q.1.member q.2 := by
  induction team generalizing position with
  | nil => rfl
  | cons p rest ih => rw [members, ih, List.zipIdx_cons, List.map_cons]

theorem of_mem_members {position : Nat} {team : List Participant} {m : Member}
    (h : m ∈ members position team) : ∃ p ∈ team, ∃ i, m = p.member i := by
  rw [members_eq] at h
  obtain ⟨⟨p, i⟩, hp, rfl⟩ := List.mem_map.mp h
  exact ⟨p, List.fst_mem_of_mem_zipIdx hp, i, rfl⟩

/-- From the moment on at which it is counted a call keeps to a guarantee, if cancelling does in
case the participant cancels, and if runs inside participants do not break it. -/
theorem member_upholds (htime : G.Patient) (p : Participant) {position : Nat}
    (hinner : ∀ {team : List Participant} {options : Options} {o : Orchestration},
      build (members 0 team) options = .ok o → ∀ input,
        (o.perform default input).Meets Anything inner (fun _ => True) fun _ _ => True)
    (hset : ∀ c m c' own, inner.step c (m.member position) c' own →
      G.step c m c' (m.setMember position own))
    {message : Message} {c : Clock} {m : Memory}
    (hcancel : (p.behaviour (m.tally position) message).cancels = true →
      ∀ c m, G.step c m c m.cancel) :
    ((p.member position).handle message c m).Upholds Anything G (fun _ _ => True) c
      (m.counted position) := by
  cases p with
  | simple profile b =>
    exact answer_upholds htime (fun _ _ => Routine.meets_pure fun _ h => h) hcancel
  | nested profile b team options =>
    exact answer_upholds htime (innerReply_meets (fun _ ho => hinner ho) hset) hcancel

theorem perform_anything (o : Orchestration) (input : String) :
    (o.perform default input).Meets Anything Guarantee.anything (fun _ => True) fun _ _ => True :=
  fun c m _ => Progress.keeps_trivial (fun _ _ _ _ => trivial) (fun _ _ _ _ _ => ⟨trivial, trivial⟩)
    c m _

/-- No call of a participant touches the count of the calls that led to its orchestration. -/
theorem member_count (p : Participant) (position : Nat) (message : Message) :
    ((p.member position).handle message).Meets Anything Guarantee.count (fun _ => True)
      fun _ _ => True := by
  intro c m _
  have hcounted : Guarantee.count.step c m c (m.counted position) := Memory.calls_setMember _ _ m
  refine Progress.Upholds.extend ?_ hcounted
  exact p.member_upholds Guarantee.count_timeless.toPatient (fun _ => perform_anything _)
    (fun _ m _ own _ => Memory.calls_setMember _ own m) fun _ _ m => Memory.calls_cancel m

theorem perform_count {team : List Participant} {options : Options} {o : Orchestration}
    (h : build (members 0 team) options = .ok o) (input : String) :
    (o.perform default input).Meets Anything Guarantee.count (fun _ => True) fun _ _ => True := by
  obtain ⟨ho, hmembers⟩ := Orchestration.accepted_of_build h
  refine Orchestration.perform_meets ho (fun m hm => ?_) default input
  rw [hmembers] at hm
  obtain ⟨p, -, i, rfl⟩ := of_mem_members hm
  exact p.member_count i

/-- A call is counted once, when it begins. -/
theorem member_tallies (p : Participant) (position : Nat) (message : Message) (c : Clock)
    (m : Memory) :
    ((p.member position).handle message c m).Upholds Anything Guarantee.tallies (fun _ _ => True) c
      (m.counted position) :=
  p.member_upholds Guarantee.tallies_timeless.toPatient perform_count
    (fun _ _ _ _ hown => Memory.tally_setMember hown) fun _ _ m => Memory.tally_cancel m

/-! ## Participants that do not cancel -/

/-- The participant never cancels the orchestration that it takes part in. -/
def Calm (p : Participant) : Prop := ∀ n message, (p.behaviour n message).cancels = false

theorem Calm.member {p : Participant} (h : p.Calm) (position : Nat) (message : Message) :
    ((p.member position).handle message).Meets Anything Guarantee.calm (fun _ => True)
      fun _ _ => True := by
  intro c m _
  have hcounted : Guarantee.calm.step c m c (m.counted position) :=
    fun hm => (Memory.cancelled_setMember _ _ m).trans hm
  refine Progress.Upholds.extend ?_ hcounted
  refine p.member_upholds Guarantee.calm_timeless.toPatient (fun _ => perform_anything _) ?_
    fun hcancels => ?_
  · exact fun _ m _ own _ hm => (Memory.cancelled_setMember _ own m).trans hm
  · rw [h] at hcancels
    cases hcancels

/-! ## Answers -/

/-- The participant's answer depends on the number of its calls before and on the message, and on
nothing that happens until it comes. -/
def AnswersBy (p : Participant) (f : Nat → Message → Except String Message) : Prop :=
  ∀ position message c m,
    ((p.member position).handle message c m).Yields (· = f (m.tally position) message)

/-- A participant with nothing inside answers by the outcomes of its actions, whatever time it
takes. -/
theorem answersBy_simple (profile : Profile) (b : Behaviour) :
    (simple profile b).AnswersBy fun n message => (b n message).outcome := by
  intro position message c m
  let action := b (m.tally position) message
  have hact : (act action (ownReply message)).Meets Anything Guarantee.anything (fun _ => True)
      fun answer _ => answer = action.outcome :=
    act_meets Guarantee.anything_timeless.toPatient (fun _ _ _ => trivial)
      (fun _ hreply => Routine.meets_pure fun _ _ => hreply.symm) fun _ hdetail => hdetail.symm
  exact (hact c (m.counted position) trivial).yields

end Participant

/-- Calls of the member count at one seat and at no other, and each is answered by number and
message. -/
def Member.Plays (m : Member) (seat : Nat) (f : Nat → Message → Except String Message) : Prop :=
  ∀ message c mem, (m.handle message c mem).Upholds Anything Guarantee.tallies
    (fun answer _ => answer = f (mem.tally seat) message) c (mem.counted seat)

theorem Participant.AnswersBy.plays {p : Participant} {f : Nat → Message → Except String Message}
    (h : p.AnswersBy f) (position : Nat) : (p.member position).Plays position f := by
  intro message c m
  have hkeeps := Progress.Keeps.yields (p.member_tallies position message c m)
    (h position message c m)
  exact hkeeps.mono (fun _ _ h => h) (fun _ _ _ _ h => h) fun _ _ _ _ _ h => ⟨h.1.1, h.2⟩

end Ensemble
