import Ensemble.Proofs.Participant.Answer
import Ensemble.Proofs.Run.Advance

/-!
# Participants only move forward

Whatever a participant does at a call, time does not go back and no cancellation is undone. For one
that has an orchestration inside this takes a run of that orchestration, whose members are
participants again, so `Participant.member_forward` is an induction over the tree of participants.
-/

namespace Ensemble

open Run

theorem Run.before_setMember {c c' : Clock} (hle : c.now ≤ c'.now) (m : Memory) (position : Nat)
    (own : Memory) : (instant c m).Before (instant c' (m.setMember position own)) where
  moment := hle
  cancelled h := (Memory.cancelled_setMember position own m).trans h

/-- A routine on the memory that only moves forward. -/
def Routine.Forward {α : Type} (r : Routine Memory α) : Prop :=
  r.Meets Anything forward (fun _ => True) fun _ _ => True

namespace Routine

variable {α β : Type}

theorem forward_pure (a : α) : (pure a : Routine Memory α).Forward :=
  meets_pure fun _ _ => trivial

theorem Forward.bind {r : Routine Memory α} {f : α → Routine Memory β} (hr : r.Forward)
    (hf : ∀ a, (f a).Forward) : (r >>= f).Forward :=
  Meets.bind hr hf

theorem forward_cancel : (modify Memory.cancel).Forward :=
  meets_modify fun c m _ => ⟨before_cancel c m, trivial⟩

/-- Cancelling or not, before going on. -/
theorem forward_ite_cancel {b : Bool} {f : Unit → Routine Memory α} (hf : ∀ u, (f u).Forward) :
    (if b then modify Memory.cancel >>= f else f ()).Forward :=
  Meets.ite (fun _ => forward_cancel.bind hf) fun _ => hf ()

theorem forward_stall (ms : Nat) : (stall ms : Routine Memory Unit).Forward := by
  intro c m _
  refine ⟨⟨?_, id⟩, trivial⟩
  simp only [instant, Clock.now, Clock.stall]
  omega

theorem forward_delay (ms : Nat) : (delay ms : Routine Memory Unit).Forward := by
  refine Meets.ite (fun _ => forward_pure ()) fun _ => ?_
  intro c m _
  exact ⟨.refl _, fun c' m' _ => ⟨.refl _, trivial⟩⟩

end Routine

/-- A member whose calls only move forward keeps to the regime that wants no more. -/
theorem Member.within_advances {m : Member} (h : ∀ message, (m.handle message).Forward)
    (deadline : Deadline) : m.Within (.advances deadline) := fun message c s hs =>
  (h message c s hs).mono (fun _ _ h => h) (fun _ _ _ _ h => advances_of_forward deadline h)
    fun _ _ _ _ _ h => ⟨advances_of_forward deadline h.1, trivial⟩

theorem Run.forward_timeless : forward.Timeless where
  stall c m ms := (Routine.forward_stall ms c m trivial).1
  delay _ _ := .refl _
  elapse c m due := before_advance c m due

/-- A run inside a participant moves the participant forward. -/
theorem Orchestration.perform_forward {o : Orchestration} (ho : o.Accepted)
    (hmembers : ∀ m ∈ o.members, ∀ message, (m.handle message).Forward) (stamp : RunStamp)
    (input : String) : (o.perform stamp input).Forward :=
  perform_meets ho hmembers stamp input

namespace Participant

theorem ownReply_forward (message m : Message) : (ownReply message m).Forward :=
  Routine.forward_pure _

theorem innerReply_forward {position : Nat} {inner : Except Error Orchestration}
    (hinner : ∀ o, inner = .ok o → ∀ input, (o.perform default input).Forward)
    (message m : Message) : (innerReply position inner message m).Forward :=
  innerReply_meets hinner (fun _ m _ own h => before_setMember h.moment m position own) message m

theorem answer_forward {position : Nat} {behaviour : Behaviour}
    {reply : Message → Message → Routine Memory (Except String Message)}
    (hreply : ∀ message m, (reply message m).Forward) (message : Message) :
    (answer position behaviour reply message).Forward := by
  intro c m _
  have hcounted : (instant c m).Before (instant c (m.counted position)) :=
    before_setMember (Nat.le_refl _) m position _
  have hcancel : ∀ c m, forward.step c m c m.cancel := before_cancel
  exact (answer_upholds forward_timeless.toPatient hreply fun _ => hcancel).extend hcounted

mutual

theorem member_forward (position : Nat) (p : Participant) (message : Message) :
    ((p.member position).handle message).Forward := by
  cases p with
  | simple profile behaviour =>
    exact answer_forward ownReply_forward message
  | nested profile behaviour team options =>
    refine answer_forward (innerReply_forward ?_) message
    intro o ho input
    obtain ⟨haccepted, hmembers⟩ := Orchestration.accepted_of_build ho
    refine Orchestration.perform_forward haccepted ?_ default input
    rw [hmembers]
    exact members_forward 0 team

theorem members_forward (position : Nat) (team : List Participant) :
    ∀ m ∈ members position team, ∀ message, (m.handle message).Forward := by
  cases team with
  | nil => simp [members]
  | cons p rest =>
    intro m hm
    rcases List.mem_cons.mp hm with rfl | hm
    · exact member_forward position p
    · exact members_forward (position + 1) rest m hm

end

end Participant

/-- The members of an orchestration of participants never go back. -/
theorem Orchestration.forward_of_build {team : List Participant} {options : Options}
    {o : Orchestration} (h : build (Participant.members 0 team) options = .ok o) :
    ∀ m ∈ o.members, ∀ message, (m.handle message).Forward := by
  rw [(accepted_of_build h).2]
  exact Participant.members_forward 0 team

end Ensemble
