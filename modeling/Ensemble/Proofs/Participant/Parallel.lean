import Ensemble.Proofs.Pairing.Parallel

/-!
# Participants in parallel

Two participants answer in parallel if their actions at a call differ in what they reply at most.
`parallel_answer` is the one fact about the steps of a call; what counts as the same reply, and
which moments are alike, is left open.
-/

namespace Ensemble

/-- Actions that take the same time, cancel alike, and have outcomes that count as the same. -/
structure Action.Alike (reply : Message → Message → Prop) (a a' : Action) : Prop where
  cancelsBefore : a.cancelsBefore = a'.cancelsBefore
  stall : a.stall = a'.stall
  delay : a.delay = a'.delay
  cancelsAfter : a.cancelsAfter = a'.cancelsAfter
  outcome : SameAnswer reply a.outcome a'.outcome

variable {reply : Message → Message → Prop}

theorem SameAnswer.refl (hrefl : ∀ m, reply m m) (answer : Except String Message) :
    SameAnswer reply answer answer := by
  cases answer with
  | ok m => exact .ok (hrefl m)
  | error detail => exact .error detail

theorem Action.Alike.refl (hrefl : ∀ m, reply m m) (a : Action) : a.Alike reply a :=
  ⟨rfl, rfl, rfl, rfl, .refl hrefl a.outcome⟩

/-- Cancelling in both runs leads from moments that are alike to such moments. -/
def Unison.Cancels (U : Unison Memory) : Prop :=
  ∀ {c m c' m'}, U.alike (c, m) (c', m') → U.alike (c, m.cancel) (c', m'.cancel)

namespace Participant

open Orchestration (build)

variable {U : Unison Memory}

/-- What is left of two calls once they are counted. -/
theorem parallel_act {a a' : Action} (ha : a.Alike reply a')
    (hcancel : a.cancels = true → U.Cancels)
    {give give' : Message → Routine Memory (Except String Message)}
    (hgive : ∀ m m', reply m m' → Routine.Parallel U (SameAnswer reply) (give m) (give' m')) :
    Routine.Parallel U (SameAnswer reply) (act a give) (act a' give') := by
  have hbefore : a.cancelsBefore = true → U.Cancels :=
    fun h => hcancel (Bool.or_eq_true_iff.mpr (.inl h))
  have hafter : a.cancelsAfter = true → U.Cancels :=
    fun h => hcancel (Bool.or_eq_true_iff.mpr (.inr h))
  -- cancelling or not is the same in both, whatever comes behind it
  have hmaybe : ∀ {b : Bool} {f f' : Unit → Routine Memory (Except String Message)},
      (b = true → U.Cancels) → Routine.Parallel U (SameAnswer reply) (f ()) (f' ()) →
      Routine.Parallel U (SameAnswer reply)
        (if b then Routine.modify Memory.cancel >>= f else f ())
        (if b then Routine.modify Memory.cancel >>= f' else f' ()) :=
    fun hb hf => .ite Iff.rfl
      (fun h => (Routine.parallel_modify (hb h)).bind fun _ _ _ => hf) fun _ => hf
  unfold act
  rw [← ha.cancelsBefore, ← ha.stall, ← ha.delay, ← ha.cancelsAfter]
  refine hmaybe hbefore ?_
  refine (Routine.parallel_stall a.stall).bind fun _ _ _ => ?_
  refine (Routine.parallel_delay a.delay).bind fun _ _ _ => ?_
  have hlast : ∀ answer answer', SameAnswer reply answer answer' →
      Routine.Parallel U (SameAnswer reply)
        (do if a.cancelsAfter then Routine.modify Memory.cancel
            return answer)
        (do if a.cancelsAfter then Routine.modify Memory.cancel
            return answer') :=
    fun _ _ hanswer => hmaybe hafter (Routine.parallel_pure hanswer)
  have houtcome := ha.outcome
  generalize a.outcome = outcome at houtcome
  generalize a'.outcome = outcome' at houtcome
  cases houtcome with
  | ok hm => exact (hgive _ _ hm).bind hlast
  | error detail => exact (Routine.parallel_pure (.error detail)).bind hlast

/-- Two calls, if counting them leads to moments that are alike. -/
theorem parallel_answer {position : Nat} {b b' : Behaviour} {message : Message}
    (hcounted : ∀ {c m c' m'}, U.alike (c, m) (c', m') →
      U.alike (c, m.counted position) (c', m'.counted position))
    (hb : ∀ {c m c' m'}, U.alike (c, m) (c', m') →
      (b (m.tally position) message).Alike reply (b' (m'.tally position) message))
    (hcancel : ∀ n, (b n message).cancels = true → U.Cancels)
    {give give' : Message → Message → Routine Memory (Except String Message)}
    (hgive : ∀ m m', reply m m' →
      Routine.Parallel U (SameAnswer reply) (give message m) (give' message m')) :
    Routine.Parallel U (SameAnswer reply) (answer position b give message)
      (answer position b' give' message) := by
  rintro ⟨c, m⟩ ⟨c', m'⟩ hxy
  rw [answer_apply, answer_apply]
  exact parallel_act (hb hxy) (hcancel _) hgive _ _ (hcounted hxy)

/-- The reply is the action's own. -/
theorem parallel_ownReply (message m m' : Message) (hm : reply m m') :
    Routine.Parallel U (SameAnswer reply) (ownReply message m) (ownReply message m') :=
  Routine.parallel_pure (.ok hm)

end Participant

end Ensemble
