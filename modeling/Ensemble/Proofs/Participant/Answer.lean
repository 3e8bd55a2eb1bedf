import Ensemble.Participant.Basic
import Ensemble.Proofs.Run.Custom

/-!
# How participants answer

A participant counts the call and then does what its action says; the reply of one that is nested
takes a run of the orchestration inside it. `act_meets` and `perform_meets` say what it takes for
either to keep to a guarantee, so that every fact about all participants is a matter of what the
single steps of an action do.
-/

namespace Ensemble

open Run

namespace Memory

/-- How often the participant at a position has been called. -/
def tally (m : Memory) (position : Nat) : Nat := (m.member position).calls

/-- The memory with one more call of the participant at a position. -/
def counted (m : Memory) (position : Nat) : Memory :=
  m.setMember position (m.member position).countCall

@[simp] theorem calls_cancel (m : Memory) : m.cancel.calls = m.calls := by
  cases m; rfl

@[simp] theorem calls_countCall (m : Memory) : m.countCall.calls = m.calls + 1 := by
  cases m; rfl

@[simp] theorem tally_cancel (m : Memory) : m.cancel.tally = m.tally := by
  funext i
  simp [tally]

theorem tally_setMember {position : Nat} {own m : Memory}
    (h : own.calls = (m.member position).calls) : (m.setMember position own).tally = m.tally := by
  funext i
  simp only [tally, member_setMember]
  split
  · next heq => rw [h, heq]
  · rfl

@[simp] theorem tally_counted (m : Memory) (position i : Nat) :
    (m.counted position).tally i = if i = position then m.tally i + 1 else m.tally i := by
  simp only [tally, counted, member_setMember]
  split
  · next heq => rw [calls_countCall, heq]
  · rfl

end Memory

/-- A guarantee on the memory that loss of time and the beginning of a wait cannot break. -/
structure Guarantee.Patient (G : Guarantee Memory) : Prop where
  stall : ∀ c m ms, G.step c m (c.stall ms) m
  delay : ∀ c m, G.step c m { c with delays := c.delays + 1 } m

/-- A guarantee on the memory that the passing of time cannot break either. -/
structure Guarantee.Timeless (G : Guarantee Memory) : Prop extends G.Patient where
  elapse : ∀ c m due, G.step c m (c.advance due) m

theorem Guarantee.timeless_of_still {G : Guarantee Memory} (h : ∀ c c' m, G.step c m c' m) :
    G.Timeless where
  stall c m _ := h c _ m
  delay c m := h c _ m
  elapse c m _ := h c _ m

/-- Whether a participant cancels when it does what the action says. -/
def Action.cancels (a : Action) : Bool := a.cancelsBefore || a.cancelsAfter

namespace Participant

/-- What the participant does at its calls. -/
def behaviour : Participant → Behaviour
  | simple _ b => b
  | nested _ b _ _ => b

/-! ## Actions -/

/-- What is left of a call once it is counted. -/
def act (action : Action) (reply : Message → Routine Memory (Except String Message)) :
    Routine Memory (Except String Message) := do
  if action.cancelsBefore then
    Routine.modify Memory.cancel
  Routine.stall action.stall
  Routine.delay action.delay
  let outcome ← match action.outcome with
    | .ok m => reply m
    | .error detail => pure (.error detail)
  if action.cancelsAfter then
    Routine.modify Memory.cancel
  return outcome

theorem answer_apply (position : Nat) (behaviour : Behaviour)
    (reply : Message → Message → Routine Memory (Except String Message)) (message : Message)
    (c : Clock) (m : Memory) :
    answer position behaviour reply message c m =
      act (behaviour (m.tally position) message) (reply message) c (m.counted position) :=
  rfl

section

variable {α : Type} {rely : Memory → Memory → Prop} {G : Guarantee Memory} {P : Memory → Prop}
  {Q : α → Memory → Prop}

/-- Cancelling or not, before going on. -/
theorem meets_ite_cancel {b : Bool} {f : Unit → Routine Memory α}
    (hcancel : b = true → ∀ c m, G.step c m c m.cancel)
    (hf : ∀ u, (f u).Meets rely G (fun _ => True) Q) :
    (if b then Routine.modify Memory.cancel >>= f else f ()).Meets rely G (fun _ => True) Q :=
  Routine.Meets.ite
    (fun hb => (Routine.meets_modify fun c m _ => ⟨hcancel hb c m, trivial⟩).bind hf) fun _ => hf ()

theorem meets_stall (htime : G.Patient) (ms : Nat) :
    (Routine.stall ms : Routine Memory Unit).Meets rely G (fun _ => True) fun _ _ => True :=
  fun c m _ => ⟨htime.stall c m ms, trivial⟩

theorem meets_delay (htime : G.Patient) (ms : Nat) :
    (Routine.delay ms : Routine Memory Unit).Meets rely G (fun _ => True) fun _ _ => True :=
  Routine.Meets.ite (fun _ => Routine.meets_pure fun _ h => h)
    fun _ c m _ => ⟨htime.delay c m, fun c' m' _ => ⟨G.refl c' m', trivial⟩⟩

end

variable {rely : Memory → Memory → Prop} {G : Guarantee Memory} {Q : Except String Message → Prop}

/-- What is left of a call keeps to a guarantee if its reply does, and if cancelling does in case it
cancels. -/
theorem act_meets (htime : G.Patient) {action : Action}
    {reply : Message → Routine Memory (Except String Message)}
    (hcancel : action.cancels = true → ∀ c m, G.step c m c m.cancel)
    (hreply : ∀ m, action.outcome = .ok m →
      (reply m).Meets rely G (fun _ => True) fun answer _ => Q answer)
    (herror : ∀ detail, action.outcome = .error detail → Q (.error detail)) :
    (act action reply).Meets rely G (fun _ => True) fun answer _ => Q answer := by
  have hbefore : action.cancelsBefore = true → ∀ c m, G.step c m c m.cancel :=
    fun h => hcancel (Bool.or_eq_true_iff.mpr (.inl h))
  have hafter : action.cancelsAfter = true → ∀ c m, G.step c m c m.cancel :=
    fun h => hcancel (Bool.or_eq_true_iff.mpr (.inr h))
  unfold act
  refine meets_ite_cancel hbefore fun _ => ?_
  refine (meets_stall htime _).bind fun _ => (meets_delay htime _).bind fun _ => ?_
  -- what comes behind the reply no longer changes it
  have hlast : ∀ answer, Q answer →
      (do if action.cancelsAfter then Routine.modify Memory.cancel
          return answer : Routine Memory (Except String Message)).Meets rely G (fun _ => True)
        fun answer _ => Q answer :=
    fun answer hq => meets_ite_cancel hafter fun _ => Routine.meets_pure fun _ _ => hq
  have hgoes : ∀ answer,
      (do if action.cancelsAfter then Routine.modify Memory.cancel
          return answer : Routine Memory (Except String Message)).Meets rely G
        (fun _ => Q answer) fun answer _ => Q answer :=
    fun answer c m hq => hlast answer hq c m trivial
  cases houtcome : action.outcome with
  | ok m => exact (hreply m houtcome).bind hgoes
  | error detail =>
    exact (Routine.meets_pure fun _ _ => herror detail houtcome).bind hgoes

end Participant

/-! ## Runs inside participants -/

/-- The regime of a guarantee on the memory. -/
def Run.Regime.onMemory (G : Guarantee Memory) (htime : G.Timeless) (deadline : Deadline) :
    Regime deadline where
  step c s c' s' := G.step c s.1 c' s'.1
  refl c s := G.refl c s.1
  trans h h' := G.trans h h'
  note _ := G.refl _ _
  gather _ := G.refl _ _
  elapse c s due := htime.elapse c s.1 due

theorem Member.within_onMemory {G : Guarantee Memory} (htime : G.Timeless) {m : Member}
    (h : ∀ message, (m.handle message).Meets Anything G (fun _ => True) fun _ _ => True)
    (deadline : Deadline) : m.Within (.onMemory G htime deadline) := fun message c s hs =>
  (h message c s hs).mono (fun _ _ h => h) (fun _ _ _ _ h _ => h)
    fun _ _ _ _ _ h => ⟨fun _ => h.1, trivial⟩

/-- What a guarantee on the memory says of scenes. -/
def Guarantee.onScene (G : Guarantee Memory) : Guarantee Scene where
  step c s c' s' := G.step c s.1 c' s'.1
  refl c s := G.refl c s.1
  trans h h' := G.trans h h'

/-- Journal and books are no matter of the memory. -/
theorem Guarantee.custom_onScene (G : Guarantee Memory) : Custom G.onScene where
  note _ := G.refl _ _
  gather _ _ := G.refl _ _

/-- Whatever members keep to on the memory, a run of theirs keeps to, even if the passing of time
does not. -/
theorem Orchestration.perform_meets {G : Guarantee Memory} {o : Orchestration} (ho : o.Accepted)
    (hmembers : ∀ m ∈ o.members, ∀ message,
      (m.handle message).Meets Anything G (fun _ => True) fun _ _ => True)
    (stamp : RunStamp) (input : String) :
    (o.perform stamp input).Meets Anything G (fun _ => True) fun _ _ => True := by
  have hmembers' : ∀ m ∈ o.members, ∀ message, Does G.onScene (onMemory (m.handle message)) := by
    intro m hm message c s _
    refine Progress.Keeps.zoom (hmembers m hm message c s.1 trivial) ?_ ?_
    · exact fun c s c' m h => h
    · exact fun c s c' m answer h => h
  have hdrive : Does G.onScene (o.drive stamp input) := by
    intro c s _
    have hrun : Does G.onScene (o.strategy.run o.members (.after c.now o.timeout) input) :=
      Strategy.meets_custom hmembers' G.custom_onScene (fun _ c m _ _ => G.refl c m) ho.works input
    have hconclude : ∀ output,
        Does G.onScene (o.conclude stamp (.after c.now o.timeout) c.now output) :=
      fun _ c s _ => ⟨G.refl c s.1, trivial⟩
    exact hrun.bind hconclude c s trivial
  have hkeeping : ((o.drive stamp input).keeping (.initial o.ids)).Meets Anything G
      (fun _ => True) fun _ _ => True := by
    intro c m _
    refine Progress.Keeps.keeping ((hdrive c (m, .initial o.ids) trivial).mono
      (fun _ _ _ => trivial) (fun _ _ _ _ h => h) fun _ _ _ _ _ h => h) ?_ ?_
    · exact fun c m r c' m' r' h => h
    · exact fun c m r c' m' r' result h => h
  exact hkeeping.bind fun result => Routine.meets_pure fun _ h => h

namespace Participant

variable {G inner : Guarantee Memory} {position : Nat}

/-- The run inside a participant changes the memory below the participant and no other. -/
theorem innerReply_meets {built : Except Error Orchestration}
    (hinner : ∀ o, built = .ok o → ∀ input,
      (o.perform default input).Meets Anything inner (fun _ => True) fun _ _ => True)
    (hset : ∀ c m c' own, inner.step c (m.member position) c' own →
      G.step c m c' (m.setMember position own)) (message m : Message) :
    (innerReply position built message m).Meets Anything G (fun _ => True) fun _ _ => True := by
  cases built with
  | error e => exact Routine.meets_pure fun _ h => h
  | ok o =>
    have hzoom : ((o.perform default message.content).zoom (Memory.member position)
        fun own m => m.setMember position own).Meets Anything G (fun _ => True)
        fun _ _ => True := by
      intro c m _
      refine Progress.Keeps.zoom (hinner o rfl message.content c _ trivial) ?_ ?_
      · exact fun c m c' own h => hset c m c' own h
      · exact fun c m c' own result h => ⟨hset c m c' own h.1, trivial⟩
    exact hzoom.bind fun result => Routine.meets_pure fun _ h => h

/-- A call keeps to a guarantee from the moment on at which it is counted. -/
theorem answer_upholds (htime : G.Patient) {behaviour : Behaviour}
    {reply : Message → Message → Routine Memory (Except String Message)} {message : Message}
    {c : Clock} {m : Memory}
    (hreply : ∀ message m, (reply message m).Meets Anything G (fun _ => True) fun _ _ => True)
    (hcancel : (behaviour (m.tally position) message).cancels = true →
      ∀ c m, G.step c m c m.cancel) :
    (answer position behaviour reply message c m).Upholds Anything G (fun _ _ => True) c
      (m.counted position) := by
  rw [answer_apply]
  exact act_meets (Q := fun _ => True) htime hcancel (fun answer _ => hreply message answer)
    (fun _ _ => trivial) c (m.counted position) trivial

end Participant

end Ensemble
