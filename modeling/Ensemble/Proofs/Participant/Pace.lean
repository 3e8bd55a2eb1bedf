import Ensemble.Proofs.Participant.Tally
import Ensemble.Proofs.Routine.Excerpt

/-!
# The pace of participants

The timer moves on only while everybody waits for it, so what a participant does between two of its
waits leaves it where it is. That holds of runs inside participants too, hence `member_still` is an
induction over the tree of participants. A participant then takes as long as its waits say, and it
paces itself by a function if these are that function of the number of calls before and of the
message.
-/

namespace Ensemble

open Run

/-! ## The timer -/

namespace Guarantee

/-- The timer stands still. -/
def still : Guarantee Memory where
  step c _ c' _ := c.Still c'
  refl c _ := .refl c
  trans h h' := h.trans h'

theorem still_patient : still.Patient where
  stall _ _ _ := ⟨rfl, Nat.le_refl _⟩
  delay _ _ := ⟨rfl, Nat.le_succ _⟩

end Guarantee

namespace Participant

theorem answer_still {position : Nat} {behaviour : Behaviour}
    {reply : Message → Message → Routine Memory (Except String Message)}
    (hreply : ∀ message m, (reply message m).Meets Anything .still (fun _ => True) fun _ _ => True)
    (message : Message) :
    (answer position behaviour reply message).Meets Anything .still (fun _ => True)
      fun _ _ => True :=
  fun c _ _ => (answer_upholds Guarantee.still_patient hreply fun _ c _ => .refl c).extend (.refl c)

theorem ownReply_still (message m : Message) :
    (ownReply message m).Meets Anything .still (fun _ => True) fun _ _ => True :=
  Routine.meets_pure fun _ h => h

theorem innerReply_still {position : Nat} {inner : Except Error Orchestration}
    (hinner : ∀ o, inner = .ok o → ∀ input,
      (o.perform default input).Meets Anything .still (fun _ => True) fun _ _ => True)
    (message m : Message) :
    (innerReply position inner message m).Meets Anything .still (fun _ => True) fun _ _ => True :=
  innerReply_meets hinner (fun _ _ _ _ h => h) message m

mutual

/-- No call of a participant moves the timer. -/
theorem member_still (position : Nat) (p : Participant) (message : Message) :
    ((p.member position).handle message).Meets Anything .still (fun _ => True)
      fun _ _ => True := by
  cases p with
  | simple profile behaviour => exact answer_still ownReply_still message
  | nested profile behaviour team options =>
    refine answer_still (innerReply_still ?_) message
    intro o ho input
    obtain ⟨haccepted, hmembers⟩ := Orchestration.accepted_of_build ho
    refine Orchestration.perform_meets haccepted ?_ default input
    rw [hmembers]
    exact members_still 0 team

theorem members_still (position : Nat) (team : List Participant) :
    ∀ m ∈ members position team, ∀ message,
      (m.handle message).Meets Anything .still (fun _ => True) fun _ _ => True := by
  cases team with
  | nil => simp [members]
  | cons p rest =>
    intro m hm
    rcases List.mem_cons.mp hm with rfl | hm
    · exact member_still position p
    · exact members_still (position + 1) rest m hm

end

end Participant

/-! ## Calls at other seats -/

/-- The timer stands still, no call is counted at a seat, and nothing is cancelled. -/
def Guarantee.besides (seat : Nat) : Guarantee Memory where
  step c m c' m' :=
    c.Still c' ∧ m'.tally seat = m.tally seat ∧ (m.cancelled = false → m'.cancelled = false)
  refl c _ := ⟨.refl c, rfl, id⟩
  trans h h' := ⟨h.1.trans h'.1, h'.2.1.trans h.2.1, fun hm => h'.2.2 (h.2.2 hm)⟩

namespace Participant

variable {p : Participant}

/-- From the moment on at which it is counted, a call of a participant that does not cancel leaves
alone what counts at any seat. -/
theorem Calm.besides (h : p.Calm) (position seat : Nat) (message : Message) (c : Clock)
    (m : Memory) :
    ((p.member position).handle message c m).Upholds Anything (.besides seat) (fun _ _ => True) c
      (m.counted position) := by
  have hstill : ((p.member position).handle message c m).Upholds Anything .still
      (fun _ _ => True) c (m.counted position) :=
    (member_still position p message c m trivial).extend (.refl c)
  have hcancelled : (m.counted position).cancelled = m.cancelled :=
    Memory.cancelled_setMember _ _ m
  have hcalm : ((p.member position).handle message c m).Upholds Anything .calm
      (fun _ _ => True) c (m.counted position) :=
    (h.member position message c m trivial).extend fun hm => hcancelled.symm.trans hm
  refine ((hstill.and (p.member_tallies position message c m)).and hcalm).mono
    (fun _ _ h => h) ?_ ?_
  · rintro c s c' s' ⟨⟨hclock, htally⟩, hkept⟩
    exact ⟨hclock, congrFun htally seat, hkept⟩
  · rintro c s c' s' answer ⟨⟨hclock, htally⟩, hkept⟩
    exact ⟨⟨hclock.1, congrFun htally.1 seat, hkept.1⟩, trivial⟩

/-- A call at one seat leaves alone what counts at another. -/
theorem Calm.elsewhere (h : p.Calm) {position seat : Nat} (hne : seat ≠ position)
    (message : Message) :
    ((p.member position).handle message).Meets Anything (.besides seat) (fun _ => True)
      fun _ _ => True := by
  intro c m _
  refine (h.besides position seat message c m).extend ⟨.refl c, ?_, fun hm => ?_⟩
  · rw [Memory.tally_counted, if_neg hne]
  · exact (Memory.cancelled_setMember _ _ m).trans hm

end Participant

/-! ## Waits -/

/-- The waits of a progress, from the clock given on, are those listed, one after the other; a wait
for no time is none. -/
inductive Progress.Paces {σ α : Type} : List Nat → Clock → Progress σ α → Prop where
  | done {c₀ c s a} : Paces [] c₀ (.done c s a)
  | zero {waits c₀ p} : Paces waits c₀ p → Paces (0 :: waits) c₀ p
  | wait {ms waits c₀ w c s k} : w.due = c₀.timer + ms → w.Fresh c₀ c →
      (∀ c s, Paces waits c (k c s)) → Paces (ms :: waits) c₀ (.waiting w c s k)

section

variable {α : Type} {waits : List Nat} {c c₀ : Clock} {m : Memory} {f : Unit → Routine Memory α}

/-- The step that a wait begins in may be counted from an earlier clock. -/
theorem Progress.Paces.extend {p : Progress Memory α} (h : p.Paces waits c) (hc : c₀.Still c) :
    p.Paces waits c₀ := by
  induction h with
  | done => exact .done
  | zero _ ih => exact .zero (ih hc)
  | wait hdue hfresh hrest _ =>
    refine .wait ?_ ⟨?_, Nat.le_trans hc.delays hfresh.since, hfresh.rank⟩ hrest
    · rw [hdue, hc.timer]
    · rw [← hc.timer]
      exact hfresh.due

theorem paces_ite_cancel {b : Bool} (hf : ∀ m, (f () c m).Paces waits c) :
    ((if b then Routine.modify Memory.cancel >>= f else f ()) c m).Paces waits c := by
  cases b with
  | true => exact hf m.cancel
  | false => exact hf m

theorem paces_stall (ms : Nat) (hf : ∀ c m, (f () c m).Paces waits c) :
    ((Routine.stall ms >>= f) c m).Paces waits c :=
  (hf (c.stall ms) m).extend ⟨rfl, Nat.le_refl _⟩

theorem paces_delay (ms : Nat) (hf : ∀ c m, (f () c m).Paces waits c) :
    ((Routine.delay ms >>= f) c m).Paces (ms :: waits) c := by
  cases ms with
  | zero => exact .zero (hf c m)
  | succ n =>
    have hlater : c.timer < c.timer + (n + 1) := by omega
    exact .wait rfl ⟨hlater, Nat.le_refl _, Nat.lt_succ_self _⟩ hf

end

namespace Participant

/-- How long the participant waits at a call depends on the number of its calls before and on the
message, and on nothing that happens meanwhile. -/
def PacesBy (p : Participant) (pace : Nat → Message → List Nat) : Prop :=
  ∀ position message c m,
    ((p.member position).handle message c m).Paces (pace (m.tally position) message) c

/-- What is left of a call whose reply takes no time has the one wait that its action says. -/
theorem act_paces (action : Action) (message : Message) (c : Clock) (m : Memory) :
    (act action (ownReply message) c m).Paces [action.delay] c := by
  unfold act
  refine paces_ite_cancel fun _ => paces_stall _ fun _ _ => paces_delay _ fun _ _ => ?_
  cases action.outcome <;> cases action.cancelsAfter <;> exact .done

/-- A participant with nothing inside paces itself by the delays of its actions. -/
theorem pacesBy_simple (profile : Profile) (b : Behaviour) :
    (simple profile b).PacesBy fun n message => [(b n message).delay] :=
  fun position message c m =>
    act_paces (b (m.tally position) message) message c (m.counted position)

end Participant

end Ensemble
