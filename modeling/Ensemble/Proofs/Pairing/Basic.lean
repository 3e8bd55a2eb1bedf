import Ensemble.Pattern.Swarm
import Ensemble.Proofs.Routine.Straight
import Ensemble.Proofs.Run.Regime
import Mathlib.Data.List.Forall2

/-!
# Two runs side by side

What a run would have come to under other circumstances is a question about two runs. A `Pairing`
says when two runs count as side by side, when they have lost each other, and which replies count as
the same in both; `Pairing.Joins` is the triple that comes with it. `Pairing.Operations` lists what
it takes of the operations of a run, and leaves open what the runs have in common, so that one walk
through the patterns serves every comparison.
-/

namespace Ensemble

open List (Forall₂)

/-! ## The same outcomes -/

/-- Two outcomes of the same kind: replies that count as the same, the same record of a failure, or
no call at all. -/
inductive Outcome.Alike (reply : Message → Message → Prop) : Outcome → Outcome → Prop where
  | response {m m'} : reply m m' → Alike reply (.response m) (.response m')
  | failed (record) : Alike reply (.failed record) (.failed record)
  | skipped : Alike reply .skipped .skipped

/-- Calls that stand in the same place of their plans, of participants of one name, with outcomes
that are alike. -/
structure Settled.Alike (reply : Message → Message → Prop) (a b : Settled) : Prop where
  position : a.position = b.position
  id : a.id = b.id
  outcome : a.outcome.Alike reply b.outcome

/-- Replies that count as the same, given under one name. -/
def SameReply (reply : Message → Message → Prop) (r r' : String × Message) : Prop :=
  r.1 = r'.1 ∧ reply r.2 r'.2

section

variable {reply : Message → Message → Prop}

theorem Outcome.Alike.refl (hrefl : ∀ m, reply m m) (o : Outcome) : o.Alike reply o := by
  cases o with
  | response m => exact .response (hrefl m)
  | failed record => exact .failed record
  | skipped => exact .skipped

theorem Outcome.Alike.response? {o o' : Outcome} (h : o.Alike reply o') :
    Option.Rel reply o.response? o'.response? := by
  cases h with
  | response hm => exact .some hm
  | failed record => exact .none
  | skipped => exact .none

theorem Settled.Alike.response? {a b : Settled} (h : a.Alike reply b) :
    Option.Rel (SameReply reply) a.response? b.response? := by
  obtain ⟨p, d, o⟩ := a
  obtain ⟨p', d', o'⟩ := b
  obtain ⟨-, hid, houtcome⟩ := h
  cases houtcome with
  | response hm => exact .some ⟨hid, hm⟩
  | failed record => exact .none
  | skipped => exact .none

theorem Settled.Alike.isSkipped {a b : Settled} (h : a.Alike reply b) :
    a.outcome.isSkipped = b.outcome.isSkipped := by
  obtain ⟨p, d, o⟩ := a
  obtain ⟨p', d', o'⟩ := b
  obtain ⟨-, -, houtcome⟩ := h
  cases houtcome <;> rfl

variable {calls calls' : List Settled}

/-- Calls that are alike have the same replies. -/
theorem sameReplies (h : Forall₂ (Settled.Alike reply) calls calls') :
    Forall₂ (SameReply reply) (calls.filterMap (·.response?)) (calls'.filterMap (·.response?)) :=
  List.rel_filterMap (fun _ _ hs => hs.response?) h

theorem all_isSkipped (h : Forall₂ (Settled.Alike reply) calls calls') :
    calls.all (·.outcome.isSkipped) = calls'.all (·.outcome.isSkipped) := by
  induction h with
  | nil => rfl
  | cons hs _ ih => rw [List.all_cons, List.all_cons, hs.isSkipped, ih]

theorem forall₂_snd {replies replies' : List (String × Message)}
    (h : Forall₂ (SameReply reply) replies replies') :
    Forall₂ reply (replies.map (·.2)) (replies'.map (·.2)) :=
  List.rel_map (fun _ _ hr => hr.2) h

/-- Replies that count as the same are by the same participants and have the same contents. -/
theorem voices_eq (hcontent : ∀ m m', reply m m' → m.content = m'.content)
    {replies replies' : List (String × Message)} (h : Forall₂ (SameReply reply) replies replies') :
    replies.map (fun r => (r.1, r.2.content)) = replies'.map (fun r => (r.1, r.2.content)) := by
  induction h with
  | nil => rfl
  | cons hr _ ih => rw [List.map_cons, List.map_cons, ih, hr.1, hcontent _ _ hr.2]

theorem contents_eq (hcontent : ∀ m m', reply m m' → m.content = m'.content)
    {ms ms' : List Message} (h : Forall₂ reply ms ms') :
    ms.map (·.content) = ms'.map (·.content) := by
  induction h with
  | nil => rfl
  | cons hm _ ih => rw [List.map_cons, List.map_cons, ih, hcontent _ _ hm]

end

/-! ## The triple -/

/-- How two runs with the deadlines given go side by side. -/
structure Pairing (d₁ d₂ : Deadline) where
  /-- What every step of the first run keeps to. -/
  one : Run.Regime d₁
  /-- What every step of the second run keeps to. -/
  two : Run.Regime d₂
  /-- Whether the runs are side by side at a moment of each. -/
  abreast : Moment Scene → Moment Scene → Prop
  /-- Whether the runs have lost each other. -/
  apart : Moment Scene → Moment Scene → Prop
  /-- Runs that have lost each other do not meet again. -/
  lasts : ∀ {x y x' y'}, apart x y → one.step x.1 x.2 x'.1 x'.2 → two.step y.1 y.2 y'.1 y'.2 →
    apart x' y'
  /-- Whether a reply in the first run counts as the same as one in the second. -/
  reply : Message → Message → Prop
  reply_refl : ∀ m, reply m m
  reply_content : ∀ m m', reply m m' → m.content = m'.content

namespace Pairing

variable {d₁ d₂ : Deadline} {X : Pairing d₁ d₂} {after : Moment Scene → Moment Scene → Prop}
  {α β : Type} {V : α → α → Prop} {W : β → β → Prop}

/-- Ends of two routines: moments related by `after` and values related by `V`, or moments at which
the runs have lost each other. -/
def Ends (X : Pairing d₁ d₂) (after : Moment Scene → Moment Scene → Prop) (V : α → α → Prop)
    (e₁ e₂ : α × Moment Scene) : Prop :=
  (V e₁.1 e₂.1 ∧ after e₁.2 e₂.2) ∨ X.apart e₁.2 e₂.2

/-- Two routines that begin side by side end so, or the runs lose each other; and whoever is apart
already stays so. -/
structure Joins (X : Pairing d₁ d₂) (after : Moment Scene → Moment Scene → Prop)
    (r₁ r₂ : Routine Scene α) (V : α → α → Prop) : Prop where
  one : Run.Holds X.one r₁
  two : Run.Holds X.two r₂
  both : ∀ x y, X.abreast x y → X.Ends after V (r₁.runFrom x) (r₂.runFrom y)

/-- Two routines that end side by side. -/
abbrev Abreast (X : Pairing d₁ d₂) (r₁ r₂ : Routine Scene α) (V : α → α → Prop) : Prop :=
  X.Joins X.abreast r₁ r₂ V

theorem step_runFrom {d : Deadline} {K : Run.Regime d} {r : Routine Scene α}
    (h : Run.Holds K r) (x : Moment Scene) :
    K.step x.1 x.2 (r.runFrom x).2.1 (r.runFrom x).2.2 :=
  (h.runFrom (fun s => (rfl : s.2 = s.2)) K.elapse trivial).1

theorem Joins.weaken {after' : Moment Scene → Moment Scene → Prop} {V' : α → α → Prop}
    {r₁ r₂ : Routine Scene α} (h : X.Joins after r₁ r₂ V) (hv : ∀ a b, V a b → V' a b)
    (hafter : ∀ x y, after x y → after' x y) : X.Joins after' r₁ r₂ V' where
  one := h.one
  two := h.two
  both x y hxy := (h.both x y hxy).imp_left fun hend => ⟨hv _ _ hend.1, hafter _ _ hend.2⟩

theorem abreast_pure {a b : α} (h : V a b) : X.Abreast (pure a) (pure b) V where
  one := Routine.meets_pure fun _ _ => trivial
  two := Routine.meets_pure fun _ _ => trivial
  both _ _ hxy := .inl ⟨h, hxy⟩

/-- One routine after the other. Runs that have lost each other may go on with any two values, which
is why the relation between the values has to be reflexive. -/
theorem Joins.bind {r₁ r₂ : Routine Scene α} {f₁ f₂ : α → Routine Scene β}
    (h : X.Abreast r₁ r₂ V) (hrefl : ∀ a, V a a)
    (hf : ∀ a b, V a b → X.Joins after (f₁ a) (f₂ b) W) :
    X.Joins after (r₁ >>= f₁) (r₂ >>= f₂) W where
  one := h.one.bind fun a => (hf a a (hrefl a)).one.consequence (fun _ _ => trivial) fun _ _ h => h
  two := h.two.bind fun a => (hf a a (hrefl a)).two.consequence (fun _ _ => trivial) fun _ _ h => h
  both x y hxy := by
    rw [Routine.runFrom_bind, Routine.runFrom_bind]
    rcases h.both x y hxy with ⟨hv, habreast⟩ | hapart
    · exact (hf _ _ hv).both _ _ habreast
    · refine .inr (X.lasts hapart (step_runFrom ?_ _) (step_runFrom ?_ _))
      · exact (hf _ _ (hrefl (r₁.runFrom x).1)).one
      · exact (hf _ _ (hrefl (r₂.runFrom y).1)).two

/-- A routine whose value is worked on without anything else happening. -/
theorem Joins.map {r₁ r₂ : Routine Scene α} {f₁ f₂ : α → β} (h : X.Joins after r₁ r₂ V)
    (hf : ∀ a b, V a b → W (f₁ a) (f₂ b)) :
    X.Joins after (r₁ >>= fun a => pure (f₁ a)) (r₂ >>= fun a => pure (f₂ a)) W where
  one := h.one.bind fun _ => Routine.meets_pure fun _ _ => trivial
  two := h.two.bind fun _ => Routine.meets_pure fun _ _ => trivial
  both x y hxy := by
    rw [Routine.runFrom_bind, Routine.runFrom_bind]
    exact (h.both x y hxy).imp_left fun hend => ⟨hf _ _ hend.1, hend.2⟩

theorem Joins.ite {b₁ b₂ : Prop} [Decidable b₁] [Decidable b₂] {r₁ r₂ t₁ t₂ : Routine Scene α}
    (hb : b₁ ↔ b₂) (hr : X.Joins after r₁ r₂ V) (ht : X.Joins after t₁ t₂ V) :
    X.Joins after (if b₁ then r₁ else t₁) (if b₂ then r₂ else t₂) V := by
  by_cases h : b₁
  · rwa [if_pos h, if_pos (hb.mp h)]
  · rwa [if_neg h, if_neg fun h' => h (hb.mpr h')]

/-! ## What it takes of the operations -/

end Pairing

/-- Planned calls of two members that correspond, with the same message. -/
def Dispatch.Alike (peers : Member → Member → Prop) (d d' : Dispatch) : Prop :=
  peers d.member d'.member ∧ d.message = d'.message

/-- The operations of a run keep two runs side by side whose members correspond. -/
structure Pairing.Operations {d₁ d₂ : Deadline} (X : Pairing d₁ d₂)
    (peers : Member → Member → Prop) : Prop where
  ids : ∀ {m m'}, peers m m' → m.id = m'.id
  blackboard : ∀ {x y}, X.abreast x y → x.2.2.blackboard = y.2.2.blackboard
  beginRound : ∀ round, X.Abreast (Run.beginRound d₁ round) (Run.beginRound d₂ round) Eq
  endRound : ∀ round, X.Abreast (Run.endRound round) (Run.endRound round) Eq
  post : ∀ key value, X.Abreast (Swarm.post key value) (Swarm.post key value) Eq
  call : ∀ {m m'} message, peers m m' →
    X.Abreast (Run.call d₁ m message) (Run.call d₂ m' message) (Outcome.Alike X.reply)
  /-- A round in which nobody is asked twice. -/
  dispatchRound : ∀ {plan plan'}, Forall₂ (Dispatch.Alike peers) plan plan' →
    (plan.map (·.member.id)).Nodup →
    X.Abreast (Run.dispatchRound d₁ plan) (Run.dispatchRound d₂ plan')
      (Forall₂ (Settled.Alike X.reply))

end Ensemble
