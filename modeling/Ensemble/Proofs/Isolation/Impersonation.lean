import Ensemble.Proofs.Participant.Parallel
import Ensemble.Proofs.Timing.Indifference
import Ensemble.Proofs.Timing.Truncation

/-!
# Nobody speaks for another

What a reply says of itself, its sender, its recipient and its tags, is up to who gives it, and
nothing in a run depends on it: replies are filed, joined, counted and posted under the participant
that was called. `no_impersonation` compares two runs whose participants differ in no more than
that. Nobody else can tell them apart, whether a reply poses as another's or as a failure.
-/

namespace Ensemble

open List (Forall₂)

open Run

/-- Messages with one content, whoever they claim to be from and to and whatever they are tagged
with. -/
def Message.SameContent (m m' : Message) : Prop := m.content = m'.content

theorem Message.sameContent_refl (m : Message) : m.SameContent m := rfl

theorem Message.content_eq (m m' : Message) (h : m.SameContent m') : m.content = m'.content := h

/-- If the options are for a swarm, its check reads no more than the contents of replies. -/
def Options.ReadsContents (o : Options) : Prop :=
  ∀ p check, o.pattern = .swarm p → p.converged = some check →
    ∀ ms ms' : List Message, ms.map (·.content) = ms'.map (·.content) → check ms = check ms'

namespace Participant

/-- Participants of one name that behave the same except for sender, recipient and metadata of their
successful replies. -/
def Lookalike (p p' : Participant) : Prop :=
  p.id = p'.id ∧ ∀ position message,
    Routine.Parallel (.same Memory) (SameAnswer Message.SameContent)
      ((p.member position).handle message) ((p'.member position).handle message)

section

variable {profile profile' : Profile} {b b' : Behaviour}

/-- Calls of two participants whose actions differ in what their replies say of themselves. -/
theorem lookalike_answer (hb : ∀ n message, (b n message).Alike Message.SameContent (b' n message))
    {give : Message → Message → Routine Memory (Except String Message)}
    (hgive : ∀ message m m', m.SameContent m' →
      Routine.Parallel (.same Memory) (SameAnswer Message.SameContent) (give message m)
        (give message m')) (position : Nat) (message : Message) :
    Routine.Parallel (.same Memory) (SameAnswer Message.SameContent)
      (answer position b give message) (answer position b' give message) := by
  refine parallel_answer ?_ ?_ ?_ (hgive message)
  · rintro c m _ _ ⟨⟩
    rfl
  · rintro c m _ _ ⟨⟩
    exact hb _ message
  · rintro n - c m _ _ ⟨⟩
    rfl

theorem lookalike_simple (hid : profile.id = profile'.id)
    (hb : ∀ n message, (b n message).Alike Message.SameContent (b' n message)) :
    (simple profile b).Lookalike (simple profile' b') :=
  ⟨hid, lookalike_answer hb fun message => parallel_ownReply message⟩

/-- One team is at work inside both, so its output is the same. -/
theorem lookalike_nested (hid : profile.id = profile'.id)
    (hb : ∀ n message, (b n message).Alike Message.SameContent (b' n message))
    (team : List Participant) (options : Options) :
    (nested profile b team options).Lookalike (nested profile' b' team options) := by
  refine ⟨hid, fun position => lookalike_answer hb (fun message m m' _ => ?_) position⟩
  unfold innerReply
  cases Orchestration.build (members 0 team) options with
  | error e => exact Routine.parallel_pure (.error e.message)
  | ok o =>
    refine (Routine.parallel_refl (V := Eq) (fun _ => rfl) _).bind ?_
    rintro result _ rfl
    exact Routine.parallel_pure (.ok rfl)

end

theorem Lookalike.members {team team' : List Participant} (h : Forall₂ Lookalike team team')
    (position : Nat) :
    Forall₂ (Member.Parallel (.same Memory) Message.SameContent) (members position team)
      (members position team') := by
  induction h generalizing position with
  | nil => exact .nil
  | cons hp _ ih =>
    refine .cons ⟨?_, hp.2 position⟩ (ih (position + 1))
    rw [id_member, id_member, hp.1]

end Participant

/-- No strategy but that of a map-reduce run reads more of the replies than their contents, as far
as its options do not. -/
theorem Strategy.respects_contents {options : Options} {strategy : Strategy}
    (h : ofOptions options = .ok strategy) (hkind : options.kind ≠ .mapReduce)
    (hreads : options.ReadsContents) : strategy.Respects Message.SameContent := by
  obtain ⟨pattern, maxRounds, timeout⟩ := options
  cases pattern with
  | swarm p =>
    cases h
    intro ms ms' hms
    have hcontents : ms.map (·.content) = ms'.map (·.content) :=
      contents_eq Message.content_eq hms
    cases hcheck : p.converged with
    | none => rfl
    | some check => exact hreads p check rfl hcheck ms ms' hcontents
  | mapReduce p => exact absurd rfl hkind
  | supervisor p | pipeline p | debate p =>
    cases h
    trivial

namespace Orchestration

variable {team team' : List Participant} {options : Options} {o o' : Orchestration}

/-- Runs of participants that are told apart by their replies' word alone end at one moment, with
books that differ in no more than that. -/
theorem sideBySide_ending (h : ofParticipants team options = .ok o)
    (h' : ofParticipants team' options = .ok o') (hkind : options.kind ≠ .mapReduce)
    (hreads : options.ReadsContents) (hteams : Forall₂ Participant.Lookalike team team')
    (input : String) (w : World) :
    (o.ending input w).1 = (o'.ending input w).1 ∧
      SideBySide (.same Memory) Message.SameContent (o.ending input w).2 (o'.ending input w).2 := by
  obtain ⟨ho, hmembers⟩ := accepted_of_build h
  obtain ⟨-, hmembers'⟩ := accepted_of_build h'
  obtain ⟨hstrategy, htimeout⟩ := strategy_of_build h
  obtain ⟨hstrategy', htimeout'⟩ := strategy_of_build h'
  have hsame : o'.strategy = o.strategy := Except.ok.inj (hstrategy'.symm.trans hstrategy)
  have htime : o'.timeout = o.timeout := htimeout'.trans htimeout.symm
  have hpeers : Forall₂ (Member.Parallel (.same Memory) Message.SameContent) o.members
      o'.members := by
    rw [hmembers, hmembers']
    exact Participant.Lookalike.members hteams 0
  have hids : o'.ids = o.ids := (ids_eq (fun hm => hm.id) hpeers).symm
  have hagrees : (Unison.same Memory).Agrees (.after w.clock.now o.timeout)
      (.after w.clock.now o.timeout) := by
    rintro x _ rfl
    rfl
  have hbegin : SideBySide (.same Memory) Message.SameContent (o.beginning w)
      (o'.beginning w) := by
    refine ⟨rfl, ?_⟩
    rw [beginning, beginning, hids]
    exact .initial o.ids
  have hrespects := Strategy.respects_contents hstrategy hkind hreads
  have hends := Parallel.ends_run Message.sameContent_refl Message.content_eq hagrees hpeers
    ho.unique ho.works hrespects input hbegin
  unfold ending
  rw [hsame, htime]
  exact hends

/-- **No participant can impersonate another.** For supervisor, swarm, pipeline and debate, if the
participants of two runs differ only in the senders, the recipients and the metadata of their
successful replies, the runs leave one world, with one number of calls everywhere, and come to one
output, number of rounds, duration, pair of flags and blackboard. They send out the same messages in
the same order, announce the same events but for what the replies say of themselves, and each
participant has the same number of replies with the same contents. -/
theorem no_impersonation (h : ofParticipants team options = .ok o)
    (h' : ofParticipants team' options = .ok o') (hkind : options.kind ≠ .mapReduce)
    (hreads : options.ReadsContents) (hteams : Forall₂ Participant.Lookalike team team')
    (stamp : RunStamp) (input : String) (w : World) :
    let e := o.execute stamp input w
    let e' := o'.execute stamp input w
    e.1 = e'.1 ∧ e.2.output = e'.2.output ∧ e.2.rounds = e'.2.rounds ∧
    e.2.durationMs = e'.2.durationMs ∧ e.2.cancelled = e'.2.cancelled ∧
    e.2.timedOut = e'.2.timedOut ∧ e.2.blackboard = e'.2.blackboard ∧
    o.begun input w = o'.begun input w ∧
    SameExchanges Message.SameContent e.2.messages e'.2.messages ∧
    Forall₂ (fun a a' => a.agentId = a'.agentId ∧
      a.messages.map (·.content) = a'.messages.map (·.content))
      e.2.agentResults.entries e'.2.agentResults.entries ∧
    ∃ announced announced',
      (o.stream stamp {} input w).2 = announced ++ [.complete e.2] ∧
      (o'.stream stamp {} input w).2 = announced' ++ [.complete e'.2] ∧
      Forall₂ (Event.Alike Message.SameContent) announced announced' := by
  have ho := (accepted_of_build h).1
  have ho' := (accepted_of_build h').1
  have htime : o'.timeout = o.timeout :=
    (strategy_of_build h').2.trans (strategy_of_build h).2.symm
  obtain ⟨houtput, halike, hbooks⟩ :=
    sideBySide_ending h h' hkind hreads hteams input w
  obtain ⟨hclock, hmemory⟩ := Prod.mk.inj halike
  rw [stream_eq ho, stream_eq ho']
  simp only [execute_eq]
  refine ⟨?_, houtput, hbooks.rounds, ?_, ?_, ?_, hbooks.blackboard, begun_alike hbooks.occurrences,
    hbooks.messages, ?_, _, _, rfl, rfl, hbooks.events⟩
  · rw [hclock, hmemory]
  · exact congrArg (fun c : Clock => c.now - w.clock.now) hclock
  · exact congrArg Memory.cancelled hmemory
  · have hflag := congrArg
      (fun c : Clock => (Deadline.after w.clock.now o.timeout).passed c.now) hclock
    unfold report
    rw [htime]
    exact hflag
  · refine hbooks.results.imp fun a a' ha => ⟨ha.agentId, ?_⟩
    exact contents_eq Message.content_eq ha.messages

/-- An honest one, and one whose replies say of themselves what is given: the sender, the recipient
and the tags. -/
def posing (sender : String) (recipient : Option String) (metadata : Option Metadata) :
    List Participant :=
  [.simple ⟨"honest", "", ""⟩ fun _ m => { outcome := .ok m },
    .simple ⟨"poser", "", ""⟩ fun _ m =>
      { delay := 1, outcome := .ok { m with sender, recipient, metadata } }]

/-- A swarm that ends when all say the word. -/
def agreeing : Options :=
  { pattern := .swarm { converged := some fun ms => (ms.map (·.content)).all (· == "go") } }

theorem posing_lookalike (sender sender' : String) (recipient recipient' : Option String)
    (metadata metadata' : Option Metadata) :
    Forall₂ Participant.Lookalike (posing sender recipient metadata)
      (posing sender' recipient' metadata') := by
  refine .cons ?_ (.cons ?_ .nil)
  · exact Participant.lookalike_simple rfl fun _ _ => .refl Message.sameContent_refl _
  · exact Participant.lookalike_simple rfl fun _ _ => ⟨rfl, rfl, rfl, rfl, .ok rfl⟩

/-- A reply that poses as the failure of somebody else changes nothing. -/
theorem no_impersonation_posing :
    ∃ o o', ofParticipants (posing "poser" none none) agreeing = .ok o ∧
      ofParticipants (posing "honest" (some "honest") (Message.failure "honest" "").metadata)
        agreeing = .ok o' ∧
      (o.execute default "go" .fresh).1 = (o'.execute default "go" .fresh).1 ∧
      (o.execute default "go" .fresh).2.output = (o'.execute default "go" .fresh).2.output ∧
      o.begun "go" .fresh = o'.begun "go" .fresh := by
  obtain ⟨o, h⟩ : ∃ o, ofParticipants (posing "poser" none none) agreeing = .ok o := ⟨_, rfl⟩
  obtain ⟨o', h'⟩ : ∃ o, ofParticipants (posing "honest" (some "honest")
      (Message.failure "honest" "").metadata) agreeing = .ok o := ⟨_, rfl⟩
  have hreads : agreeing.ReadsContents := by
    rintro p check ⟨⟩ ⟨⟩ ms ms' hms
    simp only [hms]
  obtain ⟨hworld, houtput, -, -, -, -, -, hbegun, -⟩ :=
    no_impersonation h h' (by decide) hreads (posing_lookalike _ _ _ _ _ _) default "go" .fresh
  exact ⟨o, o', h, h', hworld, houtput, hbegun⟩

end Orchestration

end Ensemble
