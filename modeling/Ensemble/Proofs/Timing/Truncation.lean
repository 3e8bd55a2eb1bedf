import Ensemble.Proofs.Pairing.Lockstep
import Ensemble.Proofs.Pairing.Patterns
import Ensemble.Proofs.Participant.Forward
import Ensemble.Proofs.Stream.Stopping
import Ensemble.Proofs.Stream.Straight

/-!
# A deadline only truncates

Two runs from one start that differ in their deadlines are the same run until the earlier deadline
has passed. From then on nothing begins in the first run, and what the second one does no longer
shows in what was early. `Pairing.truncation` puts the two side by side, and `deadline_truncates`
says what that comes to: the calls of the run with less time are the first calls of the other, and
a run that ends in time is the same with more time.
-/

namespace Ensemble

open List (Forall₂)

open Run

/-! ## Early and late -/

/-- Whether a deadline is past. -/
def Clock.Late (d : Deadline) (c : Clock) : Prop := d.passed c.now = true

/-- The entries that were made before a deadline had passed. -/
def RunState.early (d : Deadline) (r : RunState) : List Entry :=
  r.journal.toList.filter fun e => !d.passed e.moment

/-- Once a deadline has passed it stays so, and what was early before it stays as it is. -/
def Run.Regime.steady (d deadline : Deadline) : Regime deadline where
  step c s c' s' := c.Late d → c'.Late d ∧ s'.2.early d = s.2.early d
  refl _ _ h := ⟨h, rfl⟩
  trans h h' hlate := ⟨(h' (h hlate).1).1, (h' (h hlate).1).2.trans (h hlate).2⟩
  note {o c s} _ hlate := by
    refine ⟨hlate, ?_⟩
    have hentry : d.passed (entry o c s).moment = true := hlate
    simp [RunState.early, noted, hentry]
  gather {c m r r'} hjournal hlate := ⟨hlate, by rw [RunState.early, hjournal]; rfl⟩
  elapse c s due hlate := ⟨Deadline.passed_mono (before_advance c s.1 due).moment hlate, rfl⟩

theorem Member.within_steady {m : Member} (h : ∀ message, (m.handle message).Forward)
    (d deadline : Deadline) : m.Within (.steady d deadline) := by
  have hsteady : ∀ c s c' s', forward.step c s c' s' →
      (Regime.steady d deadline).memory.step c s c' s' :=
    fun c s c' s' hbefore r hlate => ⟨Deadline.passed_mono hbefore.moment hlate, rfl⟩
  intro message c s hs
  exact (h message c s hs).mono (fun _ _ h => h) hsteady
    fun c s c' s' _ h => ⟨hsteady c s c' s' h.1, trivial⟩

variable {d₁ d₂ : Deadline} {α : Type}

/-- Two runs that are the same until the first deadline has passed. -/
def Pairing.truncation (d₁ d₂ : Deadline) : Pairing d₁ d₂ where
  one := .steady d₁ d₁
  two := .steady d₁ d₂
  abreast := Eq
  apart x y := x.1.Late d₁ ∧ y.1.Late d₁ ∧ x.2.2.early d₁ = y.2.2.early d₁
  lasts := by
    rintro x y x' y' ⟨hx, hy, hearly⟩ hone htwo
    obtain ⟨hx', hearlyx⟩ := hone hx
    obtain ⟨hy', hearlyy⟩ := htwo hy
    refine ⟨hx', hy', ?_⟩
    rw [hearlyx, hearlyy, hearly]
  reply := Eq
  reply_refl _ := rfl
  reply_content _ _ h := congrArg Message.content h

namespace Truncation

/-- Two routines that do the same as long as it is not late. -/
def Same (d₁ : Deadline) (r₁ r₂ : Routine Scene α) : Prop :=
  ∀ c s, ¬c.Late d₁ → r₁ c s = r₂ c s

theorem Same.bind {β : Type} {r₁ r₂ : Routine Scene α} (h : Same d₁ r₁ r₂)
    (f : α → Routine Scene β) : Same d₁ (r₁ >>= f) (r₂ >>= f) := by
  intro c s hlate
  rw [Routine.bind_apply, Routine.bind_apply, h c s hlate]

/-- What begins when it is late makes no difference any more. -/
theorem abreast_same {r₁ r₂ : Routine Scene α} (hone : Holds (.steady d₁ d₁) r₁)
    (htwo : Holds (.steady d₁ d₂) r₂) (h : Same d₁ r₁ r₂) :
    (Pairing.truncation d₁ d₂).Abreast r₁ r₂ Eq where
  one := hone
  two := htwo
  both := by
    rintro x _ rfl
    by_cases hlate : x.1.Late d₁
    · have hapart : (Pairing.truncation d₁ d₂).apart x x := ⟨hlate, hlate, rfl⟩
      exact .inr ((Pairing.truncation d₁ d₂).lasts hapart (Pairing.step_runFrom hone x)
        (Pairing.step_runFrom htwo x))
    · have hrun : r₁.runFrom x = r₂.runFrom x := by
        simp only [Routine.runFrom, h x.1 x.2 hlate]
      rw [hrun]
      exact .inl ⟨rfl, rfl⟩

variable (hle : ∀ now, d₂.passed now = true → d₁.passed now = true)

include hle in
theorem same_stopping : Same d₁ (stopping d₁) (stopping d₂) := by
  intro c s hlate
  have h₁ : d₁.passed c.now = false := eq_false_of_ne_true hlate
  have h₂ : d₂.passed c.now = false := eq_false_of_ne_true fun h => hlate (hle c.now h)
  rw [stopping, stopping, h₁, h₂]

include hle in
theorem same_invoke (m : Member) (message : Message) :
    Same d₁ (invoke d₁ m message) (invoke d₂ m message) :=
  (same_stopping hle).bind _

/-- The members of both runs, which never go back in time. -/
def Peers (m m' : Member) : Prop := m = m' ∧ ∀ message, (m.handle message).Forward

/-- Members of pools that do the same as long as it is not late. -/
structure Alike (d₁ d₂ : Deadline) (r r' : Routine Scene Settled) : Prop where
  one : r.Meets Anything (Regime.steady d₁ d₁).toGuarantee (fun _ => True) fun _ _ => True
  two : r'.Meets Anything (Regime.steady d₁ d₂).toGuarantee (fun _ => True) fun _ _ => True
  same : Same d₁ r r'

theorem inStep : (Pairing.truncation d₁ d₂).InStep Eq (Alike d₁ d₂) where
  one h := h.one
  two h := h.two
  turn := by
    rintro r r' ⟨hone, htwo, hsame⟩ x _ rfl
    by_cases hlate : x.1.Late d₁
    · exact .inl ⟨hlate, hlate, rfl⟩
    · refine .inr ?_
      have hx := hsame x.1 x.2 hlate
      have hkeeps := hone x.1 x.2 trivial
      have hkeeps' := htwo x.1 x.2 trivial
      rw [← hx] at hkeeps' ⊢
      cases hp : r x.1 x.2 with
      | done c s a => exact ⟨⟨rfl, rfl, .refl (fun _ => rfl) a.outcome⟩, rfl⟩
      | waiting w c s k =>
        rw [hp] at hkeeps hkeeps'
        exact ⟨rfl, rfl, fun c s _ => hkeeps.2 c s trivial, fun c s _ => hkeeps'.2 c s trivial,
          fun _ _ _ => rfl⟩

theorem lockstep : (Pairing.truncation d₁ d₂).Lockstep Eq where
  before := by
    rintro v _ w _ rfl rfl
    rfl
  due := by
    rintro w _ x _ rfl rfl
    rfl
  advance := by
    rintro w _ x _ rfl rfl
    rfl

include hle in
theorem alike_tasks {plan plan' : List Dispatch} (h : Forall₂ (Dispatch.Alike Peers) plan plan') :
    Forall₂ (Alike d₁ d₂) (tasks d₁ plan) (tasks d₂ plan') := by
  refine Pairing.forall₂_tasks ?_ h
  rintro ⟨m, message⟩ ⟨_, _⟩ n ⟨⟨rfl, hforward⟩, rfl⟩
  exact ⟨meets_perform (Member.within_steady hforward d₁ d₁) n,
    meets_perform (Member.within_steady hforward d₁ d₂) n, (same_invoke hle m message).bind _⟩

include hle in
theorem operations : (Pairing.truncation d₁ d₂).Operations Peers where
  ids h := congrArg Member.id h.1
  blackboard h := congrArg (fun x : Moment Scene => x.2.2.blackboard) h
  beginRound round := abreast_same (holds_beginRound round) (holds_beginRound round)
    ((same_stopping hle).bind _)
  endRound round := abreast_same (holds_endRound round) (holds_endRound round) fun _ _ _ => rfl
  post key value := abreast_same (Swarm.holds_post key value) (Swarm.holds_post key value)
    fun _ _ _ => rfl
  call := by
    rintro m _ message ⟨rfl, hforward⟩
    refine Pairing.Joins.weaken (V := Eq) ?_ ?_ fun _ _ h => h
    · exact abreast_same (holds_call (Member.within_steady hforward d₁ d₁) message)
        (holds_call (Member.within_steady hforward d₁ d₂) message)
        ((same_invoke hle m message).bind _)
    · rintro o _ rfl
      exact .refl (fun _ => rfl) o
  dispatchRound hplan _ := inStep.dispatchRound lockstep (alike_tasks hle hplan)

include hle in
/-- Whole runs of a strategy that differ in their deadlines. -/
theorem joins_run {members : List Member} (hmembers : ∀ m ∈ members, ∀ message,
      (m.handle message).Forward)
    (hunique : (members.map (·.id)).Nodup) {strategy : Strategy} (hworks : strategy.Works)
    (input : String) :
    (Pairing.truncation d₁ d₂).Abreast (strategy.run members d₁ input)
      (strategy.run members d₂ input) Eq := by
  have hpeers : Forall₂ Peers members members :=
    List.forall₂_same.mpr fun m hm => ⟨rfl, hmembers m hm⟩
  refine Strategy.joins_run (operations hle) hpeers hunique strategy.respects_eq (fun _ _ h => h)
    ?_ input ?_
  · intro m
    exact abreast_same (holds_recordMessage m) (holds_recordMessage m) fun _ _ _ => rfl
  · rintro job rfl
    have hplan := MapReduce.alike_plan (operations hle).ids hpeers (job.split input)
    exact inStep.mapPieces lockstep (alike_tasks hle hplan) hworks

end Truncation

/-! ## What is early comes first -/

/-- What is kept of a list by a condition that never holds again once it fails comes first. -/
theorem filter_first {β : Type} {p : β → Bool} {l : List β}
    (h : l.Pairwise fun a b => p b = true → p a = true) : l.filter p <+: l := by
  induction l with
  | nil => exact List.prefix_refl []
  | cons a l ih =>
    obtain ⟨ha, hl⟩ := List.pairwise_cons.mp h
    by_cases hp : p a = true
    · rw [List.filter_cons_of_pos hp]
      exact (List.prefix_cons_inj a).mpr (ih hl)
    · have hnone : l.filter p = [] := List.filter_eq_nil_iff.mpr fun b hb hpb => hp (ha b hb hpb)
      rw [List.filter_cons_of_neg hp, hnone]
      exact List.nil_prefix

/-- The participants and messages of the calls that begin in a journal. -/
def Entry.begun? (e : Entry) : Option (String × Message) := e.occurrence.begun?

theorem Entry.begins_of_begun? {e : Entry} (h : e.begun?.isSome = true) :
    e.occurrence.begins = true := by
  obtain ⟨o, moment, cancelled⟩ := e
  cases o with
  | callBegun id m => rfl
  | _ => cases h

namespace Stretch

variable {deadline : Deadline} {i j : Instant} {entries : List Entry}

/-- Along a stretch of a journal, what is early comes first. -/
theorem early_first (h : Stretch deadline i j entries) (d : Deadline) :
    entries.filter (fun e => !d.passed e.moment) <+: entries := by
  refine filter_first (h.ordered.imp fun {e e'} hbefore hearly => ?_)
  by_contra hlate
  have hpassed : d.passed e.moment = true := by simpa using hlate
  have hpassed' : d.passed e'.moment = true := Deadline.passed_mono hbefore.moment hpassed
  simp [hpassed'] at hearly

/-- All calls of a run with a deadline begin before it has passed. -/
theorem begun_early (h : Stretch deadline i j entries) :
    (entries.filter fun e => !deadline.passed e.moment).filterMap Entry.begun? =
      entries.filterMap Entry.begun? := by
  have hsome : ∀ e ∈ entries, deadline.passed e.moment = true → e.begun? = none := by
    intro e he hpassed
    have hstopped : e.stopped deadline = true := Bool.or_eq_true_iff.mpr (.inr hpassed)
    have hbegins := (h.permitted e he).begins_eq_false hstopped
    by_contra hbegun
    have hbegins' := Entry.begins_of_begun? (Option.isSome_iff_ne_none.mpr hbegun)
    rw [hbegins] at hbegins'
    cases hbegins'
  rw [List.filterMap_filter]
  refine List.filterMap_congr fun e he => ?_
  by_cases hpassed : deadline.passed e.moment = true
  · simp [hpassed, hsome e he hpassed]
  · simp [hpassed]

end Stretch

namespace Orchestration

/-- The participants and messages of the calls that a run begins, in the order in which it does. -/
def begun (o : Orchestration) (input : String) (w : World) : List (String × Message) :=
  (o.ending input w).2.2.2.occurrences.filterMap (·.begun?)

theorem begun_eq (o : Orchestration) (input : String) (w : World) :
    o.begun input w = (o.ending input w).2.2.2.journal.toList.filterMap Entry.begun? := by
  rw [begun, RunState.occurrences, List.filterMap_map]
  rfl

/-- The orchestration with another timeout. -/
def withTimeout (o : Orchestration) (t : Option Duration) : Orchestration :=
  { o with timeout := t }

/-- Options that differ in the timeout alone are accepted together, and for the same strategy. -/
theorem build_timeout (members : List Member) (options : Options) (t : Option Duration) :
    build members { options with timeout := t } =
      (build members options).map (·.withTimeout t) := by
  have hvalidate : Options.validate { options with timeout := t } (members.map (·.id)) =
      options.validate (members.map (·.id)) := rfl
  have hstrategy : Strategy.ofOptions { options with timeout := t } = Strategy.ofOptions options :=
    rfl
  simp only [build, hvalidate, hstrategy]
  cases options.validate (members.map (·.id)) with
  | error e => rfl
  | ok _ =>
    simp only [bind, Except.bind]
    cases Strategy.ofOptions options <;> rfl

theorem withTimeout_of_build {members : List Member} {options : Options} {t₁ t₂ : Option Duration}
    {o₁ o₂ : Orchestration} (h₁ : build members { options with timeout := t₁ } = .ok o₁)
    (h₂ : build members { options with timeout := t₂ } = .ok o₂) :
    ∃ o : Orchestration, o₁ = o.withTimeout t₁ ∧ o₂ = o.withTimeout t₂ := by
  rw [build_timeout] at h₁ h₂
  cases hbuild : build members options with
  | error e => rw [hbuild] at h₁; cases h₁
  | ok o =>
    rw [hbuild] at h₁ h₂
    exact ⟨o, (Except.ok.inj h₁).symm, (Except.ok.inj h₂).symm⟩

/-- One of two timeouts ends a run that starts at a moment no later than the other does. An absent
one never ends it, nor does one that leads beyond the reach of the clock. -/
def NoLater (started : Nat) (t₁ t₂ : Option Duration) : Prop :=
  ∀ b, t₂ = some b → started * 1000000 + b.toNanos < Deadline.horizon →
    ∃ a, t₁ = some a ∧ a.toNanos ≤ b.toNanos

theorem NoLater.passed {started : Nat} {t₁ t₂ : Option Duration} (h : NoLater started t₁ t₂)
    (now : Nat) (hpassed : (Deadline.after started t₂).passed now = true) :
    (Deadline.after started t₁).passed now = true := by
  obtain ⟨b, due, hb, hdue, hreach, hle⟩ := Deadline.passed_after.mp hpassed
  obtain ⟨a, ha, hab⟩ := h b hb (hdue ▸ hreach)
  exact Deadline.passed_after.mpr ⟨a, started * 1000000 + a.toNanos, ha, rfl, by omega, by omega⟩

variable {o : Orchestration} {t₁ t₂ : Option Duration} {input : String} {w : World}

/-- Calls that began before the runs lost each other are the first of the longer run. -/
theorem begun_first (h₁ : (o.withTimeout t₁).Accepted) (h₂ : (o.withTimeout t₂).Accepted)
    (hmembers : ∀ m ∈ o.members, ∀ message, (m.handle message).Forward)
    (hearly : ((o.withTimeout t₁).ending input w).2.2.2.early (.after w.clock.now t₁) =
      ((o.withTimeout t₂).ending input w).2.2.2.early (.after w.clock.now t₁)) :
    (o.withTimeout t₁).begun input w <+: (o.withTimeout t₂).begun input w := by
  have hbegun := (stretch_ending h₁ hmembers input w).begun_early
  have hprefix := (stretch_ending h₂ hmembers input w).early_first (.after w.clock.now t₁)
  rw [begun_eq, begun_eq]
  calc _ = (((o.withTimeout t₁).ending input w).2.2.2.early (.after w.clock.now t₁)).filterMap
        Entry.begun? := hbegun.symm
    _ = (((o.withTimeout t₂).ending input w).2.2.2.early (.after w.clock.now t₁)).filterMap
        Entry.begun? := by rw [hearly]
    _ <+: _ := hprefix.filterMap Entry.begun?

/-- Runs with the same ending differ in the flag of the timeout at most. -/
theorem execute_withTimeout (stamp : RunStamp)
    (hending : (o.withTimeout t₁).ending input w = (o.withTimeout t₂).ending input w)
    (hflag : ((o.withTimeout t₁).execute stamp input w).2.timedOut =
      ((o.withTimeout t₂).execute stamp input w).2.timedOut) :
    (o.withTimeout t₁).execute stamp input w = (o.withTimeout t₂).execute stamp input w := by
  rw [execute_eq, execute_eq] at hflag ⊢
  rw [hending] at hflag ⊢
  have hreport : ∀ t e, (o.withTimeout t).report stamp w.clock.now e =
      { o.report stamp w.clock.now e with
        timedOut := ((o.withTimeout t).report stamp w.clock.now e).timedOut } := fun _ _ => rfl
  rw [hreport t₁, hreport t₂, hflag]

/-- **A deadline only truncates.** Of two runs from one world that differ in their timeouts alone,
the one with less time begins the first of the calls that the other begins, in the same order and
with the same messages; and if it is not timed out, the runs leave the same world and the same
result, and announce the same events. -/
theorem deadline_truncates {participants : List Participant} {options : Options}
    {t₁ t₂ : Option Duration} {o₁ o₂ : Orchestration}
    (h₁ : ofParticipants participants { options with timeout := t₁ } = .ok o₁)
    (h₂ : ofParticipants participants { options with timeout := t₂ } = .ok o₂)
    (stamp : RunStamp) (input : String) (w : World) (ht : NoLater w.clock.now t₁ t₂) :
    o₁.begun input w <+: o₂.begun input w ∧
    ((o₁.execute stamp input w).2.timedOut = false →
      o₁.execute stamp input w = o₂.execute stamp input w ∧
      o₁.stream stamp {} input w = o₂.stream stamp {} input w) := by
  have ho₁ := (accepted_of_build h₁).1
  have ho₂ := (accepted_of_build h₂).1
  have hforward := forward_of_build h₁
  obtain ⟨o, rfl, rfl⟩ := withTimeout_of_build h₁ h₂
  let d₁ := Deadline.after w.clock.now t₁
  let d₂ := Deadline.after w.clock.now t₂
  have hends : (Pairing.truncation d₁ d₂).Ends Eq Eq ((o.withTimeout t₁).ending input w)
      ((o.withTimeout t₂).ending input w) :=
    (Truncation.joins_run ht.passed hforward ho₁.unique ho₁.works input).both
      ((o.withTimeout t₁).beginning w) ((o.withTimeout t₂).beginning w) rfl
  rcases hends with ⟨houtput, hmoment⟩ | ⟨hlate, -, hearly⟩
  · have hending : (o.withTimeout t₁).ending input w = (o.withTimeout t₂).ending input w :=
      Prod.ext houtput hmoment
    refine ⟨?_, fun hnot => ?_⟩
    · have hbegun : (o.withTimeout t₁).begun input w = (o.withTimeout t₂).begun input w :=
        congrArg (fun e => e.2.2.2.occurrences.filterMap (·.begun?)) hending
      exact hbegun ▸ List.prefix_refl _
    · have hnot₂ : ((o.withTimeout t₂).execute stamp input w).2.timedOut = false := by
        refine eq_false_of_ne_true fun hpassed => ?_
        rw [execute_eq] at hnot hpassed
        have hlate : d₁.passed ((o.withTimeout t₂).ending input w).2.1.now = true :=
          ht.passed _ hpassed
        rw [← hending] at hlate
        exact absurd (hlate.symm.trans hnot) (by decide)
      have hexecute := execute_withTimeout stamp hending (hnot.trans hnot₂.symm)
      refine ⟨hexecute, ?_⟩
      rw [stream_eq ho₁, stream_eq ho₂, hexecute, hending]
  · refine ⟨begun_first ho₁ ho₂ hforward hearly, fun hnot => ?_⟩
    rw [execute_eq] at hnot
    have hpassed : d₁.passed ((o.withTimeout t₁).ending input w).2.1.now = true := hlate
    exact absurd (hpassed.symm.trans hnot) (by decide)

/-- A chain. -/
def chain : Options := { pattern := .pipeline {} }

/-- Two that take their time, one after the other. -/
def relay (timeout : Option Duration) : Except Error Orchestration :=
  ofParticipants
    [.simple ⟨"first", "", ""⟩ fun _ m => { delay := 3, outcome := .ok m },
      .simple ⟨"second", "", ""⟩ fun _ m => { delay := 3, outcome := .ok m }]
    { chain with timeout }

example (o : Orchestration) (h : relay (some (.ofMillis 2)) = .ok o) :
    (o.begun "go" .fresh).map (·.1) = ["first"] := by
  cases h
  decide +kernel

/-- With nine milliseconds the relay ends as it does without a timeout. -/
theorem deadline_truncates_relay :
    ∃ o₁ o₂, relay (some (.ofMillis 9)) = .ok o₁ ∧ relay none = .ok o₂ ∧
      NoLater 0 (some (.ofMillis 9)) none ∧ o₁.begun "go" .fresh <+: o₂.begun "go" .fresh ∧
      (o₁.execute default "go" .fresh).2.timedOut = false ∧
      o₁.execute default "go" .fresh = o₂.execute default "go" .fresh ∧
      o₁.stream default {} "go" .fresh = o₂.stream default {} "go" .fresh := by
  obtain ⟨o₁, h₁⟩ : ∃ o, relay (some (.ofMillis 9)) = .ok o := ⟨_, rfl⟩
  obtain ⟨o₂, h₂⟩ : ∃ o, relay none = .ok o := ⟨_, rfl⟩
  have hlater : NoLater 0 (some (.ofMillis 9)) none := fun b hb => by cases hb
  have hnot : (o₁.execute default "go" .fresh).2.timedOut = false := by
    cases h₁
    decide +kernel
  obtain ⟨hbegun, hsame⟩ := @deadline_truncates _ chain _ _ o₁ o₂ h₁ h₂ default "go" .fresh hlater
  exact ⟨o₁, o₂, h₁, h₂, hlater, hbegun, hnot, hsame hnot⟩

end Orchestration

end Ensemble
