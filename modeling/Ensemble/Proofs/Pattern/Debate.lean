import Ensemble.Proofs.Run.Schedule
import Ensemble.Proofs.Stream.Rounds

/-!
# What is said in a debate

A round of a debate answers what was said last, and so does the judge: the replies of the latest
round that had any, or the input. The rounds hand on two things, though, this and the replies of the
round before, and a round without replies changes only the second of them. `after_schedule` says
what the two are after any rounds. `debate_reading` tells a whole run, and `debate_answers_replies`
what comes of it.
-/

namespace Ensemble

open Run

namespace Debate

/-! ## What was said last -/

/-- The replies of the latest round that had any, each behind the id of who gave it, or the input if
there is no such round. -/
def contextOf (ids : List String) (input : String) (legs : List Leg) : String :=
  match (legs.map fun l => replies ids l.calls).reverse.find? fun said => !said.isEmpty with
  | some said => "\n".intercalate (said.map fun r => "[" ++ r.1 ++ "]: " ++ r.2.content)
  | none => input

/-- The replies of the last round, if there was one. -/
def lastReplies (ids : List String) (legs : List Leg) : List (String × Message) :=
  legs.getLast?.elim [] fun l => replies ids l.calls

section

variable (ids : List String) (input : String) (legs : List Leg)

theorem contextOf_concat (l : Leg) : contextOf ids input (legs ++ [l]) =
    nextContext (contextOf ids input legs) (replies ids l.calls) := by
  rw [contextOf, nextContext, List.map_append, List.reverse_append]
  cases h : (replies ids l.calls).isEmpty with
  | true => simp [h, contextOf]
  | false => simp [h, joinAttributed]

theorem lastReplies_concat (l : Leg) : lastReplies ids (legs ++ [l]) = replies ids l.calls := by
  rw [lastReplies, List.getLast?_concat]
  rfl

/-- Where nobody is called, there is nothing to answer but the input. -/
theorem contextOf_of_silent {legs : List Leg} (h : ∀ l ∈ legs, l.calls = []) :
    contextOf ids input legs = input := by
  have hnone : (legs.map fun l => replies ids l.calls).reverse.find? (fun said => !said.isEmpty) =
      none := by
    refine List.find?_eq_none.mpr fun said hsaid => ?_
    obtain ⟨l, hl, rfl⟩ := List.mem_map.mp (List.mem_reverse.mp hsaid)
    rw [h l hl, replies_nil]
    exact Bool.false_ne_true
  rw [contextOf, hnone]

end

/-! ## The rounds -/

/-- The rounds of a debate, which leave what was said last and the replies of the last round. -/
def schedule (arguing : List Member) : Schedule (String × List (String × Message)) where
  plan round σ := arguing.map (request σ.1 round)
  next σ new := (nextContext σ.1 new, new)

theorem rounds_eq (arguing : List Member) (deadline : Deadline) (left round : Nat)
    (context : String) (last : List (String × Message)) :
    rounds arguing deadline left round context last =
      (schedule arguing).rounds deadline left round (context, last) := by
  induction left generalizing round context last with
  | zero => rfl
  | succ left ih =>
    rw [rounds, Schedule.rounds]
    simp only [ih]
    rfl

theorem fits_schedule {p : DebateOptions} {members : List Member} :
    (schedule (debaters p members)).Fits (members.map (·.id)) := by
  intro round σ
  simp only [schedule, List.map_map]
  exact List.filter_sublist.map fun m : Member => m.id

/-- The replies of the last round are only those of the last round, while what was said last may be
older. -/
theorem after_schedule (arguing : List Member) (ids : List String) (input : String)
    (legs : List Leg) : (schedule arguing).after ids (input, []) legs =
      (contextOf ids input legs, lastReplies ids legs) := by
  induction legs using List.reverseRecOn with
  | nil => rfl
  | append_singleton legs l ih =>
    rw [Schedule.after, List.foldl_concat, ← Schedule.after, ih, contextOf_concat,
      lastReplies_concat]
    rfl

/-! ## The verdict -/

/-- Who is asked for the verdict. -/
def arbiter? (p : DebateOptions) (members : List Member) : Option Member :=
  if p.voting = .judge then judge? p members else none

theorem arbiter?_eq_some {p : DebateOptions} {members : List Member} {judge : Member}
    (h : arbiter? p members = some judge) : p.voting = .judge ∧ p.judge = some judge.id := by
  unfold arbiter? at h
  split at h
  · next hvoting => exact ⟨hvoting, by simpa using List.find?_some h⟩
  · cases h

theorem exists_arbiter {p : DebateOptions} {members : List Member} (hvoting : p.voting = .judge)
    {m : Member} (hm : m ∈ members) (hjudge : p.judge = some m.id) :
    ∃ judge, arbiter? p members = some judge ∧ judge.id = m.id := by
  have hsome : (judge? p members).isSome := List.find?_isSome.mpr ⟨m, hm, decide_eq_true hjudge⟩
  obtain ⟨judge, hfound⟩ := Option.isSome_iff_exists.mp hsome
  have harbiter : arbiter? p members = some judge := by rw [arbiter?, if_pos hvoting, hfound]
  exact ⟨judge, harbiter, Option.some.inj ((arbiter?_eq_some harbiter).2.symm.trans hjudge)⟩

/-- The call that asks for the verdict. -/
def plea (context : String) (judge : Member) : Dispatch := ⟨judge, verdictRequest context judge⟩

/-- The calls and the journals of a debate behind its last round. -/
inductive Sought (context : String) : Option Member → List Call → List Occurrence → Prop where
  | nobody : Sought context none [] []
  | judge {judge : Member} {verdict log} : SingleLog (plea context judge) verdict log →
      Sought context (some judge) verdict log

namespace Sought

variable {context : String} {arbiter : Option Member} {verdict : List Call} {log : List Occurrence}

theorem callLog (h : Sought context arbiter verdict log) : CallLog [] verdict log := by
  cases h with
  | nobody => exact .start
  | judge h => exact h.callLog

theorem asked (h : Sought context arbiter verdict log) :
    log.filterMap (·.asked?) = (arbiter.map fun j => (plea context j).address).toList := by
  cases h with
  | nobody => rfl
  | judge h =>
    cases h with
    | skipped => rfl
    | made answer => cases answer <;> rfl

theorem dispatch_eq (h : Sought context arbiter verdict log) :
    ∀ c ∈ verdict, ∃ judge, arbiter = some judge ∧ c.dispatch = plea context judge := by
  cases h with
  | nobody => simp
  | @judge judge _ _ h => exact fun c hc => ⟨judge, rfl, h.dispatch_eq c hc⟩

theorem length_le (h : Sought context arbiter verdict log) : verdict.length ≤ 1 := by
  cases h with
  | nobody => exact Nat.zero_le 1
  | judge h => cases h <;> simp

/-- The judge is not left out unless something was forgone. -/
theorem heard {judge : Member} (h : Sought context (some judge) verdict log)
    (hall : ∀ o ∈ log, o.forgoes = false) : ∃ c ∈ verdict, c.dispatch = plea context judge := by
  cases h with
  | judge h =>
    cases h with
    | skipped => exact absurd (hall _ List.mem_cons_self) Bool.true_eq_false.mp
    | made answer => exact ⟨_, List.mem_cons_self, rfl⟩

end Sought

/-- What the vote comes to, if it comes to anything: `debaters` is the number of those who could
have replied, and `last` what they have replied in the last round. -/
def ruling? (voting : Voting) (debaters : Nat) (last : List (String × Message))
    (verdict : List Call) : Option String :=
  match voting with
  | .judge => (verdict.head?.bind (·.success?)).map (·.content)
  | .majority => majority? last
  | .unanimous => unanimous? last debaters

theorem arrives_judgeVerdict (deadline : Deadline) (judge : Option Member) (context : String)
    (c : Clock) (s : Scene) :
    (judgeVerdict judge deadline context c s).Arrives Untouched
      (Regime.history deadline).toGuarantee (fun _ s' output => ∃ verdict log,
        Sought context judge verdict log ∧ s.2.Gains log verdict s'.2 ∧
        output = ((verdict.head?.bind (·.success?)).map (·.content)).getD context) c s := by
  cases judge with
  | none =>
    exact ⟨List.prefix_refl s.2.journal.toList, [], [], .nobody, .refl s.2, rfl⟩
  | some judge =>
    refine (arrives_call (d := plea context judge) (judge.within_history deadline) c s).andThen ?_
    rintro c' s' outcome ⟨verdict, log, hlog, hgain, houtcome⟩
    rcases houtcome with ⟨⟨d, answer⟩, rfl, rfl⟩ | ⟨rfl, rfl, -⟩
    · cases answer <;>
        exact ⟨List.prefix_refl s'.2.journal.toList, _, log, .judge hlog, hgain, rfl⟩
    · exact ⟨List.prefix_refl s'.2.journal.toList, [], log, .judge hlog, hgain, rfl⟩

/-- How a debate comes to its output when its rounds are over. -/
def adjudicate (p : DebateOptions) (members : List Member) (deadline : Deadline) (context : String)
    (last : List (String × Message)) : Routine Scene String :=
  match p.voting with
  | .judge => judgeVerdict (judge? p members) deadline context
  | .majority => pure ((majority? last).getD context)
  | .unanimous => pure ((unanimous? last (debaters p members).length).getD context)

theorem run_eq (p : DebateOptions) (members : List Member) (deadline : Deadline) (input : String) :
    run p members deadline input = (schedule (debaters p members)).rounds deadline p.rounds.toNat 0
      (input, []) >>= fun σ => adjudicate p members deadline σ.1 σ.2 := by
  rw [run, rounds_eq]
  rfl

theorem arrives_adjudicate (p : DebateOptions) (members : List Member) (deadline : Deadline)
    (context : String) (last : List (String × Message)) (c : Clock) (s : Scene) :
    (adjudicate p members deadline context last c s).Arrives Untouched
      (Regime.history deadline).toGuarantee (fun _ s' output => ∃ verdict log,
        Sought context (arbiter? p members) verdict log ∧ s.2.Gains log verdict s'.2 ∧
        output = (ruling? p.voting (debaters p members).length last verdict).getD context) c s := by
  obtain ⟨count, judge, voting⟩ := p
  cases voting with
  | judge => exact arrives_judgeVerdict deadline _ context c s
  | majority | unanimous =>
    exact ⟨List.prefix_refl s.2.journal.toList, [], [], .nobody, .refl s.2, rfl⟩

/-! ## The whole run -/

/-- What a debate knows when it is over: its rounds, as they were in the books `r` before the judge
was asked, and what came of that. -/
structure Held (p : DebateOptions) (deadline : Deadline) (members : List Member) (input : String)
    (start : Instant) (legs : List Leg) (verdict : List Call) (output : String) (r r' : RunState) :
    Prop where
  followed : Followed (members.map (·.id)) [] legs r
  course : (schedule (debaters p members)).Course (members.map (·.id)) deadline r.Forgone
    p.rounds.toNat 0 (input, []) start legs
    (contextOf (members.map (·.id)) input legs, lastReplies (members.map (·.id)) legs)
  asked : r.asked = (schedule (debaters p members)).agenda (members.map (·.id)) 0 (input, []) legs
  later : r.journal.toList <+: r'.journal.toList
  sought : ∃ log, Sought (contextOf (members.map (·.id)) input legs) (arbiter? p members) verdict
    log ∧ r.Gains log verdict r'
  output_eq : output = (ruling? p.voting (debaters p members).length
    (lastReplies (members.map (·.id)) legs) verdict).getD
      (contextOf (members.map (·.id)) input legs)

theorem arrives_run (p : DebateOptions) (deadline : Deadline) {members : List Member}
    (hunique : (members.map (·.id)).Nodup) (input : String) (c : Clock) (m : Memory) :
    (run p members deadline input c (m, .initial (members.map (·.id)))).Arrives Untouched
      (Regime.history deadline).toGuarantee (fun _ s output => ∃ legs verdict r,
        Held p deadline members input (instant c m) legs verdict output r s.2) c
      (m, .initial (members.map (·.id))) := by
  rw [run_eq]
  refine (Schedule.arrives_rounds fits_schedule hunique p.rounds.toNat (input, []) c
    (m, .initial (members.map (·.id))) (chronicle_initial _)).andThen ?_
  rintro c' s' τ ⟨legs, hfollowed, hcourse, hasked⟩
  obtain rfl : τ = (contextOf (members.map (·.id)) input legs,
      lastReplies (members.map (·.id)) legs) := by
    rw [hcourse.after_eq, after_schedule]
  refine (arrives_adjudicate p members deadline _ _ c' s').grown.mono ?_
  rintro _ s'' output ⟨⟨verdict, log, hsought, hgain, houtput⟩, hgrown⟩
  exact ⟨legs, verdict, s'.2, hfollowed, hcourse, hasked, hgrown, ⟨log, hsought, hgain⟩, houtput⟩

/-! ## What it comes to -/

/-- What a debate shows: its rounds, and behind them the calls that asked for the verdict. -/
structure Aired (events : List Event) (result : RunResult) (legs : List Leg)
    (verdict : List Call) : Prop where
  rounds : result.rounds = legs.length
  shown : ∃ announced coda transcript, events = announced ++ coda ++ [.complete result] ∧
    Shown announced transcript (legs.map (·.calls)) ∧ Event.Reports coda verdict ∧
    result.messages = transcript ++ verdict.flatMap (·.exchange)

/-- How a debate proceeds: the rounds of the run that its journal tells of, which began at an
instant, and the calls that asked for the verdict. -/
structure Proceeds (p : DebateOptions) (deadline : Deadline) (members : List Member)
    (input : String) (start : Instant) (journal : List Entry) (legs : List Leg)
    (verdict : List Call) : Prop where
  /-- In all rounds all debaters are asked, in the order of registration. -/
  rounds : Conducted deadline (members.map (·.id))
    (fun k => (members.filter fun m => p.judge ≠ some m.id).map
      (request (contextOf (members.map (·.id)) input (legs.take k)) k))
    p.rounds.toNat start
    ((arbiter? p members).map fun j =>
      (plea (contextOf (members.map (·.id)) input legs) j).address).toList journal legs
  answers : ∀ k (l : Leg), legs[k]? = some l → ∀ c ∈ l.calls, p.judge ≠ some c.id ∧
    c.dispatch.message.content = contextOf (members.map (·.id)) input (legs.take k)
  atMostOnce : verdict.length ≤ 1
  judges : ∀ c ∈ verdict, p.voting = .judge ∧ p.judge = some c.id ∧
    c.dispatch.message.content = contextOf (members.map (·.id)) input legs
  /-- If the run never had to stop, the judge is heard. -/
  heard : (∀ e ∈ journal, e.stopped deadline = false) → p.voting = .judge →
    ∀ m ∈ members, p.judge = some m.id → ∃ c ∈ verdict, c.id = m.id
  /-- If there is nobody else, only the input is ever answered. -/
  alone : (∀ m ∈ members, p.judge = some m.id) →
    ∀ k, contextOf (members.map (·.id)) input (legs.take k) = input

theorem Held.proceeds {p : DebateOptions} {deadline : Deadline} {members : List Member}
    {input : String} {start : Instant} {legs : List Leg} {verdict : List Call} {output : String}
    {r r' : RunState} (h : Held p deadline members input start legs verdict output r r')
    (hpermitted : ∀ e ∈ r'.journal.toList, e.Permitted deadline) :
    Proceeds p deadline members input start r'.journal.toList legs verdict := by
  obtain ⟨log, hsought, hgain⟩ := h.sought
  -- whom the rounds have asked, and then the judge
  have hasked := hgain.asked
  rw [h.asked, hsought.asked] at hasked
  have hrounds := h.course.conducted h.followed h.later hpermitted hasked
  simp only [after_schedule] at hrounds
  have hanswers : ∀ k (l : Leg), legs[k]? = some l → ∀ c ∈ l.calls, p.judge ≠ some c.id ∧
      c.dispatch.message.content = contextOf (members.map (·.id)) input (legs.take k) := by
    intro k l hl c hc
    obtain ⟨m, hm, hdispatch⟩ := List.mem_map.mp (hrounds.called k l hl c hc)
    rw [Call.id, ← hdispatch]
    exact ⟨of_decide_eq_true (List.mem_filter.mp hm).2, rfl⟩
  refine ⟨hrounds, hanswers, hsought.length_le, ?_, ?_, ?_⟩
  · intro c hc
    obtain ⟨judge, harbiter, hdispatch⟩ := hsought.dispatch_eq c hc
    rw [Call.id, hdispatch]
    exact ⟨(arbiter?_eq_some harbiter).1, (arbiter?_eq_some harbiter).2, rfl⟩
  · intro hstopped hvoting m hm hjudge
    obtain ⟨judge, harbiter, hid⟩ := exists_arbiter hvoting hm hjudge
    rw [harbiter] at hsought
    have hall : ∀ o ∈ log, o.forgoes = false := fun o ho => eq_false_of_ne_true fun hforgoes =>
      r'.not_forgone hpermitted hstopped (hgain.forgone ho hforgoes)
    obtain ⟨c, hc, hdispatch⟩ := hsought.heard hall
    exact ⟨c, hc, by rw [Call.id, hdispatch]; exact hid⟩
  · intro halone k
    refine contextOf_of_silent _ _ fun l hl => List.eq_nil_iff_forall_not_mem.mpr fun c hc => ?_
    obtain ⟨i, hi⟩ := List.getElem?_of_mem (List.mem_of_mem_take hl)
    obtain ⟨m, hm, -⟩ := List.mem_map.mp (hrounds.called i l hi c hc)
    obtain ⟨hmember, hdebater⟩ := List.mem_filter.mp hm
    exact of_decide_eq_true hdebater (halone m hmember)

end Debate

namespace Orchestration

open Debate

variable {members : List Member} {options : Options} {o : Orchestration} {reader : Reader}

/-- A run of a debate, read to its end. -/
theorem debate_reading {p : DebateOptions} (h : build members options = .ok o)
    (hp : options.pattern = .debate p) (stamp : RunStamp) (hreader : reader.take = none)
    (input : String) (w : World) :
    ∃ result legs verdict r, (o.reading stamp reader input w).Ends result ∧
      Held p (.after w.clock.now o.timeout) members input (instant w.clock w.memory) legs verdict
        result.output r (o.reading stamp reader input w).last.state := by
  obtain ⟨ho, rfl⟩ := accepted_of_build h
  have hstrategy : o.strategy = .debate p :=
    strategy_eq_of_build h (by rw [Strategy.ofOptions, hp])
  have hrun := arrives_run p (.after w.clock.now o.timeout) ho.unique input w.clock w.memory
  obtain ⟨result, m, hends, legs, verdict, r, hheld⟩ :=
    reading_ends o stamp hreader input w (by rw [hstrategy]; exact hrun)
  exact ⟨result, legs, verdict, r, hends, hheld⟩

theorem airs_debate {p : DebateOptions} {deadline : Deadline} {stamp : RunStamp} {input : String}
    {w : World} {start : Instant} {legs : List Leg} {verdict : List Call} {result : RunResult}
    {output : String} {r : RunState} (hends : (o.reading stamp reader input w).Ends result)
    (hheld : Held p deadline members input start legs verdict output r
      (o.reading stamp reader input w).last.state) :
    Aired (o.stream stamp reader input w).2 result legs verdict := by
  obtain ⟨log, hsought, hgain⟩ := hheld.sought
  obtain ⟨hshown, hrounds⟩ := hheld.followed.told.shown
  rw [List.nil_append] at hshown hrounds
  refine ⟨?_, r.events, _, r.messages.toList, ?_, hshown, hsought.callLog.reports, ?_⟩
  · rw [hends.rounds, hgain.rounds, hsought.callLog.countP_beginsRound, hrounds, List.length_map]
    rfl
  · rw [stream_of_ends hends, hgain.events]
  · rw [hends.messages, hgain.messages]

/-- **A debate answers what was said last.** Read to its end, a run of a debate shows its rounds. In
each of them everyone but the judge is asked, in the order of registration, with the replies of the
latest round before it that had any, or with the input. The judge is asked behind the last round, at
most once and only for a verdict of the judge, with the replies of the latest of all rounds that had
any; and this is the output where the vote comes to nothing. -/
theorem debate_answers_replies {p : DebateOptions} (h : build members options = .ok o)
    (hp : options.pattern = .debate p) (stamp : RunStamp) (hreader : reader.take = none)
    (input : String) (w : World) :
    ∃ result legs verdict,
      Aired (o.stream stamp reader input w).2 result legs verdict ∧
      (reader = {} → (o.execute stamp input w).2 = result) ∧
      Proceeds p (.after w.clock.now o.timeout) members input (instant w.clock w.memory)
        (o.reading stamp reader input w).last.state.journal.toList legs verdict ∧
      result.output = (ruling? p.voting (debaters p members).length
        (lastReplies (members.map (·.id)) legs) verdict).getD
          (contextOf (members.map (·.id)) input legs) := by
  obtain ⟨result, legs, verdict, r, hends, hheld⟩ := debate_reading h hp stamp hreader input w
  refine ⟨result, legs, verdict, airs_debate hends hheld, ?_, hheld.proceeds ?_, hheld.output_eq⟩
  · rintro rfl
    exact execute_of_ends hends
  · exact reading_permitted (accepted_of_build h).1 stamp hends.concluded

/-- A debate of two before a judge; one of them has something to say in the first round only. -/
def trial : Except Error Orchestration :=
  ofParticipants
    [.simple ⟨"pro", "", ""⟩ fun n m => { outcome := if n = 0 then .ok m else .error "no more" },
      .simple ⟨"judge", "", ""⟩ fun _ m => { delay := 7, outcome := .ok m },
      .simple ⟨"con", "", ""⟩ fun _ _ => { outcome := .error "nothing to say" }]
    { pattern := .debate { rounds := 2, judge := some "judge" } }

/-- They have two rounds. -/
theorem debate_answers_replies_trial :
    ∃ o, trial = .ok o ∧ ∃ result legs verdict,
      Aired (o.stream default {} "motion" .fresh).2 result legs verdict ∧
      (o.execute default "motion" .fresh).2 = result ∧
      Proceeds { rounds := 2, judge := some "judge" } (.after 0 o.timeout) o.members "motion"
        ⟨0, false⟩ (o.reading default {} "motion" .fresh).last.state.journal.toList legs verdict ∧
      result.output = (ruling? .judge 2 (lastReplies o.ids legs) verdict).getD
        (contextOf o.ids "motion" legs) := by
  obtain ⟨o, h⟩ : ∃ o, trial = .ok o := ⟨_, rfl⟩
  obtain ⟨result, legs, verdict, haired, hexecute, hproceeds, houtput⟩ :=
    debate_answers_replies h rfl default (show Reader.take {} = none from rfl) "motion" .fresh
  rw [← (accepted_of_build h).2] at hproceeds houtput
  refine ⟨o, h, result, legs, verdict, haired, hexecute rfl, hproceeds, ?_⟩
  cases h
  exact houtput

end Orchestration

end Ensemble
