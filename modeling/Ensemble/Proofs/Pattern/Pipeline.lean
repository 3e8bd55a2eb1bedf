import Ensemble.Participant.Basic
import Ensemble.Proofs.Stream.Rounds

/-!
# What a pipeline does

A step of a pipeline is a round in which one participant is asked again and again, up to its first
success; the next step gets what the last success has left. `Tries` tells the attempts at a step and
`Course` the steps, one after the other, both by the recursion of the program; `arrives_steps` says
that this is what every run does, and `pipeline_hands_on` what it comes to.
-/

namespace Ensemble

open Run

namespace Pipeline

/-- What the next step gets: who it is from, and the content. -/
abbrev Source := String × String

/-- What calls leave for the next one: the last successful reply among them, from whom it was asked
for, or what was there before. -/
def latest (source : Source) (calls : List Call) : Source :=
  ((calls.filterMap (·.given?)).getLast?.map fun g => (g.1, g.2.content)).getD source

theorem latest_append (source : Source) (calls more : List Call) :
    latest source (calls ++ more) = latest (latest source calls) more := by
  unfold latest
  rw [List.filterMap_append, List.getLast?_append]
  cases (more.filterMap (·.given?)).getLast? <;> simp

theorem latest_of_failed {source : Source} {calls : List Call}
    (h : ∀ c ∈ calls, c.success? = none) : latest source calls = source := by
  have hnone : calls.filterMap (·.given?) = [] :=
    List.filterMap_eq_nil_iff.mpr fun c hc => by simp [Call.given?, h c hc]
  simp [latest, hnone]

/-! ## Attempts at a step -/

/-- The calls of up to `left` attempts, numbered from `attempt` on and made as `ask` says, and what
they come to, if the run is at the instant `close` behind them. -/
inductive Tries (deadline : Deadline) (ask : Nat → Dispatch) (close : Instant) :
    (left attempt : Nat) → List Call → StepOutcome → Prop where
  | exhausted (attempt : Nat) : Tries deadline ask close 0 attempt [] .failed
  | stopped (left attempt : Nat) : close.stopped deadline = true →
      Tries deadline ask close (left + 1) attempt [] .stopped
  | succeeded (left attempt : Nat) (reply : Message) :
      Tries deadline ask close (left + 1) attempt [⟨ask attempt, .ok reply⟩]
        (.produced reply.content)
  | failed {left attempt calls outcome} (detail : String) :
      Tries deadline ask close left (attempt + 1) calls outcome →
      Tries deadline ask close (left + 1) attempt (⟨ask attempt, .error detail⟩ :: calls) outcome

namespace Tries

variable {deadline : Deadline} {ask : Nat → Dispatch} {close : Instant} {left attempt : Nat}
  {calls : List Call} {outcome : StepOutcome}

/-- Each attempt has its number, and there is none behind a success. -/
theorem asked (h : Tries deadline ask close left attempt calls outcome) {before after : List Call}
    {c : Call} (hcalls : calls = before ++ c :: after) :
    c.dispatch = ask (attempt + before.length) ∧ ∀ b ∈ before, b.success? = none := by
  induction h generalizing before with
  | exhausted => simp at hcalls
  | stopped => simp at hcalls
  | succeeded left attempt reply =>
    cases before with
    | nil =>
      obtain ⟨rfl, -⟩ := List.cons.inj hcalls
      simp
    | cons b before => simp at hcalls
  | @failed left attempt calls outcome detail _ ih =>
    cases before with
    | nil =>
      obtain ⟨rfl, -⟩ := List.cons.inj hcalls
      simp
    | cons b before =>
      obtain ⟨rfl, hrest⟩ := List.cons.inj hcalls
      obtain ⟨hask, hfailed⟩ := ih hrest
      constructor
      · rw [hask, List.length_cons, Nat.add_right_comm, Nat.add_assoc]
      · intro b' hb'
        rcases List.mem_cons.mp hb' with rfl | hb'
        · rfl
        · exact hfailed b' hb'

theorem bounded (h : Tries deadline ask close left attempt calls outcome) :
    calls.length ≤ left := by
  induction h with
  | exhausted => exact Nat.le_refl 0
  | stopped | succeeded => simp
  | failed _ _ ih => simpa using ih

/-- A success comes last, and its content is what the step has produced. -/
theorem produced {content : String}
    (h : Tries deadline ask close left attempt calls (.produced content)) :
    ∃ before reply n, calls = before ++ [⟨ask n, .ok reply⟩] ∧ reply.content = content := by
  generalize ho : StepOutcome.produced content = o at h
  induction h with
  | exhausted | stopped => cases ho
  | succeeded left attempt reply =>
    cases ho
    exact ⟨[], reply, attempt, rfl, rfl⟩
  | failed detail _ ih =>
    obtain ⟨before, reply, n, rfl, hreply⟩ := ih ho
    exact ⟨_ :: before, reply, n, rfl, hreply⟩

/-- A step fails when all attempts have failed, and is broken off only if the run has to stop. -/
theorem unproduced (h : Tries deadline ask close left attempt calls outcome) :
    (∃ content, outcome = .produced content) ∨
      (∀ c ∈ calls, c.success? = none) ∧
        (outcome = .failed ∧ calls.length = left ∨
          outcome = .stopped ∧ close.stopped deadline = true) := by
  induction h with
  | exhausted => simp
  | stopped left attempt hstop => simp [hstop]
  | succeeded => simp
  | failed detail _ ih =>
    rcases ih with hproduced | ⟨hfailed, hend⟩
    · exact .inl hproduced
    · refine .inr ⟨?_, ?_⟩
      · intro c hc
        rcases List.mem_cons.mp hc with rfl | hc
        · rfl
        · exact hfailed c hc
      · simpa using hend

end Tries

/-! ## One step after the other -/

/-- An attempt at the step has succeeded. -/
def Succeeded (l : Leg) : Prop := ∃ c ∈ l.calls, c.success? ≠ none

/-- The chain may go on behind the step: it has succeeded, or all attempts have failed and the
options pass over that. -/
def Passes (o : PipelineOptions) (l : Leg) : Prop :=
  Succeeded l ∨ l.calls.length = attempts o ∧ passesFailure o = true

/-- What the next step gets, if the chain goes on behind a step of a member. -/
def StepOutcome.next? (o : PipelineOptions) (m : Member) (source : Source) :
    StepOutcome → Option Source
  | produced content => some (m.id, content)
  | failed => if passesFailure o then some source else none
  | stopped => none

/-- The attempts at a step of a member. -/
abbrev Tried (o : PipelineOptions) (deadline : Deadline) (m : Member) (step : Nat)
    (source : Source) (l : Leg) (outcome : StepOutcome) : Prop :=
  Tries deadline (fun k => ⟨m, request source.1 source.2 step k m⟩) l.close (attempts o) 0 l.calls
    outcome

/-- The steps of the members given, numbered from `step` on, with what the first of them gets and
the instant before it; and the output. -/
inductive Course (o : PipelineOptions) (deadline : Deadline) : List Member → (step : Nat) →
    (source : Source) → (before : Instant) → List Leg → (output : String) → Prop where
  | nil (step : Nat) (source : Source) (before : Instant) :
      Course o deadline [] step source before [] source.2
  | refused {before} (m : Member) (rest : List Member) (step : Nat) (source : Source) :
      before.stopped deadline = true → Course o deadline (m :: rest) step source before [] source.2
  | last {m step source before l outcome} (rest : List Member) :
      before.stopped deadline = false → Tried o deadline m step source l outcome →
      outcome.next? o m source = none →
      Course o deadline (m :: rest) step source before [l] source.2
  | onward {m rest step source source' before l legs outcome output} :
      before.stopped deadline = false → Tried o deadline m step source l outcome →
      outcome.next? o m source = some source' →
      Course o deadline rest (step + 1) source' l.close legs output →
      Course o deadline (m :: rest) step source before (l :: legs) output

section

variable {o : PipelineOptions} {deadline : Deadline} {m : Member} {step : Nat}
  {source source' : Source} {l : Leg} {outcome : StepOutcome}

/-- If the chain goes on, the next step gets what the calls have left. -/
theorem Tried.next (h : Tried o deadline m step source l outcome)
    (hnext : outcome.next? o m source = some source') :
    source' = latest source l.calls ∧ Passes o l := by
  rcases h.unproduced with ⟨content, rfl⟩ | ⟨hfailed, ⟨rfl, hlength⟩ | ⟨rfl, -⟩⟩
  · obtain ⟨before, reply, n, hcalls, rfl⟩ := h.produced
    cases hnext
    constructor
    · simp [hcalls, latest, Call.given?, Call.success?, Call.id]
    · let c : Call := ⟨⟨m, request source.1 source.2 step n m⟩, .ok reply⟩
      have hc : c ∈ l.calls := by simp [hcalls, c]
      exact .inl ⟨c, hc, by simp [c, Call.success?]⟩
  · by_cases hpasses : passesFailure o = true
    · obtain rfl : source = source' := by simpa [StepOutcome.next?, hpasses] using hnext
      exact ⟨(latest_of_failed hfailed).symm, .inr ⟨hlength, hpasses⟩⟩
    · simp [StepOutcome.next?, hpasses] at hnext
  · cases hnext

/-- If it does not, the calls have left nothing, and the chain could not go on either. -/
theorem Tried.end (h : Tried o deadline m step source l outcome)
    (hnext : outcome.next? o m source = none) :
    latest source l.calls = source ∧ (l.close.stopped deadline = true ∨ ¬Passes o l) := by
  rcases h.unproduced with ⟨content, rfl⟩ | ⟨hfailed, ⟨rfl, hlength⟩ | ⟨rfl, hstop⟩⟩
  · cases hnext
  · refine ⟨latest_of_failed hfailed, .inr ?_⟩
    rintro (⟨c, hc, hsuccess⟩ | ⟨-, hpasses⟩)
    · exact hsuccess (hfailed c hc)
    · simp [StepOutcome.next?, hpasses] at hnext
  · exact ⟨latest_of_failed hfailed, .inl hstop⟩

end

namespace Course

variable {o : PipelineOptions} {deadline : Deadline} {members : List Member} {step : Nat}
  {source : Source} {before : Instant} {legs : List Leg} {output : String}

/-- The output is the content of what all calls have left. -/
theorem output_eq (h : Course o deadline members step source before legs output) :
    output = (latest source (legs.flatMap (·.calls))).2 := by
  induction h with
  | nil => simp [latest]
  | refused => simp [latest]
  | last _ _ htried hnext => simp [(htried.end hnext).1]
  | onward _ htried hnext _ ih =>
    rw [ih, List.flatMap_cons, latest_append, (htried.next hnext).1]

/-- The first step is taken if there is one and the run may go on. -/
theorem begins_iff (h : Course o deadline members step source before legs output) :
    0 < legs.length ↔ 0 < members.length ∧ before.stopped deadline = false := by
  cases h with
  | nil => simp
  | refused _ _ _ _ hstop => simp [hstop]
  | last _ hgo => simp [hgo]
  | onward hgo => simp [hgo]

/-- A step behind another one is taken if there is one, the run may go on, and the chain goes on
behind the other one. -/
theorem goesOn_iff (h : Course o deadline members step source before legs output) {i : Nat}
    {l : Leg} (hl : legs[i]? = some l) :
    i + 1 < legs.length ↔
      i + 1 < members.length ∧ l.close.stopped deadline = false ∧ Passes o l := by
  induction h generalizing i with
  | nil | refused => simp at hl
  | last rest _ htried hnext =>
    cases i with
    | zero =>
      obtain rfl : _ = l := by simpa using hl
      rcases (htried.end hnext).2 with hstop | hpasses
      · simp [hstop]
      · simp [hpasses]
    | succ i => simp at hl
  | onward _ htried hnext hrest ih =>
    cases i with
    | zero =>
      obtain rfl : _ = l := by simpa using hl
      simpa [(htried.next hnext).2] using hrest.begins_iff
    | succ i =>
      rw [List.getElem?_cons_succ] at hl
      simpa using ih hl

/-- Each step is tried by its member with what the calls before it have left. -/
theorem tried (h : Course o deadline members step source before legs output)
    {earlier later : List Leg} {l : Leg} (hlegs : legs = earlier ++ l :: later) :
    ∃ m outcome, members[earlier.length]? = some m ∧
      Tried o deadline m (step + earlier.length)
        (latest source (earlier.flatMap (·.calls))) l outcome := by
  induction h generalizing earlier with
  | nil | refused => simp at hlegs
  | @last m step source before l' outcome rest _ htried =>
    cases earlier with
    | nil =>
      obtain ⟨rfl, -⟩ := List.cons.inj hlegs
      exact ⟨m, outcome, rfl, htried⟩
    | cons x earlier => simp at hlegs
  | @onward m rest step source source' before l' legs outcome output _ htried hnext _ ih =>
    cases earlier with
    | nil =>
      obtain ⟨rfl, -⟩ := List.cons.inj hlegs
      exact ⟨m, outcome, rfl, htried⟩
    | cons x earlier =>
      obtain ⟨rfl, hrest⟩ := List.cons.inj hlegs
      obtain ⟨m', outcome', hm, htried'⟩ := ih hrest
      refine ⟨m', outcome', hm, ?_⟩
      rw [List.length_cons, List.flatMap_cons, latest_append, ← (htried.next hnext).1,
        Nat.add_comm earlier.length, ← Nat.add_assoc]
      exact htried'

/-- Every call asks with what the calls before it have left. -/
theorem threaded (h : Course o deadline members step source before legs output)
    {earlier later : List Call} {c : Call}
    (hcalls : legs.flatMap (·.calls) = earlier ++ c :: later) :
    (c.dispatch.message.sender, c.dispatch.message.content) = latest source earlier := by
  induction h generalizing earlier with
  | nil | refused => simp at hcalls
  | last _ _ htried =>
    rw [List.flatMap_singleton] at hcalls
    obtain ⟨hask, hfailed⟩ := htried.asked hcalls
    rw [hask, latest_of_failed hfailed]
    rfl
  | @onward m rest step source source' before l legs outcome output _ htried hnext _ ih =>
    rw [List.flatMap_cons] at hcalls
    rcases List.append_eq_append_iff.mp hcalls with ⟨more, rfl, hrest⟩ | ⟨more, hfirst, hrest⟩
    · rw [latest_append, ← (htried.next hnext).1]
      exact ih hrest
    · cases more with
      | nil =>
        have hcalls' : earlier = _ := (List.append_nil earlier).symm.trans hfirst.symm
        rw [hcalls', ← (htried.next hnext).1]
        have hnil : legs.flatMap (·.calls) = [] ++ c :: later := hrest.symm
        exact ih hnil
      | cons c' more =>
        obtain ⟨rfl, -⟩ := List.cons.inj hrest
        obtain ⟨hask, hfailed⟩ := htried.asked hfirst
        rw [hask, latest_of_failed hfailed]
        rfl

end Course

/-! ## The run -/

variable {deadline : Deadline}

/-- A run's attempts at a step. -/
theorem arrives_tryStep (m : Member) (source : Source) (step left attempt : Nat) (c : Clock)
    (s : Scene) :
    (tryStep deadline source.1 source.2 step m left attempt c s).Arrives Untouched
      (Regime.history deadline).toGuarantee
      (fun c' s' outcome => ∃ calls log, CallLog [] calls log ∧ s.2.Gains log calls s'.2 ∧
        Tries deadline (fun k => ⟨m, request source.1 source.2 step k m⟩) (instant c' s'.1) left
          attempt calls outcome) c s := by
  induction left generalizing attempt c s with
  | zero =>
    exact ⟨List.prefix_refl s.2.journal.toList, [], [], .start, .refl _, .exhausted attempt⟩
  | succ left ih =>
    let d : Dispatch := ⟨m, request source.1 source.2 step attempt m⟩
    refine (arrives_call (d := d) (m.within_history deadline) c s).andThen ?_
    rintro c' s' _ ⟨calls, log, hsingle, hgain, ⟨call, rfl, rfl⟩ | ⟨rfl, rfl, hstop⟩⟩
    · obtain ⟨d', answer⟩ := call
      obtain rfl : d' = d := hsingle.dispatch_eq _ List.mem_cons_self
      cases answer with
      | ok reply =>
        exact ⟨List.prefix_refl _, _, log, hsingle.callLog, hgain, .succeeded left attempt reply⟩
      | error detail =>
        refine (ih (attempt + 1) c' s').mono ?_
        rintro c'' s'' outcome ⟨calls, log', hlog', hgain', htries⟩
        exact ⟨_, _, hsingle.callLog.append hlog', hgain.trans hgain', .failed detail htries⟩
    · exact ⟨List.prefix_refl _, [], log, hsingle.callLog, hgain, .stopped left attempt hstop⟩

/-- The program goes on as the outcome of a step says. -/
theorem steps_cons (o : PipelineOptions) (m : Member) (rest : List Member) (step : Nat)
    (source : Source) :
    steps o deadline (m :: rest) step source.1 source.2 =
      (beginRound deadline step >>= fun begun =>
        if begun then
          tryStep deadline source.1 source.2 step m (attempts o) 0 >>= fun outcome =>
            endRound step >>= fun _ =>
              match outcome.next? o m source with
              | some next => steps o deadline rest (step + 1) next.1 next.2
              | none => pure source.2
        else pure source.2) := by
  rw [steps]
  refine congrArg (beginRound deadline step >>= ·) (funext fun begun => ?_)
  refine ite_congr rfl (fun _ => ?_) fun _ => rfl
  refine congrArg (tryStep deadline source.1 source.2 step m (attempts o) 0 >>= ·) ?_
  refine funext fun outcome => congrArg (endRound step >>= ·) (funext fun _ => ?_)
  cases outcome with
  | produced | stopped => rfl
  | failed => by_cases hpasses : passesFailure o = true <;> simp [StepOutcome.next?, hpasses]

/-- A run's steps. -/
theorem arrives_steps (deadline : Deadline) (o : PipelineOptions) {ids : List String}
    (chain : List Member) {groups : List (List Call)} (source : Source) (c : Clock) (s : Scene)
    (htold : Chronicle ids groups s.2) :
    (steps o deadline chain groups.length source.1 source.2 c s).Arrives Untouched
      (Regime.history deadline).toGuarantee
      (fun _ s' output => ∃ legs, Followed ids groups legs s'.2 ∧
        Course o deadline chain groups.length source (instant c s.1) legs output) c s := by
  induction chain generalizing groups source c s with
  | nil => exact ⟨List.prefix_refl s.2.journal.toList, [], .nil htold, .nil _ _ _⟩
  | cons m rest ih =>
    rw [steps_cons]
    refine arrives_begin (fun hgo r hbegun _ => ?_) fun hstop r hrefused _ =>
      ⟨List.prefix_refl r.journal.toList, [], .nil (htold.refused hrefused), .refused _ _ _ _ hstop⟩
    refine (arrives_tryStep m source groups.length (attempts o) 0 c (s.1, r)).andThen ?_
    rintro c' s' outcome ⟨calls, log, hlog, hgain, htried⟩
    let l : Leg := ⟨calls, instant c' s'.1⟩
    let s'' := noted (.roundEnded groups.length) c' s'
    have htold' : Chronicle ids (groups ++ [calls]) s''.2 :=
      ((htold.begun hbegun).calls hlog hgain).ended (gains_noted rfl c' s')
    have hmark : l.mark groups.length ∈ s''.2.journal.toList := Leg.mark_mem calls _ c' s'
    have hended : (Regime.history deadline).step c' s' c' s'' :=
      (Regime.history deadline).note (Entry.permitted_of_neither rfl rfl)
    refine Progress.Arrives.extend (s := s'') ?_ hended
    -- the next step is tried at the instant at which this one was over
    cases hnext : outcome.next? o m source with
    | none =>
      refine ⟨List.prefix_refl s''.2.journal.toList, [l], ?_, .last rest hgo htried hnext⟩
      exact Followed.cons (.nil htold') hmark
    | some next =>
      have hrest := ih next c' s'' htold'
      rw [List.length_append, List.length_singleton] at hrest
      refine hrest.grown.mono ?_
      rintro _ s₁ output ⟨⟨legs, hfollowed, hcourse⟩, hgrown⟩
      exact ⟨l :: legs, hfollowed.cons (hgrown.subset hmark), .onward hgo htried hnext hcourse⟩

/-! ## What it comes to -/

/-- How a member tried a step, and with what. -/
structure TriedBy (o : PipelineOptions) (deadline : Deadline) (m : Member) (step : Nat)
    (source : Source) (l : Leg) : Prop where
  /-- The attempts are numbered from zero on and ask for the same, and there is none behind a
  success. -/
  asked : ∀ before c after, l.calls = before ++ c :: after →
    c.dispatch = ⟨m, request source.1 source.2 step before.length m⟩ ∧
      ∀ b ∈ before, b.success? = none
  bounded : l.calls.length ≤ attempts o
  /-- Attempts end with a success, or when all of them have failed, or when the run has to stop. -/
  ended : Succeeded l ∨ l.calls.length = attempts o ∨ l.close.stopped deadline = true

theorem Tried.triedBy {o : PipelineOptions} {m : Member} {step : Nat} {source : Source} {l : Leg}
    {outcome : StepOutcome} (h : Tried o deadline m step source l outcome) :
    TriedBy o deadline m step source l where
  asked _ _ _ hcalls := by simpa using h.asked hcalls
  bounded := h.bounded
  ended := by
    rcases h.unproduced with ⟨content, rfl⟩ | ⟨-, ⟨-, hlength⟩ | ⟨-, hstop⟩⟩
    · obtain ⟨before, reply, n, hcalls, -⟩ := h.produced
      refine .inl ⟨_, hcalls ▸ List.mem_append_right _ List.mem_cons_self, ?_⟩
      simp [Call.success?]
    · exact .inr (.inl hlength)
    · exact .inr (.inr hstop)

/-- What the steps of a run, with their ends in its journal, say of a pipeline of the members given,
which began at an instant and came to an output. -/
structure Recounts (o : PipelineOptions) (deadline : Deadline) (members : List Member)
    (input : String) (start : Instant) (journal : List Entry) (legs : List Leg) (output : String) :
    Prop where
  marks : ∀ i (l : Leg), legs[i]? = some l → l.mark i ∈ journal
  /-- Every call asks with the content of the latest success before it, from whom it was asked
  for. -/
  threaded : ∀ before c after, legs.flatMap (·.calls) = before ++ c :: after →
    (c.dispatch.message.sender, c.dispatch.message.content) =
      latest (orchestratorName, input) before
  tried : ∀ before l after, legs = before ++ l :: after → ∃ m, members[before.length]? = some m ∧
    TriedBy o deadline m before.length
      (latest (orchestratorName, input) (before.flatMap (·.calls))) l
  begins : 0 < legs.length ↔ 0 < members.length ∧ start.stopped deadline = false
  goesOn : ∀ i l, legs[i]? = some l → (i + 1 < legs.length ↔
    i + 1 < members.length ∧ l.close.stopped deadline = false ∧ Passes o l)
  output : output = (latest (orchestratorName, input) (legs.flatMap (·.calls))).2

theorem Course.recounts {o : PipelineOptions} {members : List Member} {input : String}
    {start : Instant} {legs : List Leg} {output : String} {r : RunState} {ids : List String}
    (h : Course o deadline members 0 (orchestratorName, input) start legs output)
    (hfollowed : Followed ids [] legs r) :
    Recounts o deadline members input start r.journal.toList legs output where
  marks i l hl := by simpa using hfollowed.marks i l hl
  threaded _ _ _ := h.threaded
  tried before l after hlegs := by
    obtain ⟨m, outcome, hm, htried⟩ := h.tried hlegs
    rw [Nat.zero_add] at htried
    exact ⟨m, hm, htried.triedBy⟩
  begins := h.begins_iff
  goesOn _ _ := h.goesOn_iff
  output := h.output_eq

/-- Options that try equally often and pass over the same failures make the same run. -/
theorem steps_congr {o o' : PipelineOptions} (hattempts : attempts o' = attempts o)
    (hpasses : passesFailure o' = passesFailure o) (chain : List Member) (step : Nat)
    (sender content : String) :
    steps o' deadline chain step sender content = steps o deadline chain step sender content := by
  induction chain generalizing step sender content with
  | nil => rfl
  | cons m rest ih => simp only [steps, hattempts, hpasses, ih]

end Pipeline

namespace Orchestration

open Pipeline

/-- **A pipeline hands on the latest success.** Read to its end, a run of a pipeline shows one round
for each step that was taken. Every call asks with the content of the latest successful reply before
it, from the participant that was asked for that reply; a step is tried up to its first success, or
until all attempts have failed or the run has to stop; the next one is taken if there is one, the
run may go on, and the step has succeeded or failed for good in a way that is passed over; and the
output is the content of the last success, or the input. So a pipeline that stops at a failure, or
skips it, does what one does that has no further attempts and falls back to the same. -/
theorem pipeline_hands_on {members : List Member} {options : Options} {o : Orchestration}
    {p : PipelineOptions} (h : build members options = .ok o)
    (hp : options.pattern = .pipeline p) (stamp : RunStamp) {reader : Reader}
    (hreader : reader.take = none) (input : String) (w : World) :
    (∃ result announced legs,
      (o.stream stamp reader input w).2 = announced ++ [.complete result] ∧
      (reader = {} → (o.execute stamp input w).2 = result) ∧
      result.rounds = legs.length ∧
      Shown announced result.messages (legs.map (·.calls)) ∧
      Recounts p (.after w.clock.now o.timeout) members input (instant w.clock w.memory)
        (o.reading stamp reader input w).last.state.journal.toList legs result.output) ∧
    attempts p = (if p.errorStrategy = .retry then min (p.retryCount.toNat + 1) (UInt32.size - 1)
      else 1) ∧
    (passesFailure p = true ↔
      p.errorStrategy = .skip ∨ p.errorStrategy = .retry ∧ p.retryFallback = .skip) ∧
    (p.errorStrategy = .stop → ∃ o',
      build members { options with pattern := .pipeline ⟨.retry, 0, .stop⟩ } = .ok o' ∧
      o'.execute = o.execute ∧ o'.stream = o.stream) ∧
    (p.errorStrategy = .skip → ∃ o',
      build members { options with pattern := .pipeline ⟨.retry, 0, .skip⟩ } = .ok o' ∧
      o'.execute = o.execute ∧ o'.stream = o.stream) := by
  obtain ⟨ho, hmembers⟩ := accepted_of_build h
  have hstrategy : o.strategy = .pipeline p :=
    strategy_eq_of_build h (by rw [Strategy.ofOptions, hp])
  have hsame : ∀ p', attempts p' = attempts p → passesFailure p' = passesFailure p → ∃ o',
      build members { options with pattern := .pipeline p' } = .ok o' ∧
        o'.execute = o.execute ∧ o'.stream = o.stream := by
    intro p' hattempts hpasses
    have hfault : Options.fault? { options with pattern := .pipeline p' } (members.map (·.id)) =
        options.fault? (members.map (·.id)) := by
      rw [Options.fault?, Options.fault?, Options.kind, Options.kind, hp]
      rfl
    refine ⟨_, build_alike h hfault rfl, runs_eq hmembers.symm (strategy_of_build h).2.symm
      (by rw [hstrategy]; rfl) ?_⟩
    intro deadline input
    rw [hstrategy, hmembers]
    exact steps_congr hattempts hpasses members 0 orchestratorName input
  refine ⟨?_, ?_, ?_, fun hstop => hsame _ ?_ ?_, fun hskip => hsame _ ?_ ?_⟩
  · have hrun := arrives_steps (.after w.clock.now o.timeout) p o.members
      (orchestratorName, input) w.clock (w.memory, .initial o.ids) (chronicle_initial o.ids)
    obtain ⟨result, m, hends, legs, hfollowed, hcourse⟩ :=
      reading_ends o stamp hreader input w (by rw [hstrategy]; exact hrun)
    obtain ⟨hstream, hexecute, hrounds, hshown⟩ := shows_rounds hends hfollowed
    refine ⟨result, _, legs, hstream, hexecute, hrounds, hshown, ?_⟩
    rw [← hmembers]
    exact hcourse.recounts hfollowed
  · cases hkind : p.errorStrategy <;> simp [attempts, hkind, UInt32.size]
  · cases hkind : p.errorStrategy <;> simp [passesFailure, hkind]
  · simp [attempts, hstop, UInt32.size]
  · simp [passesFailure, hstop]
  · simp [attempts, hskip, UInt32.size]
  · simp [passesFailure, hskip]

/-- A pipeline of one that finds words at its second call only, and of one that never does. -/
def stammer : Except Error Orchestration :=
  ofParticipants
    [.simple ⟨"shy", "", ""⟩ fun n m => { outcome := if n = 0 then .error "er" else .ok m },
      .simple ⟨"mute", "", ""⟩ fun _ _ => { delay := 2, outcome := .error "no reply" }]
    { pattern := .pipeline ⟨.retry, 2, .skip⟩ }

/-- The first of them takes two calls and the second one three, and the output is what the first
has said. -/
theorem pipeline_hands_on_stammer :
    ∃ o, stammer = .ok o ∧ (∃ result announced legs,
      (o.stream default {} "go" .fresh).2 = announced ++ [.complete result] ∧
      (o.execute default "go" .fresh).2 = result ∧
      result.rounds = legs.length ∧
      Shown announced result.messages (legs.map (·.calls)) ∧
      Recounts ⟨.retry, 2, .skip⟩ (.after 0 o.timeout) o.members "go" ⟨0, false⟩
        (o.reading default {} "go" .fresh).last.state.journal.toList legs result.output) ∧
      (o.execute default "go" .fresh).2.agentResults.entries.map (·.messages.length) = [2, 3] ∧
      (o.execute default "go" .fresh).2.output = "go" := by
  obtain ⟨o, h⟩ : ∃ o, stammer = .ok o := ⟨_, rfl⟩
  refine ⟨o, h, ?_, ?_⟩
  · obtain ⟨⟨result, announced, legs, hstream, hexecute, hlegs⟩, -⟩ :=
      pipeline_hands_on h rfl default (show Reader.take {} = none from rfl) "go" .fresh
    rw [← (accepted_of_build h).2] at hlegs
    exact ⟨result, announced, legs, hstream, hexecute rfl, hlegs⟩
  · cases h
    decide +kernel

end Orchestration

end Ensemble
