import Ensemble.Proofs.Participant.Parallel
import Ensemble.Proofs.Stream.Permanence
import Ensemble.Proofs.Timing.Indifference

/-!
# Runs do not depend on earlier ones

All that one run of an orchestration leaves for the next is the clock, the counts of calls and the
flag. If the participants do the same at every call and nobody cancels, none of it matters: time
counts from the start of a run, and so does the order of delays. `Unison.shift` puts a run side by
side with one that starts at another moment, and `runs_independent` says that an input leads to the
same result however much has gone on before, streams included that were dropped on the way.
-/

namespace Ensemble

open List (Forall₂)

open Run

/-! ## Shifted clocks -/

/-- Clocks that show the same as seen from two starts. -/
structure Clock.Shifted (start start' c c' : Clock) : Prop where
  timer : c.timer + start'.timer = c'.timer + start.timer
  stalled : c.stalled + start'.stalled = c'.stalled + start.stalled
  delays : c.delays + start'.delays = c'.delays + start.delays

namespace Clock.Shifted

variable {start start' c c' : Clock}

theorem now (h : Shifted start start' c c') : c.now + start'.now = c'.now + start.now := by
  have htimer := h.timer
  have hstalled := h.stalled
  simp only [Clock.now]
  omega

theorem stall (h : Shifted start start' c c') (ms : Nat) :
    Shifted start start' (c.stall ms) (c'.stall ms) where
  timer := h.timer
  stalled := by
    have hstalled := h.stalled
    simp only [Clock.stall]
    omega
  delays := h.delays

theorem advance (h : Shifted start start' c c') {due due' : Nat}
    (hdue : due + start'.timer = due' + start.timer) :
    Shifted start start' (c.advance due) (c'.advance due') where
  timer := by
    have htimer := h.timer
    simp only [Clock.advance]
    omega
  stalled := h.stalled
  delays := h.delays

/-- One more delay begins. -/
theorem delay (h : Shifted start start' c c') :
    Shifted start start' { c with delays := c.delays + 1 }
      { c' with delays := c'.delays + 1 } where
  timer := h.timer
  stalled := h.stalled
  delays := by
    have hdelays := h.delays
    dsimp only
    omega

end Clock.Shifted

/-- Runs that started at two moments and have not been cancelled. -/
def Unison.shift (start start' : Clock) : Unison Memory where
  alike x y := Clock.Shifted start start' x.1 y.1 ∧ x.2.cancelled = false ∧ y.2.cancelled = false
  wakes w w' := w.due + start'.timer = w'.due + start.timer ∧
    w.rank + start'.delays = w'.rank + start.delays
  stall ms h := ⟨h.1.stall ms, h.2⟩
  delay {c c' _ _} ms h := by
    have htimer : c.timer + start'.timer = c'.timer + start.timer := h.1.timer
    exact ⟨⟨by dsimp only; omega, h.1.delays⟩, h.1.delay, h.2⟩
  before hv hw := by
    rw [Bool.eq_iff_iff]
    simp only [Wake.before, Bool.or_eq_true, Bool.and_eq_true, decide_eq_true_eq, beq_iff_eq]
    omega
  due hw h := by
    have htimer := h.1.timer
    omega
  advance hw h := ⟨h.1.advance hw.1, h.2⟩

/-- The deadline of a run that starts at a moment lies within reach of the clock, if it has one. -/
def Clock.InReach (started : Nat) (timeout : Option Duration) : Prop :=
  ∀ t, timeout = some t → started * 1000000 + t.toNanos < Deadline.horizon

theorem Clock.Shifted.passed {start start' c c' : Clock} (h : Shifted start start' c c')
    {timeout : Option Duration} (hreach : InReach start.now timeout)
    (hreach' : InReach start'.now timeout) :
    (Deadline.after start.now timeout).passed c.now =
      (Deadline.after start'.now timeout).passed c'.now := by
  have hnow := h.now
  rw [Bool.eq_iff_iff, Deadline.passed_after, Deadline.passed_after]
  constructor
  · rintro ⟨t, due, ht, hdue, -, hle⟩
    exact ⟨t, _, ht, rfl, hreach' t ht, by omega⟩
  · rintro ⟨t, due, ht, hdue, -, hle⟩
    exact ⟨t, _, ht, rfl, hreach t ht, by omega⟩

theorem Unison.shift_agrees {start start' : Clock} {timeout : Option Duration}
    (hreach : Clock.InReach start.now timeout) (hreach' : Clock.InReach start'.now timeout) :
    (Unison.shift start start').Agrees (.after start.now timeout)
      (.after start'.now timeout) := by
  rintro x y ⟨hshifted, hx, hy⟩
  rw [hx, hy, hshifted.passed hreach hreach']

/-! ## Participants that never change -/

namespace Participant

/-- A participant with nothing inside that does the same at every call for the same message. -/
def Steady : Participant → Prop
  | simple _ b => ∀ n n' message, b n message = b n' message
  | nested _ _ _ _ => False

theorem Steady.parallel {p : Participant} (h : p.Steady) (hcalm : p.Calm) (start start' : Clock)
    (position : Nat) :
    (p.member position).Parallel (.shift start start') Eq (p.member position) := by
  cases p with
  | nested profile b team options => exact h.elim
  | simple profile b =>
    refine ⟨rfl, fun message => parallel_answer ?_ ?_ ?_ (parallel_ownReply message)⟩
    · rintro c m c' m' ⟨hshifted, hm, hm'⟩
      exact ⟨hshifted, (Memory.cancelled_setMember _ _ m).trans hm,
        (Memory.cancelled_setMember _ _ m').trans hm'⟩
    · intro c m c' m' _
      rw [h (m.tally position) (m'.tally position) message]
      exact .refl (fun _ => rfl) _
    · intro n hcancels
      exact absurd ((hcalm n message).symm.trans hcancels) Bool.false_ne_true

theorem Steady.members {team : List Participant} (h : ∀ p ∈ team, p.Steady)
    (hcalm : ∀ p ∈ team, p.Calm) (start start' : Clock) (position : Nat) :
    Forall₂ (Member.Parallel (.shift start start') Eq) (members position team)
      (members position team) := by
  refine List.forall₂_same.mpr fun m hm => ?_
  obtain ⟨p, hp, i, rfl⟩ := of_mem_members hm
  exact (h p hp).parallel (hcalm p hp) start start' i

end Participant

/-! ## Books that are equal -/

theorem SameExchanges.eq {l l' : List Message} (h : SameExchanges Eq l l') : l = l' := by
  have hequal := h.forall₂ fun _ => rfl
  rwa [List.forall₂_eq_eq_eq] at hequal

theorem AgentTranscript.Alike.eq {e e' : AgentTranscript} (h : e.Alike Eq e') : e = e' := by
  obtain ⟨id, messages⟩ := e
  obtain ⟨id', messages'⟩ := e'
  obtain ⟨hid, hmessages⟩ := h
  rw [List.forall₂_eq_eq_eq] at hmessages
  exact congrArg₂ AgentTranscript.mk hid hmessages

theorem AgentResults.eq_of_alike {r r' : AgentResults}
    (h : Forall₂ (AgentTranscript.Alike Eq) r.entries r'.entries) : r = r' := by
  obtain ⟨entries⟩ := r
  obtain ⟨entries'⟩ := r'
  have hequal : Forall₂ Eq entries entries' := h.imp fun _ _ he => he.eq
  rw [List.forall₂_eq_eq_eq] at hequal
  exact congrArg AgentResults.mk hequal

theorem Event.eq_of_alike {events events' : List Event}
    (h : Forall₂ (Event.Alike Eq) events events') : events = events' := by
  have hequal : Forall₂ Eq events events' := by
    refine h.imp fun e e' he => ?_
    cases he with
    | same e => rfl
    | message id hm => rw [hm]
  rwa [List.forall₂_eq_eq_eq] at hequal

/-! ## Steps in which nobody cancels -/

namespace Orchestration

/-- A step in which nobody cancels from outside: a run, a stream that may be dropped after any
number of events, or something that goes on elsewhere. -/
def Step.Gentle : Step → Prop
  | .execute _ _ => True
  | .stream _ reader _ => reader.cancelAt = none
  | .cancel => False
  | .elsewhere _ => True

/-- With a reader who never cancels, the end of a reading is reached by steps of the run. -/
theorem follow_reaches {deadline : Deadline} {K : Regime deadline}
    {Q : Clock → Scene → RunResult → Prop} {reader : Reader} {c₀ : Clock} {s₀ : Scene}
    (hreader : reader.cancelAt = none) {p : Progress Scene RunResult}
    (h : p.Keeps Untouched K.step (fun c₀ s₀ c s a => K.step c₀ s₀ c s ∧ Q c s a) c₀ s₀)
    (journal received : Nat) :
    K.step c₀ s₀ (follow reader p journal received).last.world.clock
      (follow reader p journal received).last.scene := by
  have hreact : ∀ received events m, reader.react received events m = m := by
    intro received events m
    simp only [Reader.react, hreader]
  induction p generalizing c₀ s₀ journal received with
  | done c s result =>
    simp only [follow, Snapshot.scene, hreact]
    exact h.1
  | waiting w c s k ih =>
    simp only [follow, hreact]
    split
    · exact h.1
    · exact K.trans h.1 (K.trans (K.elapse c s w.due) (ih _ s (h.2 _ s rfl) _ _))

theorem reading_reaches {o : Orchestration} (ho : o.Accepted) {w : World}
    {K : Regime (.after w.clock.now o.timeout)} (hmembers : ∀ m ∈ o.members, m.Within K)
    (stamp : RunStamp) {reader : Reader} (hreader : reader.cancelAt = none) (input : String) :
    K.step w.clock (w.memory, .initial o.ids) (o.reading stamp reader input w).last.world.clock
      (o.reading stamp reader input w).last.scene := by
  unfold reading
  split
  · exact K.refl _ _
  · exact follow_reaches hreader (o.drive_keeps ho hmembers stamp input w.memory) 0 0

variable {team : List Participant} {options : Options} {o : Orchestration} {w : World}

/-- Without anybody who cancels the flag stays as it was. -/
theorem uncancelled_after (h : ofParticipants team options = .ok o) (hcalm : ∀ p ∈ team, p.Calm)
    (hw : w.memory.cancelled = false) {step : Step} (hstep : step.Gentle) :
    (o.after w step).memory.cancelled = false := by
  obtain ⟨ho, -⟩ := accepted_of_build h
  have hwithin := within_calm h hcalm (.after w.clock.now o.timeout)
  cases step with
  | execute stamp input =>
    rw [after, execute_eq]
    exact (ending_meets ho hwithin input).1 hw
  | stream stamp reader input =>
    rw [after, stream_eq_reading]
    exact reading_reaches ho hwithin stamp hstep input hw
  | cancel => exact hstep.elim
  | elsewhere clock => exact hw

theorem uncancelled_steps (h : ofParticipants team options = .ok o) (hcalm : ∀ p ∈ team, p.Calm)
    {steps : List Step} (hsteps : ∀ step ∈ steps, step.Gentle)
    (hw : w.memory.cancelled = false) : (steps.foldl o.after w).memory.cancelled = false := by
  induction steps generalizing w with
  | nil => exact hw
  | cons step steps ih =>
    refine ih (fun s hs => hsteps s (List.mem_cons_of_mem step hs)) ?_
    exact uncancelled_after h hcalm hw (hsteps step List.mem_cons_self)

/-! ## The same run at another moment -/

/-- Runs from two worlds end side by side. -/
theorem shifted_ending (h : ofParticipants team options = .ok o)
    (hsteady : ∀ p ∈ team, p.Steady) (hcalm : ∀ p ∈ team, p.Calm) (input : String) {w w' : World}
    (hw : w.memory.cancelled = false) (hw' : w'.memory.cancelled = false)
    (hreach : Clock.InReach w.clock.now o.timeout)
    (hreach' : Clock.InReach w'.clock.now o.timeout) :
    (o.ending input w).1 = (o.ending input w').1 ∧
      SideBySide (.shift w.clock w'.clock) Eq (o.ending input w).2 (o.ending input w').2 := by
  obtain ⟨ho, hmembers⟩ := accepted_of_build h
  have hpeers : Forall₂ (Member.Parallel (.shift w.clock w'.clock) Eq) o.members o.members := by
    rw [hmembers]
    exact Participant.Steady.members hsteady hcalm w.clock w'.clock 0
  have hbegin : SideBySide (.shift w.clock w'.clock) Eq (o.beginning w) (o.beginning w') :=
    ⟨⟨⟨Nat.add_comm _ _, Nat.add_comm _ _, Nat.add_comm _ _⟩, hw, hw'⟩, .initial o.ids⟩
  exact Parallel.ends_run (fun _ => rfl) (fun _ _ hm => congrArg Message.content hm)
    (Unison.shift_agrees hreach hreach') hpeers ho.unique ho.works o.strategy.respects_eq input
    hbegin

/-- **Runs of one orchestration are independent.** If its participants do the same at every call
for the same message and never cancel, and as long as nobody else cancels, then behind any steps,
runs with other inputs and streams that were dropped among them, an input has the result that it
had before them but for the stamp, and the same events. -/
theorem runs_independent (h : ofParticipants team options = .ok o)
    (hsteady : ∀ p ∈ team, p.Steady) (hcalm : ∀ p ∈ team, p.Calm) {steps : List Step}
    (hsteps : ∀ step ∈ steps, step.Gentle) (hw : w.memory.cancelled = false)
    (hreach : Clock.InReach w.clock.now options.timeout)
    (hreach' : Clock.InReach (steps.foldl o.after w).clock.now options.timeout)
    (stamp stamp' : RunStamp) (input : String) :
    let w' := steps.foldl o.after w
    (o.execute stamp' input w').2 = { (o.execute stamp input w).2 with stamp := stamp' } ∧
    ∃ announced,
      (o.stream stamp {} input w).2 = announced ++ [.complete (o.execute stamp input w).2] ∧
      (o.stream stamp' {} input w').2 = announced ++ [.complete (o.execute stamp' input w').2] := by
  intro w'
  have ho := (accepted_of_build h).1
  have htimeout : o.timeout = options.timeout := (strategy_of_build h).2
  rw [← htimeout] at hreach hreach'
  have hw' : w'.memory.cancelled = false := uncancelled_steps h hcalm hsteps hw
  obtain ⟨houtput, ⟨hshifted, hcancelled, hcancelled'⟩, hbooks⟩ :=
    shifted_ending h hsteady hcalm input hw hw' hreach hreach'
  have hnow : (o.ending input w).2.1.now + w'.clock.now =
      (o.ending input w').2.1.now + w.clock.now := hshifted.now
  have hduration : (o.ending input w').2.1.now - w'.clock.now =
      (o.ending input w).2.1.now - w.clock.now := by omega
  have hresult : (o.execute stamp' input w').2 =
      { (o.execute stamp input w).2 with stamp := stamp' } := by
    rw [execute_eq, execute_eq]
    simp only [report, conclude, Routine.runFrom, Progress.finish, houtput, hduration,
      hcancelled, hcancelled', hshifted.passed hreach hreach', hbooks.rounds, hbooks.blackboard,
      hbooks.messages.eq, AgentResults.eq_of_alike hbooks.results]
  refine ⟨hresult, (o.ending input w).2.2.2.events, ?_, ?_⟩
  · rw [stream_eq ho]
  · rw [stream_eq ho, Event.eq_of_alike hbooks.events]

/-- Two that take their time at every call. -/
def plodders : List Participant :=
  [.simple ⟨"slow", "", ""⟩ fun _ m => { delay := 3, outcome := .ok m },
    .simple ⟨"broken", "", ""⟩ fun _ _ => { stall := 2, delay := 1, outcome := .error "no" }]

/-- A chain with a time limit. -/
def hurried : Options := { pattern := .pipeline {}, timeout := some (.ofMillis 2) }

/-- Behind a run and a stream that was dropped, a run is timed out behind its first step as it was
before them. -/
theorem runs_independent_plodders :
    ∃ o, ofParticipants plodders hurried = .ok o ∧
      let w := o.after (o.after .fresh (.execute default "go"))
        (.stream default { take := some 2 } "on")
      w.clock.now ≠ 0 ∧ (o.execute default "go" .fresh).2.timedOut = true ∧
      (o.execute default "go" w).2 =
        { (o.execute default "go" .fresh).2 with stamp := default } := by
  obtain ⟨o, h⟩ : ∃ o, ofParticipants plodders hurried = .ok o := ⟨_, rfl⟩
  have hplodders : ∀ p ∈ plodders, p.Steady ∧ p.Calm := by
    intro p hp
    rcases List.mem_pair.mp hp with rfl | rfl
    · exact ⟨fun _ _ _ => rfl, fun _ _ => rfl⟩
    · exact ⟨fun _ _ _ => rfl, fun _ _ => rfl⟩
  let steps : List Step := [.execute default "go", .stream default { take := some 2 } "on"]
  have hsteps : ∀ step ∈ steps, step.Gentle := by
    intro step hstep
    rcases List.mem_pair.mp hstep with rfl | rfl
    · trivial
    · rfl
  have hclock : (steps.foldl o.after .fresh).clock.now ≠ 0 ∧
      (steps.foldl o.after .fresh).clock.now * 1000000 + (Duration.ofMillis 2).toNanos <
        Deadline.horizon ∧
      (o.execute default "go" .fresh).2.timedOut = true := by
    cases h
    decide +kernel
  obtain ⟨hresult, -⟩ := runs_independent h (fun p hp => (hplodders p hp).1)
    (fun p hp => (hplodders p hp).2) hsteps (w := .fresh) rfl (by rintro t ⟨⟩; decide)
    (by rintro t ⟨⟩; exact hclock.2.1) default default "go"
  exact ⟨o, h, hclock.1, hclock.2.2, hresult⟩

end Orchestration

end Ensemble
