import Ensemble.Proofs.Participant.Answer
import Ensemble.Proofs.Run.Idle
import Ensemble.Proofs.Stream.Stopping
import Ensemble.Proofs.Stream.Straight

/-!
# Cancellation is permanent

An orchestration is executed, streamed and cancelled in any order. Whatever sets the flag at any
moment of that, be it from outside, by a participant in the middle of a run or by the reader of a
stream, it is set from then on, and a run that begins with it makes no calls at all.
`cancellation_lasts` says so for all participants, patterns and sequences of steps, together with
what such a run leaves, and that a run without any time leaves the same.
-/

namespace Ensemble

open Run

theorem Memory.cancel_eq {m : Memory} (h : m.cancelled = true) : m.cancel = m := by
  obtain ⟨calls, cancelled, members⟩ := m
  cases h
  rfl

/-! ## Participants that cancel -/

/-- Others may cancel, but they undo no cancellation. -/
def Lasting (m m' : Memory) : Prop := m.cancelled = true → m'.cancelled = true

section

variable {α : Type}

/-- A routine on the memory behind which the flag is set. -/
abbrev Routine.Flags (P : Memory → Prop) (r : Routine Memory α) : Prop :=
  r.Meets Lasting forward P fun _ m => m.cancelled = true

theorem Routine.Forward.meets {r : Routine Memory α} (h : r.Forward) :
    r.Meets Lasting forward (fun _ => True) fun _ _ => True :=
  fun c m _ => (h c m trivial).mono (fun _ _ _ => trivial) (fun _ _ _ _ h => h)
    fun _ _ _ _ _ h => h

/-- Whatever only moves forward leaves a flag that is set. -/
theorem Routine.Forward.flags {r : Routine Memory α} (h : r.Forward) :
    r.Flags fun m => m.cancelled = true := by
  intro c m hm
  have hkeeps := (h.meets c m trivial).invariant (I := fun m => m.cancelled = true) hm
    (fun m m' (hlasts : Lasting m m') hm => hlasts hm) fun c m c' m' hstep => hstep.cancelled
  refine hkeeps.mono (fun _ _ h => h) (fun _ _ _ _ h => h) ?_
  rintro c₀ m₀ c' m' a ⟨hflag, hstep, -⟩
  exact ⟨hstep, hstep.cancelled hflag⟩

theorem Routine.flags_cancel {P : Memory → Prop} : (modify Memory.cancel).Flags P :=
  meets_modify fun c m _ => ⟨before_cancel c m, Memory.cancelled_cancel m⟩

end

namespace Participant

/-- A call whose action cancels is over with the flag set. -/
theorem answer_flags {position : Nat} {behaviour : Behaviour}
    {reply : Message → Message → Routine Memory (Except String Message)}
    (hreply : ∀ message m, (reply message m).Forward) (message : Message) :
    (answer position behaviour reply message).Flags
      fun m => (behaviour (m.member position).calls message).cancels = true := by
  have hcount : (countCall position).Meets Lasting forward
      (fun m => (behaviour (m.member position).calls message).cancels = true)
      fun n _ => (behaviour n message).cancels = true :=
    fun c m h => ⟨before_setMember (Nat.le_refl _) m position _, h⟩
  unfold answer
  refine hcount.bind fun n => ?_
  refine Routine.Meets.ite (fun _ => ?_) fun hbefore => ?_
  · -- the flag is set before anything else happens, and nothing undoes that
    refine Routine.flags_cancel.bind fun _ => Routine.Forward.flags ?_
    refine (Routine.forward_stall _).bind fun _ => (Routine.forward_delay _).bind fun _ => ?_
    cases (behaviour n message).outcome with
    | ok m =>
      exact (hreply message m).bind fun outcome =>
        Routine.forward_ite_cancel fun _ => Routine.forward_pure outcome
    | error detail =>
      exact (Routine.forward_pure _).bind fun outcome =>
        Routine.forward_ite_cancel fun _ => Routine.forward_pure outcome
  · intro c m hcancels
    have hafter : (behaviour n message).cancelsAfter = true :=
      (Bool.or_eq_true_iff.mp hcancels).resolve_left hbefore
    have hlast : ∀ outcome : Except String Message,
        (do if (behaviour n message).cancelsAfter then Routine.modify Memory.cancel
            return outcome : Routine Memory (Except String Message)).Flags fun _ => True := by
      intro outcome
      rw [if_pos hafter]
      exact Routine.flags_cancel.bind fun _ => Routine.meets_pure fun _ h => h
    refine ((Routine.forward_stall _).meets.bind fun _ =>
      (Routine.forward_delay _).meets.bind fun _ => ?_) c m trivial
    cases (behaviour n message).outcome with
    | ok m => exact (hreply message m).meets.bind fun outcome => hlast outcome
    | error detail => exact (Routine.forward_pure _).meets.bind fun outcome => hlast outcome

theorem member_flags (position : Nat) (p : Participant) (message : Message) :
    ((p.member position).handle message).Flags
      fun m => (p.behaviour (m.member position).calls message).cancels = true := by
  cases p with
  | simple profile b => exact answer_flags ownReply_forward message
  | nested profile b team options =>
    refine answer_flags (innerReply_forward fun o ho input => ?_) message
    have haccepted := (Orchestration.accepted_of_build ho).1
    exact Orchestration.perform_forward haccepted (Orchestration.forward_of_build ho) default input

end Participant

/-- At some moment of a reading the flag was set: when something happened, or at a pause. -/
def Reading.Flagged (R : Reading) : Prop :=
  (∃ e ∈ R.entries, e.cancelled = true) ∨ ∃ x ∈ R.snapshots, x.world.memory.cancelled = true

namespace Orchestration

/-! ## Runs without calls -/

/-- The result of a run that makes no calls. -/
def idle (o : Orchestration) (stamp : RunStamp) (input : String) (w : World) : RunResult where
  stamp
  output := o.strategy.idleOutput input
  messages := o.strategy.idleMessages
  pattern := o.strategy.kind
  agentResults := .seeded o.ids
  durationMs := 0
  rounds := 0
  cancelled := w.memory.cancelled
  timedOut := (Deadline.after w.clock.now o.timeout).passed w.clock.now
  blackboard := o.strategy.idleBlackboard input

/-- A run that begins in this world has to stop at once. -/
def Barred (o : Orchestration) (w : World) : Prop :=
  Stopped (.after w.clock.now o.timeout) w.clock (w.memory, .initial o.ids)

variable {o : Orchestration} {w : World}

theorem drive_stopped (hstop : o.Barred w) (stamp : RunStamp) (input : String) :
    ∃ r, o.drive stamp input w.clock (w.memory, .initial o.ids) =
      .done w.clock (w.memory, r) (o.idle stamp input w) ∧ r.events = [] := by
  obtain ⟨r, hrun, hidle⟩ := o.strategy.run_stopped o.members input hstop
  refine ⟨r, ?_, hidle.events⟩
  have hdrive : o.drive stamp input w.clock (w.memory, .initial o.ids) =
      (o.strategy.run o.members (.after w.clock.now o.timeout) input w.clock
        (w.memory, .initial o.ids)).andThen
        (o.conclude stamp (.after w.clock.now o.timeout) w.clock.now) := by
    simp only [drive, Routine.bind_apply, Routine.clock, Progress.andThen]
  rw [hdrive, hrun]
  simp only [Progress.andThen, conclude, idle, hidle.messages, hidle.results, hidle.rounds,
    hidle.blackboard, Nat.sub_self]

theorem execute_stopped (hstop : o.Barred w) (stamp : RunStamp) (input : String) :
    o.execute stamp input w = (w, o.idle stamp input w) := by
  obtain ⟨r, hdrive, -⟩ := drive_stopped hstop stamp input
  rw [execute, hdrive]
  rfl

theorem stream_stopped (hstop : o.Barred w) (stamp : RunStamp) (input : String) {reader : Reader}
    (htake : reader.take ≠ some 0) :
    o.stream stamp reader input w =
      (⟨w.clock, reader.react 0 [.complete (o.idle stamp input w)] w.memory⟩,
        [.complete (o.idle stamp input w)]) := by
  obtain ⟨r, hdrive, hevents⟩ := drive_stopped hstop stamp input
  have hnone : r.eventsFrom 0 = [] := hevents
  obtain ⟨cancelAt, take⟩ := reader
  have hunsatisfied : Reader.satisfied ⟨cancelAt, take⟩ 0 = false := by
    cases take with
    | none => rfl
    | some n =>
      have hpos : n ≠ 0 := fun hzero => htake (congrArg some hzero)
      simp [Reader.satisfied, hpos]
  have hreceive : ∀ e : Event, Reader.receive ⟨cancelAt, take⟩ 0 [e] = [e] := by
    intro e
    cases take with
    | none => rfl
    | some n =>
      have hpos : n ≠ 0 := fun hzero => htake (congrArg some hzero)
      exact List.take_of_length_le (Nat.one_le_iff_ne_zero.mpr hpos)
  rw [stream, hunsatisfied, if_neg Bool.false_ne_true, hdrive]
  simp only [readOn, hnone, List.nil_append, hreceive]

/-! ## Steps -/

/-- What can happen to an orchestration. -/
inductive Step where
  | execute (stamp : RunStamp) (input : String)
  | stream (stamp : RunStamp) (reader : Reader) (input : String)
  /-- It is cancelled from outside, by a copy of it or through a handle on its token. -/
  | cancel
  /-- Something else goes on, and in the end the clock shows this. -/
  | elsewhere (clock : Clock)

/-- The world after a step. -/
def after (o : Orchestration) (w : World) : Step → World
  | .execute stamp input => (o.execute stamp input w).1
  | .stream stamp reader input => (o.stream stamp reader input w).1
  | .cancel => w.cancel
  | .elsewhere clock => { w with clock }

/-- The flag is set before a step or at some moment of it: from outside, while a run goes on, or by
a reader that has received the event at which it cancels. -/
def Cancels (o : Orchestration) (w : World) (step : Step) : Prop :=
  w.memory.cancelled = true ∨
  match step with
  | .execute stamp input => (o.reading stamp {} input w).Flagged
  | .stream stamp reader input => (o.reading stamp reader input w).Flagged ∨
      ∃ k, reader.cancelAt = some k ∧ 0 < k ∧ k ≤ (o.stream stamp reader input w).2.length
  | .cancel => True
  | .elsewhere _ => False

/-- A flag that is set at some moment of a reading is set at its end. -/
theorem cancelled_reading (ho : o.Accepted)
    (hmembers : ∀ m ∈ o.members, ∀ message, (m.handle message).Forward) (stamp : RunStamp)
    (reader : Reader) (input : String)
    (h : w.memory.cancelled = true ∨ (o.reading stamp reader input w).Flagged) :
    (o.reading stamp reader input w).last.world.memory.cancelled = true := by
  let R := o.reading stamp reader input w
  have hsound := reading_sound ho (K := .advances (.after w.clock.now o.timeout))
    (fun m hm => Member.within_advances (hmembers m hm) _) stamp reader input
  have hlast : R.last ∈ R.snapshots := List.mem_append_right _ List.mem_cons_self
  have hall := stretch_drop (hsound.reached R.last hlast)
  rcases h with h | ⟨e, he, hflag⟩ | ⟨x, hx, hflag⟩
  · exact hall.before.cancelled h
  · exact (hall.within e he).2.cancelled hflag
  · exact (stretch_drop (hsound.to_last x hx)).before.cancelled hflag

/-- Once the flag is set it is set behind the step. -/
theorem cancelled_after (ho : o.Accepted)
    (hmembers : ∀ m ∈ o.members, ∀ message, (m.handle message).Forward) {step : Step}
    (h : o.Cancels w step) : (o.after w step).memory.cancelled = true := by
  cases step with
  | execute stamp input =>
    have hworld := (o.reading_last stamp input w).1
    have hlast := cancelled_reading ho hmembers stamp {} input h
    rw [hworld] at hlast
    rw [after, execute_eq]
    exact hlast
  | stream stamp reader input =>
    rw [after, stream_eq_reading]
    rcases h with h | h | ⟨k, hk, hpos, hle⟩
    · exact cancelled_reading ho hmembers stamp reader input (.inl h)
    · exact cancelled_reading ho hmembers stamp reader input (.inr h)
    · have hheeds := reading_cancelled ho (K := .advances (.after w.clock.now o.timeout))
        (fun m hm => Member.within_advances (hmembers m hm) _) ?_ hk hpos stamp input
      · refine hheeds _ (List.mem_append_right _ List.mem_cons_self) ?_
        rw [stream_eq_reading] at hle
        rw [reading_received]
        exact hle
      · rintro c s c' s' ⟨_, _, hstretch⟩
        exact hstretch.before.cancelled
  | cancel => exact Memory.cancelled_cancel w.memory
  | elsewhere clock => exact h.resolve_right id

/-- The flag stays set, whatever happens. -/
theorem cancelled_steps (ho : o.Accepted)
    (hmembers : ∀ m ∈ o.members, ∀ message, (m.handle message).Forward) (steps : List Step)
    (h : w.memory.cancelled = true) : (steps.foldl o.after w).memory.cancelled = true := by
  induction steps generalizing w with
  | nil => exact h
  | cons step steps ih => exact ih (cancelled_after ho hmembers (.inl h))

/-- **Cancellation is permanent.** The flag is set when a participant has answered by an action that
cancels, and once it is set, before a step or at any moment of it, it is set after all steps that
follow. Every run from then on changes nothing in the world and is over without calls or rounds, and
its stream is the result alone. So is a run without any time, if its start lies within reach of the
clock; it is timed out instead. -/
theorem cancellation_lasts {participants : List Participant} {options : Options}
    {o : Orchestration} (h : ofParticipants participants options = .ok o) :
    (∀ (p : Participant) (position : Nat) (message : Message),
      ((p.member position).handle message).Flags
        fun m => (p.behaviour (m.member position).calls message).cancels = true) ∧
    (∀ (w : World) (step : Step) (steps : List Step), o.Cancels w step →
      let w' := steps.foldl o.after (o.after w step)
      w'.memory.cancelled = true ∧ ∀ stamp input,
        o.execute stamp input w' = (w', o.idle stamp input w') ∧
        ∀ reader : Reader, reader.take ≠ some 0 →
          o.stream stamp reader input w' = (w', [.complete (o.idle stamp input w')])) ∧
    ∀ (w : World) (t : Duration), o.timeout = some t → t.toNanos = 0 →
      w.clock.now * 1000000 < Deadline.horizon → ∀ stamp input,
        (o.idle stamp input w).timedOut = true ∧
        o.execute stamp input w = (w, o.idle stamp input w) ∧
        ∀ reader : Reader, reader.take ≠ some 0 →
          (o.stream stamp reader input w).2 = [.complete (o.idle stamp input w)] := by
  have ho := (accepted_of_build h).1
  have hforward := forward_of_build h
  refine ⟨fun p position message => p.member_flags position message, ?_, ?_⟩
  · intro w step steps hcancels
    have hflag := cancelled_steps ho hforward steps (cancelled_after ho hforward hcancels)
    let w' := steps.foldl o.after (o.after w step)
    have hbarred : o.Barred w' := Bool.or_eq_true_iff.mpr (.inl hflag)
    refine ⟨hflag, fun stamp input => ⟨execute_stopped hbarred stamp input, ?_⟩⟩
    intro reader htake
    -- a reader who cancels changes nothing any more
    have hreact : ∀ events, reader.react 0 events w'.memory = w'.memory := by
      intro events
      have hcancel : w'.memory.cancel = w'.memory := Memory.cancel_eq hflag
      simp only [Reader.react, hcancel]
      split
      · exact ite_self _
      · rfl
    rw [stream_stopped hbarred stamp input htake, hreact]
  · intro w t ht hzero hreach stamp input
    have hpassed : (Deadline.after w.clock.now o.timeout).passed w.clock.now = true :=
      Deadline.passed_after.mpr ⟨t, w.clock.now * 1000000, ht, by omega, hreach, Nat.le_refl _⟩
    have hbarred : o.Barred w := Bool.or_eq_true_iff.mpr (.inr hpassed)
    refine ⟨hpassed, execute_stopped hbarred stamp input, fun reader htake => ?_⟩
    rw [stream_stopped hbarred stamp input htake]

/-- One that gives up when it is asked. -/
def quitting (timeout : Option Duration) : Except Error Orchestration :=
  ofParticipants
    [.simple ⟨"quitter", "", ""⟩ fun _ _ => { cancelsBefore := true, outcome := .error "no more" }]
    { pattern := .pipeline {}, timeout }

/-- The quitter is asked once and never again, and without any time it is not asked at all. -/
theorem cancellation_lasts_quitting :
    (∃ o, quitting none = .ok o ∧ o.Cancels .fresh (.execute default "go") ∧
      let w := o.after .fresh (.execute default "go")
      (w.memory.member 0).calls = 1 ∧ (o.execute default "again" w).1 = w ∧
      (o.execute default "again" w).2.output = "again" ∧
      o.stream default { cancelAt := some 1 } "again" w =
        (w, [.complete (o.idle default "again" w)])) ∧
    ∃ o, quitting (some .zero) = .ok o ∧
      o.execute default "go" .fresh = (.fresh, o.idle default "go" .fresh) ∧
      (o.execute default "go" .fresh).2.timedOut = true := by
  constructor
  · obtain ⟨o, h⟩ : ∃ o, quitting none = .ok o := ⟨_, rfl⟩
    have hcancels : o.Cancels .fresh (.execute default "go") := by
      cases h
      exact .inr (.inl (by decide +kernel))
    have hcalls : ((o.after .fresh (.execute default "go")).memory.member 0).calls = 1 := by
      cases h
      decide +kernel
    have houtput : o.strategy.idleOutput "again" = "again" := by
      cases h
      rfl
    let w := o.after .fresh (.execute default "go")
    obtain ⟨hexecute, hstream⟩ :=
      ((cancellation_lasts h).2.1 .fresh _ [] hcancels).2 default "again"
    have hsame : o.execute default "again" w = (w, o.idle default "again" w) := hexecute
    have hworld : (o.execute default "again" w).1 = w := by rw [hsame]
    have hagain : (o.execute default "again" w).2.output = "again" := by rw [hsame]; exact houtput
    exact ⟨o, h, hcancels, hcalls, hworld, hagain, hstream _ (by simp)⟩
  · obtain ⟨o, h⟩ : ∃ o, quitting (some .zero) = .ok o := ⟨_, rfl⟩
    have htimeout : o.timeout = some .zero := by
      cases h
      rfl
    obtain ⟨htimed, hexecute, -⟩ :=
      (cancellation_lasts h).2.2 .fresh .zero htimeout rfl (by decide) default "go"
    refine ⟨o, h, hexecute, ?_⟩
    rw [hexecute]
    exact htimed

end Orchestration

end Ensemble
