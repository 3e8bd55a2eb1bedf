import Ensemble.Proofs.Participant.Forward
import Ensemble.Proofs.Stream.Views

/-!
# A run that has to stop stops

Calls and rounds ask at their start whether the run has to stop, and may then be underway for long,
side by side, while participants and the reader cancel and the deadline passes. `Reading.Stops` says
what this comes to over a whole reading: nothing begins any more once the run has to stop, what has
begun is settled and recorded all the same, and what was forgone shows in the result.
`stops_for_good` proves it for all participants, timeouts and readers. It goes by the journal, and
the journal misses nothing that is forgone: `Run.writes_beginRound` says so of rounds,
`Run.writes_call`, `Run.writes_dispatchRound` and `Run.writes_dispatchBounded` of calls.
-/

namespace Ensemble

open Run

/-- The instant of a snapshot. -/
def Snapshot.instant (x : Snapshot) : Instant := Run.instant x.world.clock x.world.memory

namespace Reading

/-- The journal of a reading. -/
def entries (R : Reading) : List Entry := R.last.state.journal.toList

/-- How the reading of an orchestration from a start deals with stopping. -/
structure Stops (o : Orchestration) (deadline : Deadline) (start : Snapshot) (reader : Reader)
    (R : Reading) : Prop where
  /-- Rounds and calls begin only while the run may go on. -/
  begins : ∀ e ∈ R.entries, e.occurrence.begins = true → e.stopped deadline = false
  /-- Rounds and calls are forgone only when the run has to stop. -/
  forgoes : ∀ e ∈ R.entries, e.occurrence.forgoes = true → e.stopped deadline = true
  /-- Along the journal time does not go back, and no cancellation is undone. -/
  advances : R.entries.Pairwise fun e e' => e.instant.Before e'.instant
  /-- Behind an entry at which the run had to stop nothing begins. -/
  lasts : R.entries.Pairwise fun e e' => e.stopped deadline = true →
    e'.stopped deadline = true ∧ e'.occurrence.begins = false
  /-- Behind a pause at which the run had to stop nothing begins. -/
  paused : ∀ x ∈ start :: R.snapshots, x.instant.stopped deadline = true →
    ∀ e ∈ R.entries.drop x.state.journal.size,
      e.stopped deadline = true ∧ e.occurrence.begins = false
  /-- From the event on at which the reader cancels the orchestration is cancelled. -/
  heeds : ∀ k, reader.cancelAt = some k → 0 < k → ∀ x ∈ R.snapshots, k ≤ x.received →
    x.world.memory.cancelled = true
  /-- Who does not stop reading sees the end of the run. -/
  ends : reader.take = none → ∃ result, R.result = some result
  /-- What has begun is settled and recorded. -/
  settles : ∀ result, R.result = some result →
    ∃ calls coda, Accounts o R.last.state result calls coda
  /-- What was forgone shows in the result. -/
  flagged : ∀ result, R.result = some result →
    (∃ e ∈ R.entries, e.occurrence.forgoes = true) →
    result.cancelled = true ∨ result.timedOut = true

variable {deadline : Deadline}

theorem Sound.to_last {K : Regime deadline} {Q : Clock → Scene → RunResult → Prop} {c₀ : Clock}
    {s₀ : Scene} {R : Reading} (h : R.Sound K Q c₀ s₀) :
    ∀ x ∈ R.snapshots, K.step x.world.clock x.scene R.last.world.clock R.last.scene := by
  intro x hx
  rcases List.mem_append.mp hx with hx | hx
  · exact (List.pairwise_append.mp h.ordered).2.2 x hx R.last List.mem_cons_self
  · rw [List.mem_singleton.mp hx]
    exact K.refl _ _

end Reading

/-- Nothing begins where the run had to stop. -/
theorem Entry.Permitted.begins_eq_false {deadline : Deadline} {e : Entry}
    (h : e.Permitted deadline) (hstopped : e.stopped deadline = true) :
    e.occurrence.begins = false :=
  Bool.eq_false_iff.mpr fun hbegins =>
    absurd ((h.begins hbegins).symm.trans hstopped) Bool.false_ne_true

namespace Stretch

variable {deadline : Deadline} {i j : Instant} {entries : List Entry}

/-- Behind an instant at which the run had to stop nothing begins. -/
theorem stopped (h : Stretch deadline i j entries) (hi : i.stopped deadline = true) :
    ∀ e ∈ entries, e.stopped deadline = true ∧ e.occurrence.begins = false := by
  intro e he
  have hstopped : e.stopped deadline = true := (h.within e he).1.stopped hi
  exact ⟨hstopped, (h.permitted e he).begins_eq_false hstopped⟩

/-- Behind an entry at which the run had to stop nothing begins. -/
theorem lasts (h : Stretch deadline i j entries) :
    entries.Pairwise fun e e' => e.stopped deadline = true →
      e'.stopped deadline = true ∧ e'.occurrence.begins = false := by
  refine h.ordered.imp_of_mem fun {e e'} _ he' hbefore hstopped => ?_
  have hstopped' : e'.stopped deadline = true := hbefore.stopped hstopped
  exact ⟨hstopped', (h.permitted e' he').begins_eq_false hstopped'⟩

/-- If a call or a round was forgone, the run has to stop at the end. -/
theorem stopped_of_forgoes (h : Stretch deadline i j entries) {e : Entry} (he : e ∈ entries)
    (hforgoes : e.occurrence.forgoes = true) : j.stopped deadline = true :=
  (h.within e he).2.stopped ((h.permitted e he).forgoes hforgoes)

end Stretch

/-- Entries of a journal behind those that a scene has, if it advances to the end of the journal. -/
theorem Run.stretch_drop {deadline : Deadline} {c c' : Clock} {s s' : Scene}
    (h : (Regime.advances deadline).step c s c' s') :
    Stretch deadline (instant c s.1) (instant c' s'.1)
      (s'.2.journal.toList.drop s.2.journal.size) := by
  obtain ⟨entries, hjournal, hstretch⟩ := h
  rw [hjournal, ← Array.length_toList, List.drop_left]
  exact hstretch

/-! ## Nothing is forgone in silence

`Reading.Stops` has what was forgone from the journal. Patterns begin their rounds and make their
calls by four operations, and each of these notes a round that it refuses and the calls that it
skips: what they return and what they write down is the same. -/

namespace RunState

/-- The rounds that a run has refused, as its journal has them. -/
def refused (r : RunState) : List Nat := r.occurrences.filterMap (·.refused?)

/-- Whom a run would have called, and with what messages, had it not had to stop: the calls that it
has skipped, as its journal has them. -/
def skipped (r : RunState) : List (String × Message) := r.occurrences.filterMap (·.skipped?)

variable {log : List Occurrence} {calls : List Call} {r r' : RunState}

theorem Gains.refused_eq (h : r.Gains log calls r') :
    r'.refused = r.refused ++ log.filterMap (·.refused?) := by
  rw [refused, h.occurrences, List.filterMap_append, refused]

theorem Gains.skipped_eq (h : r.Gains log calls r') :
    r'.skipped = r.skipped ++ log.filterMap (·.skipped?) := by
  rw [skipped, h.occurrences, List.filterMap_append, skipped]

end RunState

namespace Run

variable {deadline : Deadline} {r₀ : RunState}

/-- What an operation makes of books `r₀`, whatever the participants do and whatever goes on
meanwhile. -/
abbrev Writes {α : Type} (deadline : Deadline) (r₀ : RunState) (operation : Routine Scene α)
    (Q : α → RunState → Prop) : Prop :=
  operation.Meets Untouched (Regime.history deadline).toGuarantee (fun s => s.2 = r₀)
    fun a s => Q a s.2

/-- A round that does not begin is noted. -/
theorem writes_beginRound (round : Nat) :
    Writes deadline r₀ (beginRound deadline round) fun begun r =>
      r.refused = r₀.refused ++ if begun then [] else [round] := by
  have hbegin : beginRound deadline round =
      (beginRound deadline round >>= fun begun => if begun then pure true else pure false) := by
    rw [← bind_pure (beginRound deadline round), bind_assoc]
    exact bind_congr fun begun => by cases begun <;> rfl
  rw [Writes, hbegin]
  refine meets_begin (P := (· = r₀)) ?_ ?_
  · rintro _ rfl
    exact Routine.meets_pure fun s h => h.1.refused_eq
  · rintro _ rfl
    exact Routine.meets_pure fun s h => h.1.refused_eq

/-- A call that is not made is noted. -/
theorem writes_call (member : Member) (message : Message) :
    Writes deadline r₀ (call deadline member message) fun outcome r =>
      r.skipped = r₀.skipped ++ if outcome.isSkipped then [(member.id, message)] else [] := by
  rintro c s rfl
  refine (arrives_call (d := ⟨member, message⟩) (member.within_history deadline) c s).mono ?_
  rintro c' s' outcome ⟨calls, log, hlog, hgain, hcame⟩
  rw [hgain.skipped_eq]
  rcases hcame with ⟨call, rfl, rfl⟩ | ⟨rfl, rfl, -⟩
  · cases hlog with
    | made answer => cases answer <;> rfl
  · cases hlog
    rfl

/-- Of the calls that are dealt with those that were not made are noted, in their order. -/
theorem Dealt.skipped_eq {plan : List Dispatch} {done : List Settled} {r : RunState}
    (h : Dealt plan r₀ done r) : r.skipped = r₀.skipped ++ done.filterMap (·.skipped?) := by
  obtain ⟨log, hlog, hgain⟩ := h.log
  rw [hgain.skipped_eq, hlog.skips]

/-- Of the calls of a round those that are not made are noted. -/
theorem writes_dispatchRound (plan : List Dispatch) :
    Writes deadline r₀ (dispatchRound deadline plan) fun calls r =>
      r.skipped.Perm (r₀.skipped ++ calls.filterMap (·.skipped?)) := by
  refine (meets_dispatchRound r₀ fun d _ => d.member.within_history deadline).consequence
    (fun _ h => h) ?_
  rintro calls s ⟨done, rfl, hdealt⟩
  rw [hdealt.skipped_eq]
  exact ((List.mergeSort_perm done _).symm.filterMap _).append_left _

/-- Of the calls of a pool those that are not made are noted, in the order in which they are
returned. -/
theorem writes_dispatchBounded {limit : Nat} (hlimit : 0 < limit) (plan : List Dispatch) :
    Writes deadline r₀ (dispatchBounded deadline limit plan) fun calls r =>
      r.skipped = r₀.skipped ++ calls.filterMap (·.skipped?) :=
  (meets_dispatchBounded r₀ hlimit fun d _ => d.member.within_history deadline).consequence
    (fun _ h => h) fun _ _ hdealt => hdealt.skipped_eq

end Run

/-! ## Whole readings -/

/-- **A run that has to stop stops for good**, whoever cancelled it and whenever, or when its
deadline had passed; and if it went short of anything, the result says why. -/
theorem Orchestration.stops_for_good {participants : List Participant} {options : Options}
    {o : Orchestration} (h : ofParticipants participants options = .ok o) (stamp : RunStamp)
    (reader : Reader) (input : String) (w : World) :
    o.stream stamp reader input w = ((o.reading stamp reader input w).last.world,
      (o.reading stamp reader input w).events) ∧
    (reader = {} → (o.reading stamp reader input w).result =
      some (o.execute stamp input w).2) ∧
    (∀ now, (Deadline.after w.clock.now o.timeout).passed now = true ↔ ∃ t due,
      o.timeout = some t ∧ due = w.clock.now * 1000000 + t.toNanos ∧ due < Deadline.horizon ∧
        due ≤ now * 1000000) ∧
    (o.reading stamp reader input w).Stops o (.after w.clock.now o.timeout)
      ⟨w, .initial o.ids, 0⟩ reader := by
  obtain ⟨ho, hparticipants⟩ := accepted_of_build h
  have hmembers : ∀ m ∈ o.members, m.Within (.advances (.after w.clock.now o.timeout)) := by
    rw [hparticipants]
    exact fun m hm => Member.within_advances (Participant.members_forward 0 participants m hm) _
  have hsound := reading_sound ho hmembers stamp reader input
  refine ⟨stream_eq_reading o stamp reader input w, ?_, fun now => Deadline.passed_after, ?_⟩
  · rintro rfl
    exact reading_execute o stamp input w
  let R := o.reading stamp reader input w
  have hlast : R.last ∈ R.snapshots := List.mem_append_right _ List.mem_cons_self
  have hall := stretch_drop (hsound.reached R.last hlast)
  refine
    { begins := fun e he => (hall.permitted e he).begins
      forgoes := fun e he => (hall.permitted e he).forgoes
      advances := hall.ordered
      lasts := hall.lasts
      paused := ?_
      heeds := fun k hk hpos => reading_cancelled ho hmembers ?_ hk hpos stamp input
      ends := ?_
      settles := ?_
      flagged := ?_ }
  · intro x hx hstopped
    rcases List.mem_cons.mp hx with rfl | hx
    · exact hall.stopped hstopped
    · exact (stretch_drop (hsound.to_last x hx)).stopped hstopped
  · rintro c s c' s' ⟨_, _, hstretch⟩
    exact hstretch.before.cancelled
  · intro hreader
    obtain ⟨result, _, hresult, -⟩ := reading_to_end ho stamp hreader input w
    exact ⟨result, hresult⟩
  · intro result hresult
    obtain ⟨m, -, hfinished⟩ := hsound.concluded result hresult
    exact hfinished.accounts ho
  · rintro result hresult ⟨e, he, hforgoes⟩
    obtain ⟨m, hstep, hfinished⟩ := hsound.concluded result hresult
    have hstopped := (stretch_drop hstep).stopped_of_forgoes he hforgoes
    rw [hfinished.cancelled, hfinished.timedOut]
    exact Bool.or_eq_true_iff.mp hstopped

/-- A supervisor with little time: one participant cancels and is slow to reply, and the other
stalls before it has a pipeline of its own, which tries twice in vain. -/
def Orchestration.rush : Except Error Orchestration :=
  ofParticipants
    [.simple ⟨"eager", "", ""⟩ fun _ m => { cancelsBefore := true, delay := 5, outcome := .ok m },
      .nested ⟨"team", "", ""⟩ (fun _ m => { stall := 3, outcome := .ok m })
        [.simple ⟨"mute", "", ""⟩ fun _ _ => { outcome := .error "no reply" }]
        { pattern := .pipeline { errorStrategy := .retry } }]
    { pattern := .supervisor {}, timeout := some (.ofMillis 4) }

theorem Orchestration.stops_for_good_rush :
    ∃ o, rush = .ok o ∧
      (o.reading default { cancelAt := some 2 } "go" .fresh).Stops o (.after 0 o.timeout)
        ⟨.fresh, .initial o.ids, 0⟩ { cancelAt := some 2 } := by
  obtain ⟨o, h⟩ : ∃ o, rush = .ok o := ⟨_, rfl⟩
  exact ⟨o, h, (stops_for_good h default { cancelAt := some 2 } "go" .fresh).2.2.2⟩

end Ensemble
