import Ensemble.Proofs.Stream.Stopping
import Mathlib.Data.Nat.Find

/-!
# When the cancel of a reader takes hold

A reader may cancel as soon as it has an event, but by then the run may be further on: up to its
next wait it goes on by itself, and all that it announces meanwhile is handed over in one burst. So
a cancel takes hold where the burst of its event ends. `cancel_takes_hold` says so for all
participants and options, and that it takes hold at the event itself exactly if nothing more begins
in the burst; `cancel_comes_late` is a run in which something does.
-/

namespace Ensemble

open Run Orchestration

namespace Event

/-- Whether a round or a call begins. -/
def begins : Event → Bool
  | agentStart _ | roundStart _ => true
  | _ => false

/-- How many calls begin. -/
def callsBegun (events : List Event) : Nat := (events.filterMap (·.started?)).length

theorem callsBegun_append (events more : List Event) :
    callsBegun (events ++ more) = callsBegun events + callsBegun more := by
  simp [callsBegun]

theorem callsBegun_eq_zero {events : List Event} (h : ∀ e ∈ events, e.begins = false) :
    callsBegun events = 0 := by
  have hnone : ∀ e ∈ events, e.started? = none := by
    intro e he
    have hplain := h e he
    cases e <;> simp_all [begins, started?]
  simpa [callsBegun] using hnone

/-- A run with the events and the calls given halts at an event: nothing begins behind it, and no
calls are made but those that have begun by then. -/
structure HaltsAt (n : Nat) (events : List Event) (calls : List Call) : Prop where
  silent : ∀ e ∈ events.drop n, e.begins = false
  counted : calls.length = callsBegun (events.take n)

/-- A run that halts at an event has halted earlier already if nothing begins in between. -/
theorem HaltsAt.earlier_iff {k n : Nat} {events : List Event} {calls : List Call} (hle : k ≤ n)
    (h : HaltsAt n events calls) :
    HaltsAt k events calls ↔ ∀ e ∈ (events.take n).drop k, e.begins = false := by
  have htake : events.take n = events.take k ++ (events.take n).drop k := by
    conv_lhs => rw [← List.take_append_drop k (events.take n)]
    rw [List.take_take, Nat.min_eq_left hle]
  have hdrop : events.drop k = (events.take n).drop k ++ events.drop n := by
    rw [List.drop_take]
    conv_lhs => rw [← List.take_append_drop (n - k) (events.drop k)]
    rw [List.drop_drop, Nat.add_sub_cancel' hle]
  constructor
  · intro hk e he
    exact hk.silent e (hdrop ▸ List.mem_append_left _ he)
  · intro hbetween
    refine ⟨fun e he => ?_, ?_⟩
    · rw [hdrop] at he
      exact (List.mem_append.mp he).elim (hbetween e) (h.silent e)
    · rw [h.counted, htake, callsBegun_append, callsBegun_eq_zero hbetween, Nat.add_zero]

end Event

theorem Occurrence.begins_event? {o : Occurrence} {e : Event} (h : o.event? = some e) :
    e.begins = o.begins := by
  cases o <;> cases h <;> rfl

/-- Entries that begin nothing announce no begin. -/
theorem RunState.begins_eventsFrom {r : RunState} {position : Nat}
    (h : ∀ e ∈ r.journal.toList.drop position, e.occurrence.begins = false) :
    ∀ e ∈ r.eventsFrom position, e.begins = false := by
  intro e he
  obtain ⟨entry, hentry, hevent⟩ := List.mem_filterMap.mp he
  rw [Occurrence.begins_event? hevent]
  exact h entry hentry

/-- If the events behind one begin nothing, the run has halted there. -/
theorem Accounts.haltsAt {o : Orchestration} {r : RunState} {result : RunResult}
    {calls : List Call} {coda : List Message} (h : Accounts o r result calls coda) {n : Nat}
    (hsilent : ∀ e ∈ (r.events ++ [Event.complete result]).drop n, e.begins = false) :
    Event.HaltsAt n (r.events ++ [.complete result]) calls := by
  refine ⟨hsilent, ?_⟩
  have hcalls : calls.length = Event.callsBegun r.events := by
    simpa [Event.callsBegun] using h.started_perm.length_eq.symm
  have hcomplete :
      Event.callsBegun (r.events ++ [.complete result]) = Event.callsBegun r.events := by
    simp [Event.callsBegun, Event.started?]
  have hsplit := Event.callsBegun_append ((r.events ++ [Event.complete result]).take n)
    ((r.events ++ [Event.complete result]).drop n)
  rw [List.take_append_drop, Event.callsBegun_eq_zero hsilent] at hsplit
  omega

namespace Reading

/-- The burst of an event ends with the event of number `n`: so many events the reader has received
when it has that event and the run waits again or is over. -/
structure BurstEnds (R : Reading) (k n : Nat) : Prop where
  reached : ∃ x ∈ R.snapshots, x.received = n
  covers : k ≤ n
  first : ∀ x ∈ R.snapshots, k ≤ x.received → n ≤ x.received

theorem exists_burstEnds {R : Reading} {k : Nat} (h : k ≤ R.last.received) :
    ∃ n, R.BurstEnds k n := by
  classical
  have hsome : ∃ n, (∃ x ∈ R.snapshots, x.received = n) ∧ k ≤ n :=
    ⟨_, ⟨R.last, List.mem_append_right _ List.mem_cons_self, rfl⟩, h⟩
  obtain ⟨hreached, hcovers⟩ := Nat.find_spec hsome
  exact ⟨Nat.find hsome, hreached, hcovers, fun x hx hle => Nat.find_min' hsome ⟨⟨x, hx, rfl⟩, hle⟩⟩

end Reading

/-- At every pause the reader has received all that the journal announces. -/
theorem follow_handed {deadline : Deadline} {Q : Clock → Scene → RunResult → Prop}
    {reader : Reader} {c₀ : Clock} {s₀ : Scene} (hreader : reader.take = none)
    {p : Progress Scene RunResult}
    (h : p.Keeps Untouched (Regime.history deadline).step
      (fun c₀ s₀ c s a => (Regime.history deadline).step c₀ s₀ c s ∧ Q c s a) c₀ s₀)
    (received : Nat) :
    ∀ x ∈ (follow reader p s₀.2.journal.size received).pauses,
      x.received = received + (x.state.eventsFrom s₀.2.journal.size).length := by
  induction p generalizing c₀ s₀ received with
  | done c s result => simp [follow]
  | waiting w c s k ih =>
    obtain ⟨m, r⟩ := s
    let events := r.eventsFrom s₀.2.journal.size
    let received' := received + events.length
    let m' := reader.react received events m
    have hkeeps := h.2 (c.advance w.due) (m', r) rfl
    have hsize : s₀.2.journal.size ≤ r.journal.size := by
      simpa only [Array.length_toList] using h.1.length_le
    have hfollow : (follow reader (.waiting w c (m, r) k) s₀.2.journal.size received).pauses =
        ⟨⟨c, m'⟩, r, received'⟩ ::
          (follow reader (k (c.advance w.due) (m', r)) r.journal.size received').pauses := by
      simp only [follow, Reader.receive, Reader.satisfied, hreader]
      rfl
    intro x hx
    rw [hfollow] at hx
    rcases List.mem_cons.mp hx with rfl | hx
    · rfl
    · have hrest := ih _ (m', r) hkeeps received' x hx
      have hgrown : r.journal.toList <+: x.state.journal.toList :=
        (follow_sound reader hkeeps r.journal.size received').reached x
          (List.mem_append_left _ hx)
      rw [hrest, eventsFrom_split hsize hgrown, List.length_append, Nat.add_assoc]

namespace Orchestration

theorem reading_handed {o : Orchestration} (ho : o.Accepted) (stamp : RunStamp) {reader : Reader}
    (hreader : reader.take = none) (input : String) (w : World) :
    ∀ x ∈ (o.reading stamp reader input w).pauses, x.received = x.state.events.length := by
  have hkeeps := o.drive_keeps ho (K := .history (.after w.clock.now o.timeout))
    (fun m _ => m.within_history _) stamp input w.memory
  intro x hx
  rw [reading_eq_follow hreader] at hx
  exact (follow_handed hreader hkeeps 0 x hx).trans (Nat.zero_add _)

/-- **The cancel of a reader takes hold where the burst of its event ends.** Behind the burst no
round and no call begins, and no calls are made but those whose begin has been handed over by then;
so a cancel at the event `k` keeps to it exactly if nothing more begins in the burst. -/
theorem cancel_takes_hold {participants : List Participant} {options : Options}
    {o : Orchestration} (h : ofParticipants participants options = .ok o) (stamp : RunStamp)
    {reader : Reader} {k : Nat} (hreader : reader.take = none) (hcancel : reader.cancelAt = some k)
    (hpos : 0 < k) (input : String) (w : World)
    (hbefore : k < (o.stream stamp reader input w).2.length) :
    ∃ result announced calls coda n,
      (o.stream stamp reader input w).2 = announced ++ [.complete result] ∧
      Accounts o (o.reading stamp reader input w).last.state result calls coda ∧
      (o.reading stamp reader input w).BurstEnds k n ∧
      Event.HaltsAt n (o.stream stamp reader input w).2 calls ∧
      (Event.HaltsAt k (o.stream stamp reader input w).2 calls ↔
        ∀ e ∈ ((o.stream stamp reader input w).2.take n).drop k, e.begins = false) := by
  obtain ⟨ho, -⟩ := accepted_of_build h
  let R := o.reading stamp reader input w
  have hmembers : ∀ m ∈ o.members, m.Within (.advances (.after w.clock.now o.timeout)) :=
    fun m hm => Member.within_advances (forward_of_build h m hm) _
  have hsound := reading_sound ho hmembers stamp reader input
  obtain ⟨result, m, -, hevents, hfinished⟩ := reading_to_end ho stamp hreader input w
  obtain ⟨calls, coda, haccounts⟩ := hfinished.accounts ho
  have hstream : (o.stream stamp reader input w).2 = R.last.state.events ++ [.complete result] := by
    rw [stream_eq_reading, hevents]
  have hreceived : R.last.received = (o.stream stamp reader input w).2.length := by
    rw [stream_eq_reading]
    exact reading_received o stamp reader input w
  obtain ⟨n, hburst⟩ : ∃ n, R.BurstEnds k n :=
    Reading.exists_burstEnds (Nat.le_of_lt (hreceived ▸ hbefore))
  have hsilent :
      ∀ e ∈ (R.last.state.events ++ [Event.complete result]).drop n, e.begins = false := by
    obtain ⟨x, hx, rfl⟩ := hburst.reached
    rcases List.mem_append.mp hx with hpause | hlast
    · -- at the pause the run has to stop, so what the journal gains from there on begins nothing
      have hcancelled : x.world.memory.cancelled = true := by
        refine reading_cancelled ho hmembers ?_ hcancel hpos stamp input x hx hburst.covers
        rintro c s c' s' ⟨_, _, hstretch⟩
        exact hstretch.before.cancelled
      have hstretch := stretch_drop (hsound.to_last x hx)
      have hgrown : x.state.journal.toList <+: R.last.state.journal.toList := by
        obtain ⟨entries, hjournal, -⟩ := hsound.to_last x hx
        exact ⟨entries, hjournal.symm⟩
      have hrest : R.last.state.events =
          x.state.events ++ R.last.state.eventsFrom x.state.journal.size :=
        eventsFrom_split (Nat.zero_le _) hgrown
      have hquiet := RunState.begins_eventsFrom fun e he =>
        (hstretch.stopped (by simp [instant, Instant.stopped, Snapshot.scene, hcancelled]) e he).2
      rw [reading_handed ho stamp hreader input w x hpause, hrest, List.append_assoc,
        List.drop_left]
      intro e he
      rcases List.mem_append.mp he with he | he
      · exact hquiet e he
      · rw [List.mem_singleton.mp he]
        rfl
    · obtain rfl := List.mem_singleton.mp hlast
      rw [hreceived, hstream, List.drop_length]
      simp
  have hhalts : Event.HaltsAt n (o.stream stamp reader input w).2 calls := by
    rw [hstream]
    exact haccounts.haltsAt hsilent
  exact ⟨result, R.last.state.events, calls, coda, n, hstream, haccounts, hburst, hhalts,
    hhalts.earlier_iff hburst.covers⟩

/-- A pipeline of two that say back what they are told, the first of them after a while. -/
def echoes : Except Error Orchestration :=
  ofParticipants
    [.simple ⟨"cliff", "", ""⟩ fun _ m => { delay := 4, outcome := .ok m },
      .simple ⟨"parrot", "", ""⟩ fun _ m => { outcome := .ok m }]
    { pattern := .pipeline {} }

/-- Who cancels while the first one is being waited for keeps the second one from being called. -/
theorem cancel_takes_hold_echoes :
    ∃ o, echoes = .ok o ∧ ∃ result announced calls coda n,
      (o.stream default { cancelAt := some 2 } "go" .fresh).2 = announced ++ [.complete result] ∧
      Accounts o (o.reading default { cancelAt := some 2 } "go" .fresh).last.state result calls
        coda ∧
      (o.reading default { cancelAt := some 2 } "go" .fresh).BurstEnds 2 n ∧
      Event.HaltsAt n (o.stream default { cancelAt := some 2 } "go" .fresh).2 calls ∧
      (Event.HaltsAt 2 (o.stream default { cancelAt := some 2 } "go" .fresh).2 calls ↔
        ∀ e ∈ ((o.stream default { cancelAt := some 2 } "go" .fresh).2.take n).drop 2,
          e.begins = false) := by
  obtain ⟨o, h⟩ : ∃ o, echoes = .ok o := ⟨_, rfl⟩
  refine ⟨o, h, cancel_takes_hold h default
    (show Reader.take { cancelAt := some 2 } = none from rfl) rfl (by decide) "go" .fresh ?_⟩
  cases h
  decide +kernel

/-- Who cancels when the first one has replied comes too late: a call of the second one begins
behind that event and is made, of which none had begun by then. -/
theorem cancel_comes_late :
    ∃ o, echoes = .ok o ∧
      3 < (o.stream default { cancelAt := some 3 } "go" .fresh).2.length ∧
      (o.stream default { cancelAt := some 3 } "go" .fresh).2[6]?.bind (·.started?) =
        some "parrot" ∧
      ((o.stream default { cancelAt := some 3 } "go" .fresh).1.memory.member 0).calls +
        ((o.stream default { cancelAt := some 3 } "go" .fresh).1.memory.member 1).calls = 2 ∧
      Event.callsBegun ((o.stream default { cancelAt := some 3 } "go" .fresh).2.take 3) = 1 := by
  obtain ⟨o, h⟩ : ∃ o, echoes = .ok o := ⟨_, rfl⟩
  refine ⟨o, h, ?_⟩
  cases h
  decide +kernel

end Orchestration

end Ensemble
