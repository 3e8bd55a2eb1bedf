import Ensemble.Proofs.Run.Drive

/-!
# Readings

The reader of a stream sees the world at its end and the events. A `Reading` shows what happens in
between as well: at every pause the run waits and the reader has received all that was announced.
`readOn_eq_follow` says that readings are what streams do, and `follow_sound` that whatever the
steps of a run guarantee holds between any two pauses and up to the result, with a reader that
cancels where it likes.
-/

namespace Ensemble

/-- A run at a moment: the world, the books, and how many events the reader has received. -/
structure Snapshot where
  world : World
  state : RunState
  received : Nat

/-- What the run works on. -/
def Snapshot.scene (x : Snapshot) : Scene := (x.world.memory, x.state)

/-- A run as it is read. -/
structure Reading where
  /-- Where the run waited and then went on. -/
  pauses : List Snapshot
  /-- Where the run was over, or the reader had enough. -/
  last : Snapshot
  /-- The result, if the run was over. -/
  result : Option RunResult
  events : List Event

/-- All snapshots of a reading, in order. -/
def Reading.snapshots (R : Reading) : List Snapshot := R.pauses ++ [R.last]

namespace Orchestration

/-- The reading of the rest of a run, as `readOn` reads it. -/
def follow (reader : Reader) : Progress Scene RunResult → (journal received : Nat) → Reading
  | .waiting w c (m, r) k, journal, received =>
    let events := reader.receive received (r.eventsFrom journal)
    let m := reader.react received events m
    let received := received + events.length
    let here : Snapshot := ⟨⟨c, m⟩, r, received⟩
    if reader.satisfied received then ⟨[], here, none, events⟩
    else
      let rest := follow reader (k (c.advance w.due) (m, r)) r.journal.size received
      ⟨here :: rest.pauses, rest.last, rest.result, events ++ rest.events⟩
  | .done c (m, r) result, journal, received =>
    let events := reader.receive received (r.eventsFrom journal ++ [.complete result])
    ⟨[], ⟨⟨c, reader.react received events m⟩, r, received + events.length⟩, some result, events⟩

/-- The reading of a run from its start. -/
def reading (o : Orchestration) (stamp : RunStamp) (reader : Reader) (input : String)
    (w : World) : Reading :=
  if reader.satisfied 0 then ⟨[], ⟨w, .initial o.ids, 0⟩, none, []⟩
  else follow reader (o.drive stamp input w.clock (w.memory, .initial o.ids)) 0 0

theorem readOn_eq_follow (reader : Reader) (p : Progress Scene RunResult)
    (journal received : Nat) :
    readOn reader p journal received =
      ((follow reader p journal received).last.world,
        (follow reader p journal received).events) := by
  induction p generalizing journal received with
  | done c s result => rfl
  | waiting w c s k ih =>
    simp only [readOn, follow]
    split
    · rfl
    · simp only [ih]

/-- A stream shows the world and the events of its reading. -/
theorem stream_eq_reading (o : Orchestration) (stamp : RunStamp) (reader : Reader)
    (input : String) (w : World) :
    o.stream stamp reader input w =
      ((o.reading stamp reader input w).last.world, (o.reading stamp reader input w).events) := by
  unfold stream reading
  split
  · rfl
  · exact readOn_eq_follow reader _ 0 0

end Orchestration

/-! ## Guarantees along a reading -/

open Run Orchestration

variable {deadline : Deadline} {K : Regime deadline} {Q : Clock → Scene → RunResult → Prop}
  {reader : Reader} {c₀ : Clock} {s₀ : Scene}

/-- What a reading shows of a run that began with a clock and a scene, under a regime: each snapshot
comes from the start and from every earlier one, and if the run is over, the result was made in
a scene that came from the start and that the reader left as it was or cancelled. -/
structure Reading.Sound (K : Regime deadline) (Q : Clock → Scene → RunResult → Prop)
    (c₀ : Clock) (s₀ : Scene) (R : Reading) : Prop where
  reached : ∀ x ∈ R.snapshots, K.step c₀ s₀ x.world.clock x.scene
  ordered : R.snapshots.Pairwise fun x y => K.step x.world.clock x.scene y.world.clock y.scene
  concluded : ∀ result, R.result = some result → ∃ m, K.step c₀ s₀ R.last.world.clock (m, R.last.state)
    ∧ Q R.last.world.clock (m, R.last.state) result

theorem step_react (K : Regime deadline) [K.Open] (reader : Reader) (received : Nat)
    (events : List Event) (c : Clock) (m : Memory) (r : RunState) :
    K.step c (m, r) c (reader.react received events m, r) := by
  unfold Reader.react
  split
  · split
    · exact Regime.Open.cancel c m r
    · exact K.refl c (m, r)
  · exact K.refl c (m, r)

/-- The first snapshot before the rest of a reading. -/
theorem Reading.Sound.cons {x : Snapshot} {R : Reading} {c : Clock} {events : List Event}
    (hx : K.step c₀ s₀ x.world.clock x.scene) (hrest : K.step x.world.clock x.scene c x.scene)
    (h : R.Sound K Q c x.scene) :
    Reading.Sound K Q c₀ s₀ ⟨x :: R.pauses, R.last, R.result, events⟩ where
  reached y hy := by
    rcases List.mem_cons.mp hy with rfl | hy
    · exact hx
    · exact K.trans hx (K.trans hrest (h.reached y hy))
  ordered := List.pairwise_cons.mpr ⟨fun y hy => K.trans hrest (h.reached y hy), h.ordered⟩
  concluded result hresult := by
    obtain ⟨m, hstep, hq⟩ := h.concluded result hresult
    exact ⟨m, K.trans hx (K.trans hrest hstep), hq⟩

theorem follow_sound [K.Open] (reader : Reader) {p : Progress Scene RunResult}
    (h : p.Keeps Untouched K.step (fun c₀ s₀ c s a => K.step c₀ s₀ c s ∧ Q c s a) c₀ s₀)
    (journal received : Nat) :
    (follow reader p journal received).Sound K Q c₀ s₀ := by
  induction p generalizing c₀ s₀ journal received with
  | done c s result =>
    obtain ⟨m, r⟩ := s
    refine ⟨?_, List.pairwise_singleton _ _, ?_⟩
    · intro x hx
      obtain rfl := List.mem_singleton.mp hx
      exact K.trans h.1 (step_react K reader _ _ c m r)
    · rintro _ ⟨⟩
      exact ⟨m, h⟩
  | waiting w c s k ih =>
    obtain ⟨m, r⟩ := s
    let events := reader.receive received (r.eventsFrom journal)
    let m' := reader.react received events m
    have hreact : K.step c₀ s₀ c (m', r) :=
      K.trans h.1 (step_react K reader received events c m r)
    simp only [follow]
    split
    · refine ⟨?_, List.pairwise_singleton _ _, by simp⟩
      intro x hx
      obtain rfl := List.mem_singleton.mp hx
      exact hreact
    · have hrest := ih _ (m', r) (h.2 (c.advance w.due) (m', r) rfl) r.journal.size
        (received + events.length)
      exact hrest.cons (x := ⟨⟨c, m'⟩, r, received + events.length⟩) hreact (K.elapse _ _ _)

theorem cancelled_react {k received : Nat} {events : List Event} {m : Memory}
    (hk : reader.cancelAt = some k) (hm : k ≤ received → m.cancelled = true)
    (h : k ≤ received + events.length) : (reader.react received events m).cancelled = true := by
  simp only [Reader.react, hk]
  split
  · exact Memory.cancelled_cancel m
  · exact hm (by omega)

/-- If nothing undoes a cancellation, the orchestration is cancelled at every snapshot from the event
on at which the reader cancels. -/
theorem follow_cancelled (hlasts : ∀ {c s c' s'}, K.step c s c' s' → s.1.cancelled = true →
    s'.1.cancelled = true) {k : Nat} (hk : reader.cancelAt = some k)
    {p : Progress Scene RunResult}
    (h : p.Keeps Untouched K.step (fun c₀ s₀ c s a => K.step c₀ s₀ c s ∧ Q c s a) c₀ s₀)
    (journal received : Nat) (hstart : k ≤ received → s₀.1.cancelled = true) :
    ∀ x ∈ (follow reader p journal received).snapshots, k ≤ x.received →
      x.world.memory.cancelled = true := by
  induction p generalizing c₀ s₀ journal received with
  | done c s result =>
    obtain ⟨m, r⟩ := s
    intro x hx
    obtain rfl := List.mem_singleton.mp hx
    exact cancelled_react hk fun hle => hlasts h.1 (hstart hle)
  | waiting w c s n ih =>
    obtain ⟨m, r⟩ := s
    let events := reader.receive received (r.eventsFrom journal)
    let m' := reader.react received events m
    have hreact : k ≤ received + events.length → m'.cancelled = true :=
      cancelled_react hk fun hle => hlasts h.1 (hstart hle)
    simp only [follow]
    split
    · intro x hx
      obtain rfl := List.mem_singleton.mp hx
      exact hreact
    · intro x hx
      rcases List.mem_cons.mp hx with rfl | hx
      · exact hreact
      · exact ih _ (m', r) (h.2 _ _ rfl) _ _ hreact x hx

/-! ## Readings to the end -/

theorem eventsFrom_split {r r' : RunState} {journal : Nat} (hle : journal ≤ r.journal.size)
    (h : r.journal.toList <+: r'.journal.toList) :
    r'.eventsFrom journal = r.eventsFrom journal ++ r'.eventsFrom r.journal.size := by
  obtain ⟨new, hnew⟩ := h
  simp only [RunState.eventsFrom, ← hnew, ← Array.length_toList, List.drop_left]
  rw [List.drop_append_of_le_length hle, List.filterMap_append]

/-- Who reads to the end receives all that the journal announces, and then the result. -/
theorem follow_events (hreader : reader.take = none) {p : Progress Scene RunResult}
    (h : p.Keeps Untouched (Regime.history deadline).step
      (fun c₀ s₀ c s a => (Regime.history deadline).step c₀ s₀ c s ∧ Q c s a) c₀ s₀)
    (received : Nat) :
    ∃ result, (follow reader p s₀.2.journal.size received).result = some result ∧
      (follow reader p s₀.2.journal.size received).events =
        (follow reader p s₀.2.journal.size received).last.state.eventsFrom s₀.2.journal.size ++
          [.complete result] := by
  induction p generalizing c₀ s₀ received with
  | done c s result =>
    exact ⟨result, rfl, by simp only [follow, Reader.receive, hreader]⟩
  | waiting w c s k ih =>
    obtain ⟨m, r⟩ := s
    let events := r.eventsFrom s₀.2.journal.size
    let received' := received + events.length
    let m' := reader.react received events m
    let rest := follow reader (k (c.advance w.due) (m', r)) r.journal.size received'
    have hfollow : follow reader (.waiting w c (m, r) k) s₀.2.journal.size received =
        ⟨⟨⟨c, m'⟩, r, received'⟩ :: rest.pauses, rest.last, rest.result, events ++ rest.events⟩ := by
      simp only [follow, Reader.receive, Reader.satisfied, hreader]
      rfl
    have hkeeps := h.2 (c.advance w.due) (m', r) rfl
    obtain ⟨result, hresult, hevents⟩ := ih _ (m', r) hkeeps received'
    have hgrown : r.journal.toList <+: rest.last.state.journal.toList :=
      (follow_sound reader hkeeps r.journal.size received').reached rest.last
        (List.mem_append_right _ List.mem_cons_self)
    have hsize : s₀.2.journal.size ≤ r.journal.size := by
      simpa only [Array.length_toList] using h.1.length_le
    rw [hfollow]
    refine ⟨result, hresult, ?_⟩
    rw [eventsFrom_split hsize hgrown, List.append_assoc]
    exact congrArg (events ++ ·) hevents

/-- Without a reader who interferes, a reading is the straight run. -/
theorem follow_finish (p : Progress Scene RunResult) (journal received : Nat) :
    (follow {} p journal received).result = some p.finish.2.2 := by
  induction p generalizing journal received with
  | done c s result => rfl
  | waiting w c s k ih => exact ih (c.advance w.due) s s.2.journal.size _

namespace Orchestration

/-- Who does not stop reading reads on the routine that drives the run. -/
theorem reading_eq_follow (hreader : reader.take = none) (o : Orchestration) (stamp : RunStamp)
    (input : String) (w : World) :
    o.reading stamp reader input w =
      follow reader (o.drive stamp input w.clock (w.memory, .initial o.ids)) 0 0 := by
  simp only [reading, Reader.satisfied, hreader]
  rfl

/-- A reader has received as many events as the reading shows. -/
theorem follow_received (reader : Reader) (p : Progress Scene RunResult) (journal received : Nat) :
    (follow reader p journal received).last.received =
      received + (follow reader p journal received).events.length := by
  induction p generalizing journal received with
  | done c s result => rfl
  | waiting w c s k ih =>
    simp only [follow]
    split
    · rfl
    · rw [ih, List.length_append, Nat.add_assoc]

theorem reading_received (o : Orchestration) (stamp : RunStamp) (reader : Reader) (input : String)
    (w : World) :
    (o.reading stamp reader input w).last.received =
      (o.reading stamp reader input w).events.length := by
  unfold reading
  split
  · rfl
  · rw [follow_received, Nat.zero_add]

theorem reading_execute (o : Orchestration) (stamp : RunStamp) (input : String) (w : World) :
    (o.reading stamp {} input w).result = some (o.execute stamp input w).2 :=
  follow_finish _ 0 0

/-- The reading of an accepted orchestration, under a regime that its members keep to. -/
theorem reading_sound {o : Orchestration} (ho : o.Accepted) {w : World}
    {K : Regime (.after w.clock.now o.timeout)} [K.Open] (hmembers : ∀ m ∈ o.members, m.Within K)
    (stamp : RunStamp) (reader : Reader) (input : String) :
    (o.reading stamp reader input w).Sound K (o.Finished w.clock.now) w.clock
      (w.memory, .initial o.ids) := by
  unfold reading
  split
  · refine ⟨?_, List.pairwise_singleton _ _, by simp⟩
    intro x hx
    obtain rfl := List.mem_singleton.mp hx
    exact K.refl _ _
  · exact follow_sound reader (o.drive_keeps ho hmembers stamp input w.memory) 0 0

theorem reading_cancelled {o : Orchestration} (ho : o.Accepted) {w : World}
    {K : Regime (.after w.clock.now o.timeout)} (hmembers : ∀ m ∈ o.members, m.Within K)
    (hlasts : ∀ {c s c' s'}, K.step c s c' s' → s.1.cancelled = true → s'.1.cancelled = true)
    {k : Nat} (hk : reader.cancelAt = some k) (hpos : 0 < k) (stamp : RunStamp)
    (input : String) :
    ∀ x ∈ (o.reading stamp reader input w).snapshots, k ≤ x.received →
      x.world.memory.cancelled = true := by
  unfold reading
  split
  · intro x hx hle
    obtain rfl := List.mem_singleton.mp hx
    exact absurd hle (Nat.not_le.mpr hpos)
  · exact follow_cancelled hlasts hk (o.drive_keeps ho hmembers stamp input w.memory) 0 0
      fun hle => absurd hle (Nat.not_le.mpr hpos)

end Orchestration

/-- The reading of an accepted orchestration to its end: the run is over, the events are those of
its journal, and its books are complete. -/
theorem Orchestration.reading_to_end {o : Orchestration} (ho : o.Accepted) (stamp : RunStamp)
    (hreader : reader.take = none) (input : String) (w : World) :
    ∃ result m, (o.reading stamp reader input w).result = some result ∧
      (o.reading stamp reader input w).events =
        (o.reading stamp reader input w).last.state.events ++ [.complete result] ∧
      o.Finished w.clock.now (o.reading stamp reader input w).last.world.clock
        (m, (o.reading stamp reader input w).last.state) result := by
  let K := Regime.history (.after w.clock.now o.timeout)
  have hmembers : ∀ m ∈ o.members, m.Within K := fun m _ => m.within_history _
  have hsound := reading_sound ho hmembers stamp reader input
  rw [reading_eq_follow hreader] at hsound ⊢
  obtain ⟨result, hresult, hevents⟩ :=
    follow_events hreader (o.drive_keeps ho hmembers stamp input w.memory) 0
  obtain ⟨m, -, hfinished⟩ := hsound.concluded result hresult
  exact ⟨result, m, hresult, hevents, hfinished⟩

end Ensemble
