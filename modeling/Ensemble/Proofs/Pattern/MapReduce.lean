import Ensemble.Proofs.Run.Shifts
import Ensemble.Proofs.Stream.Ending
import Ensemble.Proofs.Timing.Bounded
import Ensemble.Proofs.Timing.Truncation

/-!
# What a map-reduce run does

The pieces of the input are worked on in their order, with a limit so many of them at a time.
`keeps_run` says what the books of a run are like whenever it waits and when it is over, and
`Orderly` what that comes to for every moment of its journal. `bounded_pool_never_idles` says it of
all readings: never are too many calls underway, and never does a slot stay free while a piece
waits.
-/

namespace Ensemble

open Run

namespace MapReduce

/-! ## The plan -/

/-- Pieces go to the participants in turn, each with its number. -/
structure Shares (members : List Member) (piece : String) (k : Nat) (d : Dispatch) : Prop where
  member : members[k % members.length]? = some d.member
  content : d.message.content = piece
  index : d.message.meta? "chunk_index" = some (.nat k)

/-- Every piece is planned for. -/
theorem plan_shares {members : List Member} (hmembers : members ≠ []) (pieces : List String) :
    List.Forall₂ (fun p d => Shares members p.1 p.2 d) pieces.zipIdx (plan members pieces) := by
  unfold plan
  induction pieces.zipIdx with
  | nil => exact .nil
  | cons p rest ih =>
    obtain ⟨piece, k⟩ := p
    have hturn : k % members.length < members.length :=
      Nat.mod_lt k (List.length_pos_of_ne_nil hmembers)
    have hm := List.getElem?_eq_getElem hturn
    have hrequest := request?_eq piece hm
    simp only [List.filterMap_cons, hrequest]
    exact .cons ⟨hm, rfl, by simp [request]⟩ ih

theorem length_plan {members : List Member} (hmembers : members ≠ []) (pieces : List String) :
    (plan members pieces).length = pieces.length := by
  rw [← (plan_shares hmembers pieces).length_eq, List.length_zipIdx]

/-- The numbers of the pieces, in the order of the plan. -/
theorem indices_plan {members : List Member} (hmembers : members ≠ []) (pieces : List String) :
    (plan members pieces).map (·.message.meta? "chunk_index") =
      (List.range pieces.length).map fun k => some (.nat k) := by
  have hindices : (plan members pieces).map (·.message.meta? "chunk_index") =
      pieces.zipIdx.map fun p => some (.nat p.2) := by
    have hshares := (plan_shares hmembers pieces).flip.imp fun _ _ h => h.index
    exact List.forall₂_eq_eq_eq ▸ List.forall₂_map_left_iff.mpr
      (List.forall₂_map_right_iff.mpr hshares)
  calc (plan members pieces).map (·.message.meta? "chunk_index")
      = (pieces.zipIdx.map Prod.snd).map fun k => some (.nat k) := by
        rw [hindices, List.map_map]
        rfl
    _ = (List.range pieces.length).map fun k => some (.nat k) := by
      rw [List.zipIdx_map_snd, List.range_eq_range']

/-! ## The run -/

variable {deadline : Deadline} {limit : Nat} {members : List Member} {pieces : List String}

/-- The books of a run that began with `r₀`, while the calls for its pieces wait. -/
def Working (limit : Nat) (calls : List Dispatch) (r₀ r : RunState) : Prop :=
  ∃ r₁, r₀.Gains [.roundBegun 0] [] r₁ ∧ AtWork limit calls r₁ r

/-- The books of a run that began with `r₀` when its round is over or has been refused. -/
inductive Rounded (limit : Nat) (calls : List Dispatch) (stopped : Prop) (r₀ : RunState) :
    List Settled → RunState → Prop where
  | refused {r} : stopped → r₀.Gains [.roundRefused 0] [] r → Rounded limit calls stopped r₀ [] r
  | worked {done r₁ r₂ r} : r₀.Gains [.roundBegun 0] [] r₁ → WorkedOff limit calls r₁ done r₂ →
      r₂.Gains [.roundEnded 0] [] r → Rounded limit calls stopped r₀ done r

/-- How many calls there is room for: without a limit there is room for all of them. -/
def room (concurrency : Option Nat) (calls : List Dispatch) : Nat :=
  concurrency.getD (calls.length + 1)

/-- Calls that are over, in this order, as a round hands them on: in the order of the plan without a
limit. -/
def arranged (concurrency : Option Nat) (done : List Settled) : List Settled :=
  match concurrency with
  | some _ => done
  | none => inOrder done

theorem keeps_mapCalls {concurrency : Option Nat} (hlimit : concurrency ≠ some 0)
    (calls : List Dispatch) (c : Clock) (s : Scene) :
    (mapCalls deadline concurrency calls c s).Keeps Untouched
      (fun _ _ _ s' => AtWork (room concurrency calls) calls s.2 s'.2)
      (fun _ _ _ s' handed => ∃ done, handed = arranged concurrency done ∧
        WorkedOff (room concurrency calls) calls s.2 done s'.2) c s := by
  cases concurrency with
  | some limit =>
    have hpos : 0 < limit := Nat.pos_of_ne_zero fun hzero => hlimit (congrArg some hzero)
    exact (keeps_dispatchBounded hpos c s).mono (fun _ _ h => h) (fun _ _ _ _ h => h)
      fun _ _ _ _ done h => ⟨done, rfl, h⟩
  | none =>
    refine (Progress.keeps_andThen (Routine.together settle (tasks deadline calls) c s) _).mpr ?_
    exact (keeps_together c s).mono (fun _ _ h => h) (fun _ _ _ _ h => h)
      fun _ _ _ _ done h => ⟨done, rfl, h⟩

theorem keeps_roundCalls {concurrency : Option Nat} (hlimit : concurrency ≠ some 0) (c : Clock)
    (s : Scene) :
    let calls := plan members pieces
    (roundCalls members deadline concurrency pieces c s).Keeps Untouched
      (fun _ _ _ s' => Working (room concurrency calls) calls s.2 s'.2)
      (fun _ _ _ s' handed => ∃ done, handed = arranged concurrency done ∧
        Rounded (room concurrency calls) calls ((instant c s.1).stopped deadline = true) s.2 done
          s'.2) c s := by
  intro calls
  simp only [roundCalls, beginRound, Routine.bind_apply, stopping, Progress.andThen]
  split
  · next hstop =>
    have hnone : arranged concurrency [] = [] := by
      cases concurrency with
      | some limit => rfl
      | none => exact List.mergeSort_nil
    exact ⟨[], hnone.symm, .refused hstop (gains_noted rfl c s)⟩
  · have hbegun := gains_roundBegun 0 c s
    let s₁ := noted (.roundBegun 0) c (s.1, { s.2 with rounds := s.2.rounds + 1 })
    refine (Progress.keeps_andThen (mapCalls deadline concurrency calls c s₁) _).mpr ?_
    have hcalls : (mapCalls deadline concurrency calls c s₁).Keeps Untouched _ _ c s :=
      (keeps_mapCalls hlimit calls c s₁).extend (fun _ _ h => h) fun _ _ _ h => h
    refine hcalls.mono (fun _ _ h => h) (fun _ _ _ _ h => ⟨s₁.2, hbegun, h⟩) ?_
    rintro _ _ c' s' handed ⟨done, rfl, hdone⟩
    exact ⟨done, rfl, .worked hbegun hdone (gains_noted rfl c' s')⟩

/-- A run waits in its round only, and what it leaves is made of the calls of that round. -/
theorem keeps_run {job : Job} (hlimit : job.concurrency ≠ some 0) (input : String) (c : Clock)
    (s : Scene) :
    let calls := plan members (job.split input)
    (run job members deadline input c s).Keeps Untouched
      (fun _ _ _ s' => Working (room job.concurrency calls) calls s.2 s'.2)
      (fun _ _ _ s' _ => ∃ done r, Rounded (room job.concurrency calls) calls
        ((instant c s.1).stopped deadline = true) s.2 done r ∧
        s'.2.occurrences = r.occurrences) c s := by
  intro calls
  rw [run_eq]
  refine (Progress.keeps_andThen _ _).mpr ?_
  refine (keeps_roundCalls hlimit c s).mono (fun _ _ h => h) (fun _ _ _ _ h => h) ?_
  rintro _ _ _ s' handed ⟨done, rfl, hdone⟩
  exact ⟨done, s'.2, hdone, rfl⟩

/-! ## The journal at every moment -/

/-- A journal of calls that begin in the order of their plan, so many of them at a time. -/
structure Orderly (limit : Nat) (calls : List Dispatch) (log : List Occurrence) : Prop where
  atMost : ∀ l, l <+: log → l.countP (·.endsCall) ≤ l.countP (·.beginsCall) ∧
    l.countP (·.beginsCall) ≤ l.countP (·.endsCall) + limit
  asked : log.filterMap (·.asked?) <+: calls.map (·.address)

variable {calls : List Dispatch} {log : List Occurrence}

theorem orderly_nil (limit : Nat) (calls : List Dispatch) : Orderly limit calls [] where
  atMost l hl := by simp [List.prefix_nil.mp hl]
  asked := List.nil_prefix

/-- What is no call changes nothing, in front of calls or behind them. -/
theorem Orderly.cons (h : Orderly limit calls log) {o : Occurrence}
    (hbegins : o.beginsCall = false) (hends : o.endsCall = false) (hasked : o.asked? = none) :
    Orderly limit calls (o :: log) where
  atMost l hl := by
    rcases List.prefix_cons_iff.mp hl with rfl | ⟨l', rfl, hl'⟩
    · simp
    · simpa [hbegins, hends] using h.atMost l' hl'
  asked := by
    rw [List.filterMap_cons, hasked]
    exact h.asked

theorem Orderly.concat (h : Orderly limit calls log) {o : Occurrence}
    (hbegins : o.beginsCall = false) (hends : o.endsCall = false) (hasked : o.asked? = none) :
    Orderly limit calls (log ++ [o]) where
  atMost l hl := by
    rcases List.prefix_concat_iff.mp hl with rfl | hl
    · simpa [hbegins, hends] using h.atMost log (List.prefix_refl log)
    · exact h.atMost l hl
  asked := by
    rw [List.filterMap_append, List.filterMap_cons, hasked, List.filterMap_nil, List.append_nil]
    exact h.asked

theorem orderly_shifts {line going : List (Dispatch × Nat)} {done : List Settled}
    (h : ShiftLog limit calls line going done log) : Orderly limit calls log where
  atMost _ hl := h.atMost hl
  asked := ⟨_, h.asked⟩

/-- What the journal of a run says that has just begun its calls. -/
theorem Working.shifts {ids : List String} {r : RunState}
    (h : Working limit calls (.initial ids) r) :
    ∃ line going done body, r.occurrences = .roundBegun 0 :: body ∧
      ShiftLog limit calls line going done body ∧
      going.length = min limit (going.length + line.length) := by
  obtain ⟨r₁, hbegun, line, going, done, body, hbody, hgain, hfull⟩ := h
  refine ⟨line, going, done, body, ?_, hbody, hfull⟩
  rw [hgain.occurrences, hbegun.occurrences]
  rfl

theorem Working.orderly {ids : List String} {r : RunState}
    (h : Working limit calls (.initial ids) r) : Orderly limit calls r.occurrences := by
  obtain ⟨line, going, done, body, hlog, hbody, -⟩ := h.shifts
  rw [hlog]
  exact (orderly_shifts hbody).cons rfl rfl rfl

/-- **Whenever the run waits**, the calls underway are as many as there is room for, or all that are
not over. -/
theorem Working.full {ids : List String} {r : RunState}
    (h : Working limit calls (.initial ids) r) :
    Occurrence.underway r.occurrences =
      min limit (calls.length - Occurrence.closed r.occurrences) := by
  obtain ⟨line, going, done, body, hlog, hbody, hfull⟩ := h.shifts
  have hunderway : Occurrence.underway r.occurrences = going.length := by
    have hbegins : r.occurrences.countP (·.beginsCall) = body.countP (·.beginsCall) := by
      rw [hlog, List.countP_cons]
      rfl
    have hends : r.occurrences.countP (·.endsCall) = body.countP (·.endsCall) := by
      rw [hlog, List.countP_cons]
      rfl
    rw [Occurrence.underway, hbegins, hends, hbody.balance, Nat.add_sub_cancel_left]
  have hclosed : Occurrence.closed r.occurrences = done.length := by
    rw [hlog, Occurrence.closed, List.countP_cons, hbody.closed]
    rfl
  have hall : line.length + going.length + done.length = calls.length := by
    simpa [Nat.add_assoc] using hbody.remaining.length_eq
  rw [hunderway, hclosed]
  omega

/-- The calls of a plan that are over, in this order, and what the journal says of them: each was
answered or skipped. -/
structure Concluded (calls : List Dispatch) (done : List Settled) (log : List Occurrence) :
    Prop where
  positions : (done.map (·.position)).Perm (List.range calls.length)
  planned : ∀ a ∈ done, calls[a.position]? = some a.dispatch
  begun : (log.filterMap (·.begun?)).Perm
    ((done.filterMap (·.call?)).map (·.dispatch.address))
  answered : log.filterMap (·.settled?) =
    (done.filterMap (·.call?)).map fun c => (c.id, c.answer)
  skipped : log.filterMap (·.skipped?) = done.filterMap (·.skipped?)

theorem concluded_shifts {done : List Settled} (h : ShiftLog limit calls [] [] done log) :
    Concluded calls done log where
  positions := by
    have hpositions := h.remaining.map Prod.snd
    rw [List.append_nil, List.nil_append, List.map_map, List.zipIdx_map_snd,
      ← List.range_eq_range'] at hpositions
    exact hpositions
  planned a ha := by
    have hmem : (a.dispatch, a.position) ∈ calls.zipIdx :=
      h.remaining.mem_iff.mp (List.mem_append_right _ (List.mem_map.mpr ⟨a, ha, rfl⟩))
    exact List.mem_zipIdx_iff_getElem?.mp hmem
  begun := by
    have hbegun := h.logged.calls.begun_perm
    rw [List.map_nil, List.nil_append, List.map_map] at hbegun
    exact hbegun
  answered := h.logged.calls.settled_eq
  skipped := h.logged.skips

/-- What the journal of a run says that is over. -/
theorem Rounded.concluded {stopped : Prop} {ids : List String} {done : List Settled}
    {r : RunState} (h : Rounded limit calls stopped (.initial ids) done r) :
    r.occurrences = [.roundRefused 0] ∧ stopped ∨
      ∃ body, r.occurrences = .roundBegun 0 :: (body ++ [.roundEnded 0]) ∧
        ShiftLog limit calls [] [] done body := by
  cases h with
  | refused hstopped hrefused => exact .inl ⟨hrefused.occurrences, hstopped⟩
  | worked hbegun hworked hended =>
    obtain ⟨body, hbody, hgain⟩ := hworked
    refine .inr ⟨body, ?_, hbody⟩
    rw [hended.occurrences, hgain.occurrences, hbegun.occurrences, List.append_assoc]
    rfl

theorem Rounded.orderly {stopped : Prop} {ids : List String} {done : List Settled} {r : RunState}
    (h : Rounded limit calls stopped (.initial ids) done r) :
    Orderly limit calls r.occurrences := by
  rcases h.concluded with ⟨hlog, -⟩ | ⟨body, hlog, hbody⟩
  · rw [hlog]
    exact (orderly_nil limit calls).cons rfl rfl rfl
  · rw [hlog]
    exact ((orderly_shifts hbody).concat rfl rfl rfl).cons rfl rfl rfl

end MapReduce

/-- Of the calls whose turn has come, the first ones were made: once a run has to stop the others
are skipped. -/
theorem Stretch.begun_first {deadline : Deadline} {i j : Instant} {entries : List Entry}
    (h : Stretch deadline i j entries) :
    (entries.map (·.occurrence)).filterMap (·.begun?) <+:
      (entries.map (·.occurrence)).filterMap (·.asked?) := by
  simp only [List.filterMap_map, Function.comp_def]
  let asked := entries.filter (·.occurrence.asked?.isSome)
  have hfirst : asked.filter (·.occurrence.begins) <+: asked := by
    refine filter_first ((h.lasts.filter _).imp_of_mem fun {e e'} he _ hlasts hbegins => ?_)
    obtain ⟨hmem, hasked⟩ := List.mem_filter.mp he
    by_contra hnot
    have hforgoes : e.occurrence.forgoes = true := by
      obtain ⟨o, moment, cancelled⟩ := e
      cases o <;> simp_all [Occurrence.asked?, Occurrence.begins, Occurrence.forgoes]
    have hstopped := (hlasts ((h.permitted e hmem).forgoes hforgoes)).2
    rw [hbegins] at hstopped
    cases hstopped
  have hbegun : entries.filterMap (·.occurrence.begun?) =
      (asked.filter (·.occurrence.begins)).filterMap (·.occurrence.asked?) := by
    rw [List.filter_filter, List.filterMap_filter]
    refine List.filterMap_congr fun e _ => ?_
    obtain ⟨o, moment, cancelled⟩ := e
    cases o <;> rfl
  have hasked : asked.filterMap (·.occurrence.asked?) =
      entries.filterMap (·.occurrence.asked?) := by
    rw [List.filterMap_filter]
    refine List.filterMap_congr fun e _ => ?_
    cases e.occurrence.asked? <;> simp
  rw [hbegun, ← hasked]
  exact hfirst.filterMap _

open MapReduce

/-- How the reading of a run that began at `start` shows the calls of a plan, with so many slots for
them. -/
structure Reading.Crewed (limit : Nat) (deadline : Deadline) (start : Snapshot)
    (calls : List Dispatch) (R : Reading) : Prop where
  /-- At no moment are more calls underway than there are slots. -/
  atMost : ∀ log, log <+: R.last.state.occurrences →
    log.countP (·.endsCall) ≤ log.countP (·.beginsCall) ∧
      log.countP (·.beginsCall) ≤ log.countP (·.endsCall) + limit
  /-- Calls begin in the order of the plan, and none is passed over. -/
  inTurn : R.last.state.occurrences.filterMap (·.begun?) <+: calls.map (·.address)
  /-- Whenever the run waits, all slots are taken, or all calls that are not over are underway. -/
  full : ∀ x ∈ R.waits, Occurrence.underway x.state.occurrences =
    min limit (calls.length - Occurrence.closed x.state.occurrences)
  /-- Behind an entry at which the run had to stop no call begins. -/
  lasts : R.entries.Pairwise fun e e' => e.stopped deadline = true →
    e'.occurrence.beginsCall = false
  /-- Behind a pause at which the run had to stop no call begins. -/
  paused : ∀ x ∈ start :: R.snapshots, x.instant.stopped deadline = true →
    ∀ e ∈ R.entries.drop x.state.journal.size, e.occurrence.beginsCall = false
  /-- When the run is over, so is every call of the plan, unless the run had to stop before it
  began. -/
  concluded : ∀ result, R.result = some result →
    R.last.state.occurrences = [.roundRefused 0] ∧ start.instant.stopped deadline = true ∨
      ∃ done body, R.last.state.occurrences = .roundBegun 0 :: (body ++ [.roundEnded 0]) ∧
        Concluded calls done body

theorem Occurrence.beginsCall_eq_false {o : Occurrence} (h : o.begins = false) :
    o.beginsCall = false := by
  cases o <;> first | rfl | cases h

namespace Orchestration

variable {team : List Participant} {split : String → List String}
  {reduce : List Message → Message} {maxRounds : UInt64} {timeout : Option Duration}
  {concurrency : Option UInt64} {o : Orchestration}

/-- What passes the gate has room for one call at least. -/
theorem limit_of_mapping
    (h : ofParticipants team (mapping split reduce maxRounds timeout concurrency) = .ok o) :
    concurrency.map (·.toNat) ≠ some 0 := by
  have hworks := (accepted_of_build h).1.works
  rwa [of_mapping h] at hworks

/-- What the books of a map-reduce run are like where it waits and where it is over. -/
theorem reading_mapping
    (h : ofParticipants team (mapping split reduce maxRounds timeout concurrency) = .ok o)
    (stamp : RunStamp) {reader : Reader} (hreader : reader.take ≠ some 0) (input : String)
    (w : World) :
    let calls := plan o.members (split input)
    let slots := room (concurrency.map (·.toNat)) calls
    let R := o.reading stamp reader input w
    let stopped := (instant w.clock w.memory).stopped (.after w.clock.now o.timeout) = true
    (∀ x ∈ R.waits, Working slots calls (.initial o.ids) x.state) ∧
    (∀ result, R.result = some result → ∃ done r,
      Rounded slots calls stopped (.initial o.ids) done r ∧
      R.last.state.occurrences = r.occurrences) := by
  intro calls slots R stopped
  let job : Job := ⟨split, reduce, concurrency.map (·.toNat)⟩
  have hlimit : job.concurrency ≠ some 0 := limit_of_mapping h
  obtain rfl := of_mapping h
  refine reading_keeps (P := Working slots calls _)
    (E := fun r' => ∃ done r, Rounded slots calls stopped _ done r ∧
      r'.occurrences = r.occurrences) stamp hreader ?_
  exact keeps_run hlimit input w.clock (w.memory, .initial _)

/-- The journal is orderly, whether the reader has stayed to the end or not. -/
theorem orderly_reading
    (h : ofParticipants team (mapping split reduce maxRounds timeout concurrency) = .ok o)
    (stamp : RunStamp) {reader : Reader} (hreader : reader.take ≠ some 0) (input : String)
    (w : World) :
    let calls := plan o.members (split input)
    Orderly (room (concurrency.map (·.toNat)) calls) calls
      (o.reading stamp reader input w).last.state.occurrences := by
  intro calls
  obtain ⟨hwaits, hends⟩ := reading_mapping h stamp hreader input w
  cases hresult : (o.reading stamp reader input w).result with
  | none =>
    refine (hwaits (o.reading stamp reader input w).last ?_).orderly
    rw [Reading.waits, hresult]
    exact List.mem_append_right _ List.mem_cons_self
  | some result =>
    obtain ⟨done, r, hdone, hlog⟩ := hends result hresult
    rw [hlog]
    exact hdone.orderly

/-- The calls of a run are those of its plan, from the first on. -/
theorem indices_begun {members : List Member} (hmembers : members ≠ []) {pieces : List String}
    {begun : List (String × Message)}
    (h : begun <+: (plan members pieces).map (·.address)) :
    ∃ j ≤ pieces.length,
      begun.map (·.2.meta? "chunk_index") = (List.range j).map fun k => some (.nat k) := by
  have hle : begun.length ≤ pieces.length := by
    have hlength := h.length_le
    rwa [List.length_map, length_plan hmembers] at hlength
  refine ⟨begun.length, hle, ?_⟩
  have htake := List.prefix_iff_eq_take.mp h
  calc begun.map (·.2.meta? "chunk_index")
      = (((plan members pieces).map (·.address)).take begun.length).map
          (·.2.meta? "chunk_index") := congrArg (List.map (·.2.meta? "chunk_index")) htake
    _ = ((plan members pieces).map (·.message.meta? "chunk_index")).take begun.length := by
      rw [List.map_take, List.map_map]
      rfl
    _ = (List.range begun.length).map fun k => some (.nat k) := by
      rw [indices_plan hmembers, ← List.map_take, List.take_range, Nat.min_eq_left hle]

/-- **A pool with a limit never idles.** In a run with a limit the pieces are worked on in their
order, each by the participant whose turn it is. At no moment are there more calls underway than the
limit lets, and whenever the run waits there are as many as it lets, or all that are left. Behind a
moment at which the run had to stop no call begins; what has begun is settled all the same, and when
the run is over each piece has been settled once: it was answered, it has failed, or it was
skipped. -/
theorem bounded_pool_never_idles {limit : UInt64}
    (h : ofParticipants team (mapping split reduce maxRounds timeout (some limit)) = .ok o)
    (stamp : RunStamp) {reader : Reader} (hreader : reader.take ≠ some 0) (input : String)
    (w : World) :
    let pieces := split input
    let calls := plan o.members pieces
    let R := o.reading stamp reader input w
    List.Forall₂ (fun p d => Shares o.members p.1 p.2 d) pieces.zipIdx calls ∧
    o.stream stamp reader input w = (R.last.world, R.events) ∧
    (reader = {} → R.result = some (o.execute stamp input w).2) ∧
    (reader.take = none → ∃ result, R.result = some result ∧
      R.events = R.last.state.events ++ [.complete result]) ∧
    R.Crewed limit.toNat (.after w.clock.now o.timeout) ⟨w, .initial o.ids, 0⟩ calls ∧
    ∃ j ≤ pieces.length, (R.last.state.occurrences.filterMap (·.begun?)).map
      (·.2.meta? "chunk_index") = (List.range j).map fun k => some (.nat k) := by
  intro pieces calls R
  obtain ⟨ho, hteam⟩ := accepted_of_build h
  have hmembers : o.members ≠ [] := hteam ▸ nonempty_of_build h
  have hsound := reading_sound ho (K := .advances (.after w.clock.now o.timeout))
    (fun m hm => Member.within_advances (forward_of_build h m hm) _) stamp reader input
  have hall := stretch_drop
    (hsound.reached R.last (List.mem_append_right _ List.mem_cons_self))
  obtain ⟨hwaits, hends⟩ := reading_mapping h stamp hreader input w
  have horderly : Orderly limit.toNat calls R.last.state.occurrences :=
    orderly_reading h stamp hreader input w
  have hinTurn : R.last.state.occurrences.filterMap (·.begun?) <+: calls.map (·.address) := by
    have hfirst : R.last.state.occurrences.filterMap (·.begun?) <+:
        R.last.state.occurrences.filterMap (·.asked?) := hall.begun_first
    exact hfirst.trans horderly.asked
  refine ⟨plan_shares hmembers pieces, stream_eq_reading o stamp reader input w, ?_, ?_, ?_,
    indices_begun hmembers hinTurn⟩
  · rintro rfl
    exact reading_execute o stamp input w
  · intro htake
    obtain ⟨result, hend⟩ := exists_ends ho stamp htake input w
    exact ⟨result, hend.concluded, hend.events⟩
  · refine
      { atMost := horderly.atMost
        inTurn := hinTurn
        full := fun x hx => (hwaits x hx).full
        lasts := hall.lasts.imp fun hlasts hstop =>
          Occurrence.beginsCall_eq_false (hlasts hstop).2
        paused := ?_
        concluded := ?_ }
    · intro x hx hstopped e he
      refine Occurrence.beginsCall_eq_false ?_
      rcases List.mem_cons.mp hx with rfl | hx
      · exact (hall.stopped hstopped e he).2
      · exact ((stretch_drop (hsound.to_last x hx)).stopped hstopped e he).2
    · intro result hresult
      obtain ⟨done, r, hdone, hlog⟩ := hends result hresult
      rw [hlog]
      refine hdone.concluded.imp id ?_
      rintro ⟨body, hbody, hshifts⟩
      exact ⟨done, body, hbody, concluded_shifts hshifts⟩

/-- Four pieces, two at a time. -/
theorem bounded_pool_never_idles_sharing :
    ∃ o, sharing (some 2) = .ok o ∧
      let calls := plan o.members ["go", "go", "go", "go"]
      let R := o.reading default {} "go" .fresh
      R.result = some (o.execute default "go" .fresh).2 ∧
      R.Crewed 2 (.after 0 o.timeout) ⟨.fresh, .initial o.ids, 0⟩ calls ∧
      ∃ done body, R.last.state.occurrences = .roundBegun 0 :: (body ++ [.roundEnded 0]) ∧
        Concluded calls done body ∧ done.length = 4 := by
  obtain ⟨o, h⟩ : ∃ o, sharing (some 2) = .ok o := ⟨_, rfl⟩
  have hreader : Reader.take {} ≠ some 0 := by simp
  obtain ⟨hshares, -, hresult, -, hcrewed, -⟩ :=
    bounded_pool_never_idles h default hreader "go" .fresh
  refine ⟨o, h, hresult rfl, hcrewed, ?_⟩
  have hgo : (Snapshot.mk .fresh (.initial o.ids) 0).instant.stopped (.after 0 o.timeout) =
      false := by
    rw [of_mapping h]
    rfl
  rcases hcrewed.concluded _ (hresult rfl) with ⟨-, hstop⟩ | ⟨done, body, hlog, hdone⟩
  · exact absurd (hgo.symm.trans hstop) Bool.false_ne_true
  · refine ⟨done, body, hlog, hdone, ?_⟩
    have hlength := hdone.positions.length_eq
    rw [List.length_map, List.length_range, ← hshares.length_eq] at hlength
    exact hlength

end Orchestration

end Ensemble
