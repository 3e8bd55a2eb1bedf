import Ensemble.Proofs.Pairing.Patterns
import Ensemble.Proofs.Run.Foresight
import Ensemble.Proofs.Stream.Sections

/-!
# The same calls in another order

Participants that answer by number and message answer the same however long they take, but the calls
of a round may then be done in another order. `Pairing.shuffle` puts two runs side by side that
differ in no more than that: section by section of their events the calls are the same up to the
order, and what has been counted, posted and begun is the same. They stay so because no pattern
looks at the order in which calls were done.
-/

namespace Ensemble

open List (Forall₂)

/-! ## Orders of calls -/

/-- The same calls in another order; if `once`, the calls of each participant are in one order. -/
structure Shuffled (once : Prop) (records records' : List CallRecord) : Prop where
  perm : records.Perm records'
  each : once → ∀ id, records.filter (·.id = id) = records'.filter (·.id = id)

namespace Shuffled

variable {once : Prop} {l l' more more' : List CallRecord}

theorem nil : Shuffled once [] [] := ⟨.refl [], fun _ _ => rfl⟩

theorem append (h : Shuffled once l l') (hmore : Shuffled once more more') :
    Shuffled once (l ++ more) (l' ++ more') where
  perm := h.perm.append hmore.perm
  each honce id := by
    rw [List.filter_append, List.filter_append, h.each honce id, hmore.each honce id]

theorem flatten {groups groups' : List (List CallRecord)}
    (h : Forall₂ (Shuffled once) groups groups') :
    Shuffled once groups.flatten groups'.flatten := by
  induction h with
  | nil => exact .nil
  | cons hg _ ih => exact hg.append ih

end Shuffled

/-! ## Parts that are alike -/

/-- Members with one name that answer by one function of number and message, at one seat. -/
def Member.Peers (m m' : Member) : Prop :=
  m.id = m'.id ∧ ∃ seat f, m.Plays seat f ∧ m'.Plays seat f

/-- Parts that count at one seat and are answered in the same way. -/
structure Part.Alike (p p' : Part) : Prop where
  id : p.dispatch.member.id = p'.dispatch.member.id
  message : p.dispatch.message = p'.dispatch.message
  seat : p.seat = p'.seat
  answer : p.answer = p'.answer

/-- Calls with one record at one position. -/
structure Placed.Alike (e e' : Placed) : Prop where
  position : e.position = e'.position
  record : e.call.record = e'.call.record

theorem Part.Alike.record {p p' : Part} (h : p.Alike p') (counts : Nat → Nat) :
    (p.call counts).record = (p'.call counts).record := by
  simp only [Call.record, Call.id, Part.call, h.id, h.message, h.seat, h.answer]

theorem Part.Alike.count {p p' : Part} (h : p.Alike p') (counts : Nat → Nat) :
    p.count counts = p'.count counts := by
  unfold Part.count
  rw [h.seat]

/-- Plans that are alike are plans of parts that are. -/
theorem exists_alike {plan plan' : List Dispatch}
    (h : Forall₂ (Dispatch.Alike Member.Peers) plan plan') :
    ∃ parts parts' : List Part, parts.map (·.dispatch) = plan ∧
      parts'.map (·.dispatch) = plan' ∧ Forall₂ Part.Alike parts parts' := by
  induction h with
  | nil => exact ⟨[], [], rfl, rfl, .nil⟩
  | @cons d d' _ _ hd _ ih =>
    obtain ⟨⟨hid, seat, f, hplays, hplays'⟩, hmessage⟩ := hd
    obtain ⟨parts, parts', rfl, rfl, hparts⟩ := ih
    exact ⟨⟨d, seat, f, hplays⟩ :: parts, ⟨d', seat, f, hplays'⟩ :: parts', rfl, rfl,
      .cons ⟨hid, hmessage, rfl, rfl⟩ hparts⟩

section

variable {parts parts' : List Part}

/-- The same is foreseen of parts that are alike. -/
theorem foresee_alike (h : Forall₂ Part.Alike parts parts') (counts : Nat → Nat) (n : Nat) :
    Forall₂ Placed.Alike (foresee counts (parts.zipIdx n)) (foresee counts (parts'.zipIdx n)) := by
  induction h generalizing counts n with
  | nil => exact .nil
  | @cons p p' _ _ hp _ ih =>
    rw [List.zipIdx_cons, List.zipIdx_cons, foresee, foresee, hp.count]
    exact .cons ⟨rfl, hp.record counts⟩ (ih _ (n + 1))

theorem countAll_alike (h : Forall₂ Part.Alike parts parts') (counts : Nat → Nat) (n : Nat) :
    countAll counts (parts.zipIdx n) = countAll counts (parts'.zipIdx n) := by
  induction h generalizing counts n with
  | nil => rfl
  | cons hp _ ih => rw [List.zipIdx_cons, List.zipIdx_cons, countAll, countAll, hp.count, ih]

theorem records_alike {l l' : List Placed} (h : Forall₂ Placed.Alike l l') :
    l.map (·.call.record) = l'.map (·.call.record) := by
  induction h with
  | nil => rfl
  | cons he _ ih => rw [List.map_cons, List.map_cons, he.record, ih]

theorem outcome_alike {c c' : Call} (h : c.record = c'.record) :
    c.outcome.Alike Eq c'.outcome := by
  obtain ⟨d, answer⟩ := c
  obtain ⟨d', answer'⟩ := c'
  obtain ⟨hid, -, rfl⟩ := CallRecord.mk.inj h
  cases answer with
  | ok m => exact .response rfl
  | error detail =>
    have hrecord : Message.failure (Call.mk d (.error detail)).id detail =
        .failure (Call.mk d' (.error detail)).id detail := by rw [hid]
    simp only [Call.outcome, hrecord]
    exact .failed _

theorem Placed.Alike.settled {e e' : Placed} (h : e.Alike e') :
    e.settled.Alike Eq e'.settled :=
  ⟨h.position, congrArg CallRecord.id h.record, outcome_alike h.record⟩

end

namespace Run.Worked

variable {once : Prop} {parts parts' : List Part} {x x' y y' : Moment Scene}
  {done done' : List Placed}

/-- Those called are those that the plan calls. -/
theorem ids_perm (h : Worked parts.zipIdx x y done) :
    ((done.map (·.call.record)).map (·.id)).Perm (parts.map (·.dispatch.member.id)) := by
  have hplan := congrArg (List.map (·.member.id)) (dispatches_settled x.2.1.tally parts)
  rw [List.map_map, List.map_map, List.map_map] at hplan
  rw [List.map_map]
  exact (h.perm.map _).trans (.of_eq hplan)

/-- Calls of parts that are alike come out the same, whichever of them is done first. -/
theorem shuffled (h : Worked parts.zipIdx x y done) (h' : Worked parts'.zipIdx x' y' done')
    (hparts : Forall₂ Part.Alike parts parts') (htally : x.2.1.tally = x'.2.1.tally)
    (honce : once → (parts.map (·.dispatch.member.id)).Nodup) :
    Shuffled once (done.map (·.call.record)) (done'.map (·.call.record)) := by
  have hperm : (done.map (·.call.record)).Perm (done'.map (·.call.record)) := by
    refine (h.perm.map _).trans ?_
    rw [records_alike (foresee_alike hparts _ 0), htally]
    exact (h'.perm.map _).symm
  exact ⟨hperm, fun hone => CallRecord.filter_id_eq hperm (h.ids_perm.nodup_iff.mpr (honce hone))⟩

end Run.Worked

/-! ## Runs side by side -/

/-- Scenes of two runs that differ in the order of their calls at most: section by section the same
calls have been made, and the same has been counted, posted and begun. -/
structure Matched (once : Prop) (coda : List Message) (s s' : Scene) : Prop where
  tally : s.1.tally = s'.1.tally
  blackboard : s.2.blackboard = s'.2.blackboard
  rounds : s.2.rounds = s'.2.rounds
  calls : ∃ earlier earlier' current current',
    Sectioned s.2.events s.2.messages.toList (earlier ++ [current]) coda ∧
    Sectioned s'.2.events s'.2.messages.toList (earlier' ++ [current']) coda ∧
    Forall₂ (Shuffled once) earlier earlier' ∧ Shuffled once current current'

namespace Matched

variable {once : Prop} {s t s' t' : Scene}

theorem initial (ids : List String) {m m' : Memory} (h : m.tally = m'.tally) :
    Matched once [] (m, .initial ids) (m', .initial ids) :=
  ⟨h, rfl, rfl, [], [], [], [], .initial ids, .initial ids, .nil, .nil⟩

/-- A round begins or ends in both runs. -/
theorem mark (h : Matched once [] s s') {o : Occurrence} {e : Event} (ho : o.event? = some e)
    (he : e.marks = true) (hmemory : t.1 = s.1) (hmemory' : t'.1 = s'.1)
    (hboard : t.2.blackboard = s.2.blackboard) (hboard' : t'.2.blackboard = s'.2.blackboard)
    (hgain : s.2.Gains [o] [] t.2) (hgain' : s'.2.Gains [o] [] t'.2) : Matched once [] t t' where
  tally := by rw [hmemory, hmemory', h.tally]
  blackboard := by rw [hboard, hboard', h.blackboard]
  rounds := by rw [hgain.rounds, hgain'.rounds, h.rounds]
  calls := by
    obtain ⟨earlier, earlier', current, current', hs, hs', hearlier, hcurrent⟩ := h.calls
    exact ⟨earlier ++ [current], earlier' ++ [current'], [], [], hs.mark ho he hgain,
      hs'.mark ho he hgain', List.rel_append hearlier (.cons hcurrent .nil), .nil⟩

/-- Calls of parts that are alike have been worked off in both runs. -/
theorem worked {x y x' y' : Moment Scene} (h : Matched once [] x.2 x'.2)
    {parts parts' : List Part} (hparts : Forall₂ Part.Alike parts parts')
    (honce : once → (parts.map (·.dispatch.member.id)).Nodup) {done done' : List Placed}
    (hdone : Run.Worked parts.zipIdx x y done) (hdone' : Run.Worked parts'.zipIdx x' y' done') :
    Matched once [] y.2 y'.2 := by
  obtain ⟨log, hlog, hgain⟩ := hdone.gains
  obtain ⟨log', hlog', hgain'⟩ := hdone'.gains
  refine ⟨?_, ?_, ?_, ?_⟩
  · rw [hdone.tally, hdone'.tally, h.tally, countAll_alike hparts]
  · rw [hdone.blackboard, hdone'.blackboard, h.blackboard]
  · rw [hgain.rounds, hgain'.rounds, h.rounds, hlog.countP_beginsRound, hlog'.countP_beginsRound]
  · have hshuffled := hdone.shuffled hdone' hparts h.tally honce
    obtain ⟨earlier, earlier', current, current', hs, hs', hearlier, hcurrent⟩ := h.calls
    have hcalls := hs.calls hlog hgain
    have hcalls' := hs'.calls hlog' hgain'
    rw [List.map_map] at hcalls hcalls'
    exact ⟨earlier, earlier', _, _, hcalls, hcalls', hearlier, hcurrent.append hshuffled⟩

end Matched

/-- Two runs with the same calls in another order, as long as nothing is forgone. -/
def Pairing.shuffle (once : Prop) (d₁ d₂ : Deadline) : Pairing d₁ d₂ where
  one := .history d₁
  two := .history d₂
  abreast x y := Matched once [] x.2 y.2
  apart x y := x.2.2.Forgone ∨ y.2.2.Forgone
  lasts h hone htwo := h.imp (·.grows hone) (·.grows htwo)
  reply := Eq
  reply_refl _ := rfl
  reply_content _ _ h := congrArg Message.content h

namespace Shuffle

open Run

variable {once : Prop} {d₁ d₂ : Deadline}

theorem holds_dispatchRound {d : Deadline} (plan : List Dispatch) :
    Holds (.history d) (dispatchRound d plan) :=
  meets_from (P := fun _ => True) fun r₀ _ =>
    (meets_dispatchRound r₀ fun call _ => call.member.within_history d).consequence
      (fun _ h => h) fun _ _ _ => trivial

/-- Two ends at which something has been forgone, or which stand side by side. -/
theorem ends_unless_forgone {α : Type} {V : α → α → Prop} {e e' : α × Moment Scene} {P P' : Prop}
    (h : e.2.2.2.Forgone ∨ P) (h' : e'.2.2.2.Forgone ∨ P')
    (hboth : P → P' → V e.1 e'.1 ∧ Matched once [] e.2.2 e'.2.2) :
    (Pairing.shuffle once d₁ d₂).Ends (Pairing.shuffle once d₁ d₂).abreast V e e' := by
  rcases h with hforgone | hp
  · exact .inr (.inl hforgone)
  · rcases h' with hforgone | hp'
    · exact .inr (.inr hforgone)
    · exact .inl (hboth hp hp')

theorem abreast_beginRound (round : Nat) :
    (Pairing.shuffle once d₁ d₂).Abreast (beginRound d₁ round) (beginRound d₂ round) Eq where
  one := holds_beginRound round
  two := holds_beginRound round
  both x y hxy := by
    have hx := (@begun_round d₁ round x _ rfl).imp_left And.right
    have hy := (@begun_round d₂ round y _ rfl).imp_left And.right
    refine ends_unless_forgone hx hy ?_
    rintro ⟨hbegun, hmemory, hboard, hgain⟩ ⟨hbegun', hmemory', hboard', hgain'⟩
    exact ⟨hbegun.trans hbegun'.symm,
      hxy.mark rfl rfl hmemory hmemory' hboard hboard' hgain hgain'⟩

theorem abreast_endRound (round : Nat) :
    (Pairing.shuffle once d₁ d₂).Abreast (endRound round) (endRound round) Eq where
  one := holds_endRound round
  two := holds_endRound round
  both x y hxy := by
    have hgain := gains_noted (o := .roundEnded round) rfl
    exact .inl ⟨rfl, hxy.mark rfl rfl rfl rfl rfl rfl (hgain x.1 x.2) (hgain y.1 y.2)⟩

theorem abreast_post (key value : String) :
    (Pairing.shuffle once d₁ d₂).Abreast (Swarm.post key value) (Swarm.post key value) Eq where
  one := Swarm.holds_post key value
  two := Swarm.holds_post key value
  both x y hxy := by
    refine .inl ⟨rfl, hxy.tally, ?_, hxy.rounds, hxy.calls⟩
    exact congrArg (·.insertIfAbsent key (.str value)) hxy.blackboard

theorem abreast_call {m m' : Member} (message : Message) (hm : m.Peers m') :
    (Pairing.shuffle once d₁ d₂).Abreast (call d₁ m message) (call d₂ m' message)
      (Outcome.Alike Eq) where
  one := holds_call (m.within_history d₁) message
  two := holds_call (m'.within_history d₂) message
  both x y hxy := by
    obtain ⟨hid, seat, f, hplays, hplays'⟩ := hm
    let p : Part := ⟨⟨m, message⟩, seat, f, hplays⟩
    let p' : Part := ⟨⟨m', message⟩, seat, f, hplays'⟩
    have hp : p.Alike p' := ⟨hid, rfl, rfl, rfl⟩
    have hparts : Forall₂ Part.Alike [p] [p'] := .cons hp .nil
    refine ends_unless_forgone (worked_call p x rfl) (worked_call p' y rfl) ?_
    rintro ⟨houtcome, hworked⟩ ⟨houtcome', hworked'⟩
    constructor
    · rw [houtcome, houtcome', hxy.tally]
      exact outcome_alike (hp.record _)
    · refine hxy.worked hparts (fun _ => ?_) hworked hworked'
      exact List.nodup_cons.mpr ⟨List.not_mem_nil, List.nodup_nil⟩

/-- A round in which nobody is asked twice, unless the order of the calls of a participant may be
another. -/
theorem abreast_dispatchRound {plan plan' : List Dispatch}
    (hplan : Forall₂ (Dispatch.Alike Member.Peers) plan plan')
    (honce : once → (plan.map (·.member.id)).Nodup) :
    (Pairing.shuffle once d₁ d₂).Abreast (dispatchRound d₁ plan) (dispatchRound d₂ plan')
      (Forall₂ (Settled.Alike Eq)) where
  one := holds_dispatchRound plan
  two := holds_dispatchRound plan'
  both x y hxy := by
    obtain ⟨parts, parts', rfl, rfl, hparts⟩ := exists_alike hplan
    refine ends_unless_forgone (worked_dispatchRound parts x rfl)
      (worked_dispatchRound parts' y rfl) ?_
    rintro ⟨hcalls, done, hworked⟩ ⟨hcalls', done', hworked'⟩
    constructor
    · -- in the order of the plan the calls correspond one by one
      have hforeseen := foresee_alike hparts x.2.1.tally 0
      rw [hcalls, hcalls', ← hxy.tally]
      exact List.rel_map (fun _ _ he => he.settled) hforeseen
    · refine hxy.worked hparts (fun h => ?_) hworked hworked'
      have hnodup := honce h
      rwa [List.map_map] at hnodup

theorem operations : (Pairing.shuffle once d₁ d₂).Operations Member.Peers where
  ids h := h.1
  blackboard h := h.blackboard
  beginRound := abreast_beginRound
  endRound := abreast_endRound
  post := abreast_post
  call := abreast_call
  dispatchRound hplan hunique := abreast_dispatchRound hplan fun _ => hunique

/-- **Whole runs of members that correspond** have the same calls in another order; only pieces of a
map-reduce run may change the order of the calls of one participant. -/
theorem joins_run {members members' : List Member}
    (hmembers : Forall₂ Member.Peers members members') (hunique : (members.map (·.id)).Nodup)
    {strategy : Strategy} (honce : once → ∀ job, strategy ≠ .mapReduce job)
    (hunlimited : ∀ job, strategy = .mapReduce job → job.concurrency = none) (input : String) :
    (Pairing.shuffle once d₁ d₂).Joins (fun x y => ∃ coda, Matched once coda x.2 y.2)
      (strategy.run members d₁ input) (strategy.run members' d₂ input) Eq := by
  refine Strategy.joins_run operations hmembers hunique strategy.respects_eq
    (fun _ _ h => ⟨[], h⟩) ?_ input ?_
  · -- the message of a reduction stands behind all calls
    intro m
    refine ⟨holds_recordMessage m, holds_recordMessage m, fun x y hxy => .inl ⟨rfl, [m], ?_⟩⟩
    refine ⟨hxy.tally, hxy.blackboard, hxy.rounds, ?_⟩
    obtain ⟨earlier, earlier', current, current', hs, hs', hrest⟩ := hxy.calls
    refine ⟨earlier, earlier', current, current', ⟨hs.settled, ?_⟩, ⟨hs'.settled, ?_⟩, hrest⟩
    · exact Array.toList_push.trans (by rw [hs.transcript, List.append_nil])
    · exact Array.toList_push.trans (by rw [hs'.transcript, List.append_nil])
  · rintro job rfl
    rw [hunlimited job rfl]
    -- all pieces at once are a round, in which a participant may be asked more than once
    have hplan := MapReduce.alike_plan (fun h => h.1) hmembers (job.split input)
    refine Pairing.Joins.map (abreast_dispatchRound hplan fun h => ?_) ?_
    · exact absurd rfl (honce h job)
    · exact fun _ _ hcalls => List.rel_filterMap (fun _ _ hs => hs.outcome.response?) hcalls

end Shuffle

end Ensemble
