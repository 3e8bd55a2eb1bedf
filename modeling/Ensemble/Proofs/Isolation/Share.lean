import Ensemble.Proofs.Participant.Pace
import Ensemble.Proofs.Run.Foresight
import Ensemble.Proofs.Stream.Sections

/-!
# The share of one participant

What a run has to do with one of its participants: how often it is called, in which messages, and in
which order its calls are done. Within a round the calls of a participant that keeps to a `Conduct`
are an excerpt of the pool of all calls, so the share that it has in the end is the one that it
would have if nobody else took part (`Conduct.round`): no reply, failure or delay of another shows
in it.
-/

namespace Ensemble

open Run

/-- What concerns one participant in a run. -/
structure Share where
  /-- How often it has been called, in this run and before. -/
  calls : Nat
  /-- The messages in which it has been called, in the order in which the calls began. -/
  asked : List Message
  /-- Its calls, in the order in which they were done. -/
  done : List CallRecord

/-- One more call of the participant is done. -/
def Share.settle (record : CallRecord) (share : Share) : Share :=
  { share with done := share.done ++ [record] }

/-- What is known of a participant whose answers and waits depend on the number of the call and on
the message alone. -/
structure Conduct where
  id : String
  seat : Nat
  answer : Nat → Message → Except String Message
  pace : Nat → Message → List Nat

/-- The member keeps to the conduct. -/
structure Member.Follows (m : Member) (k : Conduct) : Prop where
  id : m.id = k.id
  answers : ∀ message c mem, (m.handle message c mem).Upholds Anything (.besides k.seat)
    (fun answer _ => answer = k.answer (mem.tally k.seat) message) c (mem.counted k.seat)
  paces : ∀ message c mem, (m.handle message c mem).Paces (k.pace (mem.tally k.seat) message) c

/-- The member is another one than that of the conduct. -/
structure Member.Apart (m : Member) (k : Conduct) : Prop where
  id : m.id ≠ k.id
  handles : ∀ message, (m.handle message).Meets Anything (.besides k.seat) (fun _ => True)
    fun _ _ => True

/-- The message of a call of a participant that begins. -/
def Occurrence.asks (id : String) (o : Occurrence) : Option Message :=
  o.begun?.bind fun call => if call.1 = id then some call.2 else none

@[simp] theorem Call.asks_settlement (c : Call) (id : String) : c.settlement.asks id = none := by
  rw [Occurrence.asks, Call.begun?_settlement]
  rfl

/-- The messages of the calls of a participant are those of all calls that name it. -/
theorem Occurrence.filter_begun (id : String) (os : List Occurrence) :
    (os.filterMap (·.begun?)).filter (·.1 = id) =
      (os.filterMap (·.asks id)).map fun m => (id, m) := by
  rw [List.filter_filterMap, List.map_filterMap]
  refine List.filterMap_congr fun o _ => ?_
  cases hbegun : o.begun? with
  | none => rw [asks, hbegun]; rfl
  | some call =>
    obtain ⟨name, m⟩ := call
    by_cases hname : name = id <;> simp [asks, hbegun, Option.filter, hname]

namespace Conduct

variable (k : Conduct)

/-! ## The participant alone -/

/-- A call of the participant that nobody else has to do with. -/
def call (message : Message) : Routine Share CallRecord := fun c share =>
  ((k.pace share.calls message).forM Routine.delay >>= fun _ =>
      pure ⟨k.id, message, k.answer share.calls message⟩)
    c { share with calls := share.calls + 1, asked := share.asked ++ [message] }

/-- The share of the participant after a round in which it is called in the messages given. -/
def round (messages : List Message) (share : Share) : Share :=
  ((Routine.together Share.settle (messages.map k.call)).runFrom (.start, share)).2.2

/-! ## The participant among others -/

/-- A scene of a run that began with the books given shows the share of the participant. -/
structure Shows (r₀ : RunState) (s : Scene) (share : Share) : Prop where
  going : s.1.cancelled = false
  calls : s.1.tally k.seat = share.calls
  books : ∃ calls log, r₀.Gains log calls s.2 ∧
    (∀ c ∈ calls, c.dispatch.message.recipient = some c.id) ∧
    log.filterMap (·.asks k.id) = share.asked ∧
    (calls.filter (·.id = k.id)).map (·.record) = share.done

variable {k} {r₀ : RunState} {s s' : Scene} {share : Share}

/-- What the share gains when the books do. -/
theorem Shows.gains {log : List Occurrence} {calls : List Call} (h : k.Shows r₀ s share)
    (s' : Scene) (hgain : s.2.Gains log calls s'.2) (hgoing : s'.1.cancelled = false)
    (haddressed : ∀ c ∈ calls, c.dispatch.message.recipient = some c.id) :
    k.Shows r₀ s' ⟨s'.1.tally k.seat, share.asked ++ log.filterMap (·.asks k.id),
      share.done ++ (calls.filter (·.id = k.id)).map (·.record)⟩ := by
  obtain ⟨calls₀, log₀, hgain₀, haddressed₀, hasked, hdone⟩ := h.books
  refine ⟨hgoing, rfl, calls₀ ++ calls, log₀ ++ log, hgain₀.trans hgain, ?_, ?_, ?_⟩
  · intro c hc
    rcases List.mem_append.mp hc with hc | hc
    · exact haddressed₀ c hc
    · exact haddressed c hc
  · rw [List.filterMap_append, hasked]
  · rw [List.filter_append, List.map_append, hdone]

/-- Nothing that concerns the participant has happened. -/
theorem Shows.kept {log : List Occurrence} {calls : List Call} (h : k.Shows r₀ s share)
    (hgain : s.2.Gains log calls s'.2) (hgoing : s'.1.cancelled = false)
    (htally : s'.1.tally k.seat = s.1.tally k.seat)
    (haddressed : ∀ c ∈ calls, c.dispatch.message.recipient = some c.id)
    (hlog : log.filterMap (·.asks k.id) = []) (hcalls : calls.filter (·.id = k.id) = []) :
    k.Shows r₀ s' share := by
  have hshows := h.gains s' hgain hgoing haddressed
  rw [hlog, hcalls, List.map_nil, List.append_nil, List.append_nil, htally, h.calls] at hshows
  exact hshows

/-- Something else than a call of the participant is written into the journal. -/
theorem Shows.noted {o : Occurrence} (h : k.Shows r₀ s share) (ho : o.beginsRound = false)
    (hasks : o.asks k.id = none) (c : Clock) : k.Shows r₀ (Run.noted o c s) share := by
  refine h.kept (gains_noted ho c s) h.going rfl (fun _ hc => by cases hc) ?_ rfl
  rw [List.filterMap_cons_none hasks]
  rfl

/-- A call that is answered is closed. -/
theorem Shows.closed (h : k.Shows r₀ s share) (call : Call) (c : Clock) :
    k.Shows r₀ (Run.noted (.callEnded call.id) c (Run.noted call.settlement c s)) share :=
  (h.noted call.beginsRound_settlement (call.asks_settlement k.id) c).noted rfl rfl c

variable (k r₀)

/-- The calls of the participant as an excerpt of a pool of calls. -/
def excerpt (ahead : Nat) : Excerpt Scene Share Settled CallRecord where
  shows := k.Shows r₀
  settle := Run.settle
  settleOwn := Share.settle
  ahead := ahead

variable {k r₀} {ahead : Nat} {d : Dispatch}

/-! ### Calls of others -/

/-- A routine of the run that does not concern the participant. -/
abbrev Spares {α : Type} (k : Conduct) (r₀ : RunState) (r : Routine Scene α) : Prop :=
  Does (k.excerpt r₀ 0).aside r

theorem spares_note {o : Occurrence} (ho : o.beginsRound = false) (hasks : o.asks k.id = none) :
    k.Spares r₀ (note o) :=
  fun c _ _ => ⟨⟨.refl c, fun _ hs => hs.noted ho hasks c⟩, trivial⟩

theorem spares_onMemory {α : Type} {r : Routine Memory α}
    (h : r.Meets Anything (.besides k.seat) (fun _ => True) fun _ _ => True) :
    k.Spares r₀ (onMemory r) := by
  have hstep : ∀ c (s : Scene) c' m, (Guarantee.besides k.seat).step c s.1 c' m →
      (k.excerpt r₀ 0).aside.step c s c' (m, s.2) := fun c s c' m hm =>
    ⟨hm.1, fun share hs => hs.kept (.refl s.2) (hm.2.2 hs.going) hm.2.1 (fun _ hc => by cases hc)
      rfl rfl⟩
  intro c s _
  refine Progress.Keeps.zoom (h c s.1 trivial) hstep ?_
  exact fun c s c' m a hm => ⟨hstep c s c' m hm.1, trivial⟩

/-- Planned calls of other participants do not concern the participant. -/
theorem aside_perform (hmember : d.member.Apart k)
    (haddressed : d.message.recipient = some d.member.id) (n : Nat) :
    (k.excerpt r₀ ahead).Aside (perform none d n) := by
  let G := (k.excerpt r₀ 0).aside
  have hother : ∀ o : Occurrence, o.begun? = some (d.member.id, d.message) →
      o.asks k.id = none := by
    intro o ho
    rw [Occurrence.asks, ho, Option.bind_some, if_neg hmember.id]
  -- what is done leaves the share alone when it is settled, too
  let Spared : Settled → Scene → Prop := fun a s => ∀ c, G.step c s c (Run.settle a s)
  have hperform : (perform none d n).Meets Anything G (fun _ => True) Spared := by
    rw [perform, invoke_bind]
    have hstopping : k.Spares r₀ (stopping none) := fun c s _ => ⟨G.refl c s, trivial⟩
    refine hstopping.bind fun stop => Routine.Meets.ite (fun _ => ?_) fun _ => ?_
    · refine (spares_note rfl rfl).bind fun _ => Routine.meets_pure fun s _ c => ?_
      exact G.refl c s
    · refine (spares_note rfl (hother _ rfl)).bind fun _ => ?_
      have hanswering : (answering d).Meets Anything G (fun _ => True)
          fun outcome s => Spared ⟨n, d, outcome⟩ s := by
        refine (spares_onMemory (hmember.handles d.message)).bind fun answer c s _ => ?_
        let call : Call := ⟨d, answer⟩
        refine ⟨⟨.refl c, fun _ hs => hs.closed call c⟩, fun c' => ⟨.refl c', fun _ hs => ?_⟩⟩
        refine hs.kept (gains_record call _) ?_ ?_ ?_ rfl ?_
        · rw [memory_settle]
          exact hs.going
        · rw [memory_settle]
        · intro x hx
          rw [List.mem_singleton.mp hx]
          exact haddressed
        · rw [List.filter_cons_of_neg]
          · rfl
          · exact fun h => hmember.id (of_decide_eq_true h)
      exact hanswering.bind fun outcome => Routine.meets_pure fun _ hs => hs
  intro c s
  refine (hperform c s trivial).mono (fun _ _ h => h) (fun _ _ _ _ h => h) ?_
  exact fun c s c' s' a h => G.trans h.1 (h.2 c')

/-! ### Calls of the participant -/

/-- A call of the participant that is done is recorded. -/
theorem Shows.settled {call : Call} (h : k.Shows r₀ s share) (hid : call.id = k.id)
    (haddressed : call.dispatch.message.recipient = some call.id) (n : Nat) :
    k.Shows r₀ (Run.settle ⟨n, call.dispatch, call.outcome⟩ s) (share.settle call.record) := by
  have hmemory := memory_settle ⟨n, call.dispatch, call.outcome⟩ s
  have hshows := h.gains (Run.settle ⟨n, call.dispatch, call.outcome⟩ s)
    (gains_record call s) (by rw [hmemory]; exact h.going) fun x hx => by
      rw [List.mem_singleton.mp hx]
      exact haddressed
  have hfilter : [call].filter (·.id = k.id) = [call] :=
    List.filter_cons_of_pos (decide_eq_true hid)
  rw [hmemory, h.calls, hfilter, List.filterMap_nil, List.append_nil] at hshows
  exact hshows

/-- A call of the participant once it has begun: among others it goes on and ends as it does
alone. -/
theorem same_answering (hid : d.member.id = k.id)
    (haddressed : d.message.recipient = some d.member.id) (n : Nat)
    {answer : Except String Message} {waits : List Nat} {c c' : Clock} {m : Memory} {r : RunState}
    {p : Progress Memory (Except String Message)} (hpaces : p.Paces waits c)
    (hanswers : p.Upholds Anything (.besides k.seat) (fun a _ => a = answer) c m)
    (hclock : c.timer = c'.timer + ahead) (hshows : k.Shows r₀ (m, r) share) :
    (k.excerpt r₀ ahead).Same c c'
      (((p.zoom Prod.fst (fun m s => (m, s.2)) ((m, r) : Scene)).andThen
        fun a => closing ⟨d, a⟩).andThen fun outcome => (pure ⟨n, d, outcome⟩ : Routine Scene _))
      ((waits.forM Routine.delay >>= fun _ => (pure ⟨k.id, d.message, answer⟩ : Routine Share _))
        c' share) := by
  have hkept : ∀ {c₀ c : Clock} {m m' : Memory} {r : RunState} {share : Share},
      (Guarantee.besides k.seat).step c₀ m c m' → k.Shows r₀ (m, r) share →
      k.Shows r₀ (m', r) share := fun hstep hs =>
    hs.kept (.refl _) (hstep.2.2 hs.going) hstep.2.1 (fun _ hc => by cases hc) rfl rfl
  induction hpaces generalizing c' m r share with
  | @done c₀ c m' a =>
    obtain ⟨hstep, rfl⟩ := hanswers
    let call : Call := ⟨d, a⟩
    have hrecord : call.record = ⟨k.id, d.message, a⟩ :=
      congrArg (fun id => CallRecord.mk id d.message a) hid
    have hid' : call.id = k.id := hid
    have hsettled := ((hkept hstep hshows).closed call c).settled hid' haddressed n
    rw [hrecord] at hsettled
    exact .done hstep.1 (.refl c') hsettled
  | zero _ ih => exact ih hanswers hclock hshows
  | @wait ms waits c₀ w c m' p' hdue hfresh hrest ih =>
    obtain ⟨hstep, hrest⟩ := hanswers
    have hlater := hfresh.due
    obtain ⟨j, rfl⟩ : ∃ j, ms = j + 1 := ⟨ms - 1, by omega⟩
    have hlater' : c'.timer < c'.timer + (j + 1) := by omega
    have hdue' : w.due = c'.timer + (j + 1) + ahead := by omega
    refine .waiting hstep.1 ⟨rfl, Nat.le_succ _⟩ hfresh ⟨hlater', Nat.le_refl _, Nat.lt_succ_self _⟩
      hdue' (hkept hstep hshows) fun e u e' v hclock hshows => ?_
    exact ih e u.1 (hrest e u.1 trivial) hclock hshows

/-- A planned call of the participant begins: its number, and with it its answer and its waits, are
the same among others and alone. -/
theorem cites_perform (hmember : d.member.Follows k)
    (haddressed : d.message.recipient = some d.member.id) (n : Nat) :
    (k.excerpt r₀ ahead).Cites (perform none d n) (k.call d.message) := by
  intro c s c' share hclock hs
  let begun := Run.noted (.callBegun d.member.id d.message) c s
  have hgo : (s.1.cancelled || Deadline.passed none c.now) = false := by
    rw [hs.going]
    rfl
  have hperform : perform none d n c s =
      ((onMemory (d.member.handle d.message) c begun).andThen fun a => closing ⟨d, a⟩).andThen
        fun outcome => (pure ⟨n, d, outcome⟩ : Routine Scene _) := by
    rw [perform, invoke_bind]
    simp only [Routine.bind_apply, stopping, Progress.andThen, hgo, Bool.false_eq_true, if_false]
    rfl
  -- the step that the call is in may be counted from where the call has been counted
  have hzoom : onMemory (d.member.handle d.message) c begun =
      (d.member.handle d.message c s.1).zoom Prod.fst (fun m s => (m, s.2))
        ((s.1.counted k.seat, begun.2) : Scene) := by
    rw [onMemory, Routine.zoom]
    refine Progress.zoom_congr (fun _ => ?_) _
    rfl
  have hbegun : k.Shows r₀ (s.1.counted k.seat, begun.2)
      { share with calls := share.calls + 1, asked := share.asked ++ [d.message] } := by
    have hasks : [Occurrence.callBegun d.member.id d.message].filterMap (·.asks k.id) =
        [d.message] := by
      refine List.filterMap_cons_some ?_
      exact if_pos hmember.id
    have hnoted : s.2.Gains [.callBegun d.member.id d.message] [] begun.2 := gains_noted rfl c s
    have hgains := hs.gains (s.1.counted k.seat, begun.2) hnoted
      ((Memory.cancelled_setMember _ _ s.1).trans hs.going) fun _ hc => by cases hc
    rw [Memory.tally_counted, if_pos rfl, hs.calls, hasks, List.filter_nil, List.map_nil,
      List.append_nil] at hgains
    exact hgains
  rw [hperform, hzoom]
  refine same_answering hmember.id haddressed n ?_ ?_ hclock hbegun
  · rw [← hs.calls]
    exact hmember.paces d.message c s.1
  · rw [← hs.calls]
    exact hmember.answers d.message c s.1

/-! ### Rounds -/

/-- The message of a planned call of the participant. -/
def message? (k : Conduct) (d : Dispatch) : Option Message :=
  if d.member.id = k.id then some d.message else none

/-- Each of the members is known to be the participant or another one. -/
def Places (k : Conduct) (members : List Member) : Prop :=
  ∀ m ∈ members, m.Follows k ∨ m.Apart k

variable {members : List Member} {plan : List Dispatch}

/-- Among the routines of a plan are those of the participant. -/
theorem among_tasks (hmembers : k.Places members) (hplan : ∀ d ∈ plan, d.For members) :
    Among (k.excerpt r₀ ahead).Aside (k.excerpt r₀ ahead).Cites (tasks none plan)
      ((plan.filterMap k.message?).map k.call) := by
  rw [tasks]
  generalize 0 = n
  induction plan generalizing n with
  | nil => exact .nil
  | cons d plan ih =>
    obtain ⟨hmember, haddressed⟩ := hplan d List.mem_cons_self
    have hrest := ih (fun d' hd' => hplan d' (List.mem_cons_of_mem d hd')) (n + 1)
    rw [List.zipIdx_cons, List.map_cons]
    rcases hmembers d.member hmember with hfollows | hapart
    · have hasked : k.message? d = some d.message := if_pos hfollows.id
      rw [List.filterMap_cons_some hasked]
      exact .matched (cites_perform hfollows haddressed n) hrest
    · have hnone : k.message? d = none := if_neg hapart.id
      rw [List.filterMap_cons_none hnone]
      exact .aside (aside_perform hapart haddressed n) hrest

/-- **The share that a round leaves** is the one that it would leave if nobody else were called. -/
theorem Shows.dispatchRound {x : Moment Scene} (hs : k.Shows r₀ x.2 share)
    (hmembers : k.Places members) (hplan : ∀ d ∈ plan, d.For members) :
    k.Shows r₀ ((Run.dispatchRound none plan).runFrom x).2.2
      (k.round (plan.filterMap k.message?) share) := by
  have hround : ((Run.dispatchRound none plan).runFrom x).2 =
      ((Routine.together Run.settle (tasks none plan)).runFrom x).2 := by
    rw [Run.dispatchRound, Routine.runFrom_bind, Routine.runFrom_pure]
  rw [hround]
  exact Excerpt.shows_together (E := k.excerpt r₀ x.1.timer) (among_tasks hmembers hplan)
    (Nat.zero_add x.1.timer).symm hs

end Conduct

end Ensemble
