import Ensemble.Proofs.Routine.Pool
import Ensemble.Proofs.Run.Books

/-!
# What the operations of a run do

Each operation of a run has one specification here: from a run that has gathered `r₀`, what has it
gathered when the operation is over? A `Regime` is a guarantee that the operations respect, as
long as the participants do: it leaves open what is guaranteed, so one walk through the patterns
serves every guarantee. While an operation waits, others may change the memory and time may pass,
but nobody else writes into the books of the run.
-/

namespace Ensemble

namespace Occurrence

/-- Whether a round or a call begins. -/
def begins : Occurrence → Bool
  | roundBegun _ | callBegun _ _ => true
  | _ => false

/-- Whether a round or a call is forgone. -/
def forgoes : Occurrence → Bool
  | roundRefused _ | callSkipped _ _ => true
  | _ => false

theorem forgoes_of_skipped? {o : Occurrence} {x : String × Message} (h : o.skipped? = some x) :
    o.forgoes = true := by
  cases o <;> first | rfl | cases h

end Occurrence

/-- A round or a call has been forgone. -/
def RunState.Forgone (r : RunState) : Prop := ∃ o ∈ r.occurrences, o.forgoes = true

theorem RunState.Forgone.gains {log : List Occurrence} {calls : List Call} {r r' : RunState}
    (h : r.Forgone) (hgain : r.Gains log calls r') : r'.Forgone := by
  obtain ⟨o, ho, hforgoes⟩ := h
  refine ⟨o, ?_, hforgoes⟩
  rw [hgain.occurrences]
  exact List.mem_append_left log ho

/-- What is written down as forgone has been forgone. -/
theorem RunState.Gains.forgone {log : List Occurrence} {calls : List Call} {r r' : RunState}
    (h : r.Gains log calls r') {o : Occurrence} (ho : o ∈ log) (hforgoes : o.forgoes = true) :
    r'.Forgone := by
  refine ⟨o, ?_, hforgoes⟩
  rw [h.occurrences]
  exact List.mem_append_right _ ho

/-- What has been forgone stays in the journal. -/
theorem RunState.Forgone.grows {r r' : RunState} (h : r.Forgone)
    (hjournal : r.journal.toList <+: r'.journal.toList) : r'.Forgone := by
  obtain ⟨o, ho, hforgoes⟩ := h
  exact ⟨o, (hjournal.map (·.occurrence)).subset ho, hforgoes⟩

namespace Entry

/-- Whether the run had to stop at the moment of the entry. -/
def stopped (deadline : Deadline) (e : Entry) : Bool := e.cancelled || deadline.passed e.moment

/-- Rounds and calls begin only while the run may go on, and are forgone only when it has to
stop. -/
structure Permitted (deadline : Deadline) (e : Entry) : Prop where
  begins : e.occurrence.begins = true → e.stopped deadline = false
  forgoes : e.occurrence.forgoes = true → e.stopped deadline = true

variable {deadline : Deadline} {e : Entry}

theorem permitted_of_begins (hf : e.occurrence.forgoes = false)
    (h : e.stopped deadline = false) : e.Permitted deadline :=
  ⟨fun _ => h, fun hforgoes => absurd (hf.symm.trans hforgoes) Bool.false_ne_true⟩

theorem permitted_of_forgoes (hb : e.occurrence.begins = false)
    (h : e.stopped deadline = true) : e.Permitted deadline :=
  ⟨fun hbegins => absurd (hb.symm.trans hbegins) Bool.false_ne_true, fun _ => h⟩

/-- What neither begins nor forgoes anything is always permitted. -/
theorem permitted_of_neither (hb : e.occurrence.begins = false)
    (hf : e.occurrence.forgoes = false) : e.Permitted deadline :=
  ⟨fun hbegins => absurd (hb.symm.trans hbegins) Bool.false_ne_true,
    fun hforgoes => absurd (hf.symm.trans hforgoes) Bool.false_ne_true⟩

end Entry

/-- If the run never had to stop, nothing was forgone. -/
theorem RunState.not_forgone {deadline : Deadline} {r : RunState}
    (hpermitted : ∀ e ∈ r.journal.toList, e.Permitted deadline)
    (hstopped : ∀ e ∈ r.journal.toList, e.stopped deadline = false) : ¬r.Forgone := by
  rintro ⟨o, ho, hforgoes⟩
  obtain ⟨e, he, rfl⟩ := List.mem_map.mp ho
  have hstop := (hpermitted e he).forgoes hforgoes
  simp [hstopped e he] at hstop

namespace Run

/-- The journal's entry of an occurrence. -/
def entry (o : Occurrence) (c : Clock) (s : Scene) : Entry := ⟨o, c.now, s.1.cancelled⟩

/-- The scene with one more entry in the journal. -/
def noted (o : Occurrence) (c : Clock) (s : Scene) : Scene :=
  (s.1, { s.2 with journal := s.2.journal.push (entry o c s) })

theorem gains_noted {o : Occurrence} (ho : o.beginsRound = false) (c : Clock) (s : Scene) :
    RunState.Gains [o] [] s.2 (noted o c s).2 := by
  constructor <;> simp [noted, RunState.occurrences, entry, ho]

/-- The answer to a call is written down, and its end. -/
theorem gains_closing (call : Call) (c : Clock) (s : Scene) :
    RunState.Gains [call.settlement, .callEnded call.id] [] s.2
      (noted (.callEnded call.id) c (noted call.settlement c s)).2 :=
  (gains_noted call.beginsRound_settlement c s).trans (gains_noted rfl c _)

theorem gains_roundBegun (round : Nat) (c : Clock) (s : Scene) :
    RunState.Gains [.roundBegun round] [] s.2
      (noted (.roundBegun round) c (s.1, { s.2 with rounds := s.2.rounds + 1 })).2 := by
  constructor <;> simp [noted, RunState.occurrences, entry, Occurrence.beginsRound]

/-- A guarantee that all operations of a run with the deadline given keep, and that time keeps
too. -/
structure Regime (deadline : Deadline) extends Guarantee Scene where
  note : ∀ {o c s}, (entry o c s).Permitted deadline → step c s c (noted o c s)
  gather : ∀ {c m r r'}, r'.journal = r.journal → step c (m, r) c (m, r')
  elapse : ∀ c s due, step c s (c.advance due) s

/-- A regime that whoever holds the token keeps too. -/
class Regime.Open {deadline : Deadline} (K : Regime deadline) : Prop where
  cancel : ∀ c m r, K.step c (m, r) c (m.cancel, r)

/-- Nobody but the run itself writes into its books. -/
def Untouched (s s' : Scene) : Prop := s'.2 = s.2

variable {deadline : Deadline} {K : Regime deadline}

/-- What the guarantee of a regime says of work on the memory alone. -/
def Regime.memory {deadline : Deadline} (K : Regime deadline) : Guarantee Memory where
  step c m c' m' := ∀ r, K.step c (m, r) c' (m', r)
  refl _ _ _ := K.refl _ _
  trans h h' r := K.trans (h r) (h' r)

end Run

/-- The participant keeps to the regime, whatever it is asked. -/
def Member.Within {deadline : Deadline} (m : Member) (K : Run.Regime deadline) : Prop :=
  ∀ message, (m.handle message).Meets Anything K.memory (fun _ => True) fun _ _ => True

namespace Run

variable {deadline : Deadline} {K : Regime deadline} {α β : Type}

/-- A routine whose steps all keep to a regime, wherever it begins. -/
abbrev Holds (K : Regime deadline) (r : Routine Scene α) : Prop :=
  r.Meets Untouched K.toGuarantee (fun _ => True) fun _ _ => True

theorem holds_note {o : Occurrence} (hb : o.begins = false) (hf : o.forgoes = false) :
    Holds K (note o) :=
  fun _ _ _ => ⟨K.note (Entry.permitted_of_neither hb hf), trivial⟩

theorem holds_gather {f : RunState → RunState} (hf : ∀ r, (f r).journal = r.journal) :
    Holds K (Routine.modify fun s => (s.1, f s.2)) :=
  Routine.meets_modify fun _ s _ => ⟨K.gather (hf s.2), trivial⟩

theorem holds_beginRound (round : Nat) : Holds K (beginRound deadline round) := by
  intro c s _
  simp only [beginRound, Routine.bind_apply, stopping, Progress.andThen]
  split
  · next hstop => exact ⟨K.note (Entry.permitted_of_forgoes rfl hstop), trivial⟩
  · next hstop =>
    let s₁ : Scene := (s.1, { s.2 with rounds := s.2.rounds + 1 })
    have hcounted : K.step c s c s₁ := K.gather rfl
    have hnoted : K.step c s₁ c (noted (.roundBegun round) c s₁) :=
      K.note (Entry.permitted_of_begins rfl (eq_false_of_ne_true hstop))
    exact ⟨K.trans hcounted hnoted, trivial⟩

theorem holds_endRound (round : Nat) : Holds K (endRound round) := holds_note rfl rfl

theorem holds_recordMessage (m : Message) : Holds K (recordMessage m) :=
  holds_gather (f := fun r => { r with messages := r.messages.push m }) fun _ => rfl

/-! ## A single call -/

/-- The end of a call: its answer and its end go into the journal. -/
def closing (call : Call) : Routine Scene Outcome := fun c s =>
  .done c (noted (.callEnded call.id) c (noted call.settlement c s)) call.outcome

/-- A call once it has begun. -/
def answering (d : Dispatch) : Routine Scene Outcome :=
  onMemory (d.member.handle d.message) >>= fun answer => closing ⟨d, answer⟩

/-- A call is skipped, or it begins and is answered. -/
theorem invoke_bind (deadline : Deadline) (d : Dispatch) (f : Outcome → Routine Scene α) :
    (invoke deadline d.member d.message >>= f) = stopping deadline >>= fun stop =>
      if stop then note (.callSkipped d.member.id d.message) >>= fun _ => f .skipped
      else note (.callBegun d.member.id d.message) >>= fun _ => answering d >>= f := by
  have hinvoke : invoke deadline d.member d.message = stopping deadline >>= fun stop =>
      if stop then note (.callSkipped d.member.id d.message) >>= fun _ => pure .skipped
      else note (.callBegun d.member.id d.message) >>= fun _ => answering d := by
    refine congrArg (stopping deadline >>= ·) (funext fun stop => ?_)
    cases stop with
    | true => rfl
    | false =>
      refine congrArg (note (.callBegun d.member.id d.message) >>= ·) (funext fun _ => ?_)
      refine congrArg (onMemory (d.member.handle d.message) >>= ·) (funext fun answer => ?_)
      cases answer <;> rfl
  rw [hinvoke, bind_assoc]
  refine congrArg (stopping deadline >>= ·) (funext fun stop => ?_)
  cases stop with
  | true => simp
  | false => simp

/-- A routine that is in the middle of a call: it leaves the books alone until the call is answered,
then writes down the answer and the end of the call, and is done in the same step. `value` is what
it makes of the outcome. -/
def Underway (K : Regime deadline) (d : Dispatch) (value : Outcome → α) (r : Routine Scene α) :
    Prop :=
  ∀ c s, (r c s).Keeps Anything (fun c s c' s' => K.step c s c' s' ∧ s'.2 = s.2)
    (fun c s c' s' a => K.step c s c' s' ∧ ∃ call : Call, call.dispatch = d ∧
      a = value call.outcome ∧ s'.2.blackboard = s.2.blackboard ∧
      RunState.Gains [call.settlement, .callEnded call.id] [] s.2 s'.2) c s

theorem underway_answering {d : Dispatch} (hd : d.member.Within K) :
    Underway K d id (answering d) := by
  intro c s
  refine (Progress.keeps_andThen _ _).mpr ?_
  have hhandle := hd d.message c s.1 trivial
  refine Progress.Keeps.zoom hhandle ?_ ?_
  · intro c s c' m h
    exact ⟨h s.2, rfl⟩
  · intro c s c' m answer h
    let call : Call := ⟨d, answer⟩
    refine ⟨?_, call, rfl, rfl, rfl, gains_closing call c' (m, s.2)⟩
    have hpermitted : (entry call.settlement c' (m, s.2)).Permitted deadline := by
      cases answer <;> exact Entry.permitted_of_neither rfl rfl
    exact K.trans (h.1 s.2)
      (K.trans (K.note hpermitted) (K.note (Entry.permitted_of_neither rfl rfl)))

theorem Underway.map {d : Dispatch} {value : Outcome → α} {r : Routine Scene α} (f : α → β)
    (h : Underway K d value r) :
    Underway K d (fun o => f (value o)) (r >>= fun a => pure (f a)) := by
  intro c s
  refine (Progress.keeps_andThen _ _).mpr ?_
  refine (h c s).mono (fun _ _ h => h) (fun _ _ _ _ h => h) ?_
  rintro c₀ s₀ c' s' a ⟨hstep, call, hd, rfl, hrest⟩
  exact ⟨hstep, call, hd, rfl, hrest⟩

/-- A call that is done is recorded, and nothing else happens. -/
theorem gains_record (call : Call) (s : Scene) :
    RunState.Gains [] [call] s.2
      (record call.id call.dispatch.message call.outcome s).2 := by
  constructor <;> simp [record, RunState.occurrences, Call.exchange]

theorem blackboard_record (call : Call) (s : Scene) :
    (record call.id call.dispatch.message call.outcome s).2.blackboard = s.2.blackboard := by
  simp [record]

/-- Recording a call changes nothing but the books. -/
theorem memory_settle (a : Settled) (s : Scene) : (settle a s).1 = s.1 := by
  unfold settle record
  split <;> rfl

theorem step_record (K : Regime deadline) (call : Call) (c : Clock) (s : Scene) :
    K.step c s c (record call.id call.dispatch.message call.outcome s) := by
  simp only [record, Call.reply?_outcome]
  exact K.gather rfl

/-! ## Calls side by side -/

/-- The routines of a pool of calls: `left` are the calls that are not over, each with its position
in the plan, and `pending` those of them that are underway. -/
inductive Staffed (K : Regime deadline) : List (Routine Scene Settled) →
    (left : List (Dispatch × Nat)) → (pending : List Dispatch) → Prop where
  | nil : Staffed K [] [] []
  | planned {members left pending} (d : Dispatch) (n : Nat) : Staffed K members left pending →
      Staffed K (perform deadline d n :: members) ((d, n) :: left) pending
  | underway {members left pending d r} (n : Nat) : Underway K d (fun o => ⟨n, d, o⟩) r →
      Staffed K members left pending → Staffed K (r :: members) ((d, n) :: left) (d :: pending)

theorem Staffed.perm {left : List (Dispatch × Nat)} {pending : List Dispatch}
    {members members' : List (Routine Scene Settled)} (hp : members.Perm members')
    (h : Staffed K members left pending) :
    ∃ left' pending', left.Perm left' ∧ pending.Perm pending' ∧
      Staffed K members' left' pending' := by
  induction hp generalizing left pending with
  | nil => exact ⟨left, pending, .refl _, .refl _, h⟩
  | cons r _ ih =>
    cases h with
    | planned d n h =>
      obtain ⟨left', pending', hleft, hpending, h'⟩ := ih h
      exact ⟨_, pending', hleft.cons _, hpending, .planned d n h'⟩
    | underway n hr h =>
      obtain ⟨left', pending', hleft, hpending, h'⟩ := ih h
      exact ⟨_, _, hleft.cons _, hpending.cons _, .underway n hr h'⟩
  | swap r t l =>
    cases h with
    | planned d n h =>
      cases h with
      | planned d' m h => exact ⟨_, _, .swap _ _ _, .refl _, .planned d' m (.planned d n h)⟩
      | underway m hr h => exact ⟨_, _, .swap _ _ _, .refl _, .underway m hr (.planned d n h)⟩
    | underway n hr h =>
      cases h with
      | planned d' m h => exact ⟨_, _, .swap _ _ _, .refl _, .planned d' m (.underway n hr h)⟩
      | underway m hr' h =>
        exact ⟨_, _, .swap _ _ _, .swap _ _ _, .underway m hr' (.underway n hr h)⟩
  | trans _ _ ih ih' =>
    obtain ⟨left', pending', hleft, hpending, h'⟩ := ih h
    obtain ⟨left'', pending'', hleft', hpending', h''⟩ := ih' h'
    exact ⟨left'', pending'', hleft.trans hleft', hpending.trans hpending', h''⟩

/-- What a plan asks for, when some of its calls are over: the rest and these make up the plan. -/
def Remaining (plan : List Dispatch) (left : List (Dispatch × Nat)) (done : List Settled) : Prop :=
  (left ++ done.map fun a => (a.dispatch, a.position)).Perm plan.zipIdx

theorem Remaining.member {plan : List Dispatch} {left : List (Dispatch × Nat)}
    {done : List Settled} {d : Dispatch} {n : Nat} (h : Remaining plan ((d, n) :: left) done) :
    d ∈ plan :=
  List.fst_mem_of_mem_zipIdx (h.mem_iff.mp List.mem_cons_self)

theorem Remaining.perm {plan : List Dispatch} {left left' : List (Dispatch × Nat)}
    {done : List Settled} (h : Remaining plan left done) (hp : left.Perm left') :
    Remaining plan left' done :=
  (hp.symm.append_right _).trans h

/-- A call is over. -/
theorem Remaining.settled {plan : List Dispatch} {left : List (Dispatch × Nat)}
    {done : List Settled} {a : Settled}
    (h : Remaining plan ((a.dispatch, a.position) :: left) done) :
    Remaining plan left (done ++ [a]) := by
  unfold Remaining
  rw [List.map_append, ← List.append_assoc]
  exact (List.perm_append_singleton _ _).trans h

/-- What has been written down of the calls that are over, those in `done`, in this order: the log
has those that were made, with those in `pending` underway, and those that were skipped. -/
structure Logged (done : List Settled) (pending : List Dispatch) (log : List Occurrence) :
    Prop where
  calls : CallLog pending (done.filterMap (·.call?)) log
  skips : log.filterMap (·.skipped?) = done.filterMap (·.skipped?)

namespace Logged

variable {done : List Settled} {pending pending' : List Dispatch} {log : List Occurrence}

theorem perm (h : Logged done pending log) (hp : pending.Perm pending') :
    Logged done pending' log :=
  ⟨.perm hp h.calls, h.skips⟩

/-- A call begins. -/
theorem begun (h : Logged done pending log) (d : Dispatch) :
    Logged done (d :: pending) (log ++ [.callBegun d.member.id d.message]) where
  calls := .begun d h.calls
  skips := by
    rw [List.filterMap_append, h.skips]
    exact List.append_nil _

/-- A call is skipped. -/
theorem skipped (h : Logged done pending log) (d : Dispatch) (n : Nat) :
    Logged (done ++ [⟨n, d, .skipped⟩]) pending
      (log ++ [.callSkipped d.member.id d.message]) where
  calls := by simpa [List.filterMap_append, Settled.call?] using CallLog.skipped d h.calls
  skips := by
    rw [List.filterMap_append, List.filterMap_append, h.skips]
    rfl

/-- A call is answered. -/
theorem settled (c : Call) (n : Nat) (h : Logged done (c.dispatch :: pending) log) :
    Logged (done ++ [⟨n, c.dispatch, c.outcome⟩]) pending
      (log ++ [c.settlement, .callEnded c.id]) where
  calls := by simpa [List.filterMap_append] using CallLog.settled c h.calls
  skips := by
    have hlog : [c.settlement, .callEnded c.id].filterMap (·.skipped?) = [] := by
      rw [List.filterMap_cons, Call.skipped?_settlement]
      rfl
    have hdone : [Settled.mk n c.dispatch c.outcome].filterMap (·.skipped?) = [] := by
      rw [List.filterMap_cons, Settled.skipped?_outcome]
      rfl
    rw [List.filterMap_append, List.filterMap_append, h.skips, hlog, hdone]

/-- A call that was not made shows in the log. -/
theorem forgoes (h : Logged done pending log) {a : Settled} (ha : a ∈ done)
    (hcall : a.call? = none) : ∃ o ∈ log, o.forgoes = true := by
  have hskipped : a.dispatch.address ∈ log.filterMap (·.skipped?) := by
    rw [h.skips]
    exact List.mem_filterMap.mpr ⟨a, ha, Settled.skipped?_of_call? hcall⟩
  obtain ⟨o, ho, haddress⟩ := List.mem_filterMap.mp hskipped
  exact ⟨o, ho, Occurrence.forgoes_of_skipped? haddress⟩

end Logged

/-- The books of a pool of calls that began with `r₀`: what has been gained is the log of the calls
that are over, and those that are pending in it are underway. `settled` lists them latest first. -/
def Balanced (K : Regime deadline) (plan : List Dispatch) (r₀ : RunState)
    (members : List (Routine Scene Settled)) (settled : List Settled) (s : Scene) : Prop :=
  ∃ left pending log, Staffed K members left pending ∧ Remaining plan left settled.reverse ∧
    Logged settled.reverse pending log ∧
    r₀.Gains log (settled.reverse.filterMap (·.call?)) s.2 ∧ s.2.blackboard = r₀.blackboard

/-- The turn of a call underway: it goes on waiting, or it is answered and recorded. -/
theorem turn_underway {plan pending : List Dispatch} {r₀ : RunState} {log : List Occurrence}
    {left : List (Dispatch × Nat)} {others : List (Routine Scene Settled)} {settled : List Settled}
    {r : Routine Scene Settled} {d : Dispatch} {n : Nat} {c : Clock} {s : Scene}
    (hr : Underway K d (fun o => ⟨n, d, o⟩) r) (hstaff : Staffed K others left pending)
    (hrest : Remaining plan ((d, n) :: left) settled.reverse)
    (hlog : Logged settled.reverse (d :: pending) log)
    (hgain : r₀.Gains log (settled.reverse.filterMap (·.call?)) s.2)
    (hboard : s.2.blackboard = r₀.blackboard) :
    Routine.Pool.Turn K.toGuarantee settle (Balanced K plan r₀) others settled c s (r c s) := by
  have hkeeps := hr c s
  cases hp : r c s with
  | waiting w c' s' k =>
    rw [hp] at hkeeps
    obtain ⟨⟨hstep, hbooks⟩, hresume⟩ := hkeeps
    refine ⟨hstep, (d, n) :: left, d :: pending, log,
      .underway n (fun c s => hresume c s trivial) hstaff, hrest, hlog, ?_, ?_⟩
    · rw [hbooks]; exact hgain
    · rw [hbooks]; exact hboard
  | done c' s' a =>
    rw [hp] at hkeeps
    obtain ⟨hstep, call, rfl, rfl, hboard', hgain'⟩ := hkeeps
    refine ⟨K.trans hstep (step_record K call c' s'), left, pending,
      log ++ [call.settlement, .callEnded call.id], hstaff, ?_, ?_, ?_, ?_⟩
    · rw [List.reverse_cons]
      exact hrest.settled
    · rw [List.reverse_cons]
      exact hlog.settled call n
    · have hrecord := (hgain.trans hgain').trans (gains_record call s')
      rw [List.append_nil, List.append_nil] at hrecord
      simp only [List.reverse_cons, List.filterMap_append, List.filterMap_cons, List.filterMap_nil,
        Settled.call?_outcome]
      exact hrecord
    · exact (blackboard_record call s').trans (hboard'.trans hboard)

/-- No interleaving of the calls of a plan brings the books out of balance. -/
theorem balanced_invariant (K : Regime deadline) (plan : List Dispatch) (r₀ : RunState)
    (hplan : ∀ d ∈ plan, d.member.Within K) :
    Routine.Pool.Invariant Untouched K.toGuarantee settle (Balanced K plan r₀) where
  perm := by
    rintro members members' settled s hp ⟨left, pending, log, hstaff, hrest, hlog, hbooks⟩
    obtain ⟨left', pending', hleft, hpending, hstaff'⟩ := hstaff.perm hp
    exact ⟨left', pending', log, hstaff', hrest.perm hleft, hlog.perm hpending, hbooks⟩
  rely := by
    rintro members settled s s' hs ⟨left, pending, log, hstaff, hrest, hlog, hgain, hboard⟩
    refine ⟨left, pending, log, hstaff, hrest, hlog, ?_, ?_⟩
    · rw [hs]; exact hgain
    · rw [hs]; exact hboard
  turn := by
    rintro r others settled c s ⟨left, pending, log, hstaff, hrest, hlog, hgain, hboard⟩
    cases hstaff with
    | underway n hr hstaff => exact turn_underway hr hstaff hrest hlog hgain hboard
    | planned d n hstaff =>
      rw [perform, invoke_bind]
      simp only [Routine.bind_apply, stopping, Progress.andThen]
      split
      · next hstop =>
        have hnoted := hgain.trans (gains_noted (o := .callSkipped d.member.id d.message) rfl c s)
        refine ⟨K.note (Entry.permitted_of_forgoes rfl hstop), _, pending,
          log ++ [.callSkipped d.member.id d.message], hstaff, ?_, ?_, ?_, hboard⟩
        · rw [List.reverse_cons]
          exact Remaining.settled (a := ⟨n, d, .skipped⟩) hrest
        · rw [List.reverse_cons]
          exact hlog.skipped d n
        · rw [List.reverse_cons, List.filterMap_append]
          exact hnoted
      · next hstop =>
        have hnoted := hgain.trans (gains_noted (o := .callBegun d.member.id d.message) rfl c s)
        rw [List.append_nil] at hnoted
        have hunderway := (underway_answering (hplan d hrest.member)).map fun o =>
          Settled.mk n d o
        -- from here on the member takes the same turn as one that has begun before
        refine (turn_underway hunderway hstaff hrest (hlog.begun d) hnoted hboard).extend ?_
        exact K.note (Entry.permitted_of_begins rfl (eq_false_of_ne_true hstop))

/-- A planned call keeps to every regime that its participant keeps to, whatever happens while it
is underway. -/
theorem meets_perform {d : Dispatch} (hd : d.member.Within K) (n : Nat) :
    (perform deadline d n).Meets Anything K.toGuarantee (fun _ => True) fun _ _ => True := by
  intro c s _
  rw [perform, invoke_bind]
  simp only [Routine.bind_apply, stopping, Progress.andThen]
  split
  · next hstop => exact ⟨K.note (Entry.permitted_of_forgoes rfl hstop), trivial⟩
  · next hstop =>
    let s₁ := noted (.callBegun d.member.id d.message) c s
    have hbegun : K.step c s c s₁ :=
      K.note (Entry.permitted_of_begins rfl (eq_false_of_ne_true hstop))
    have hkeeps := ((underway_answering hd).map fun o => Settled.mk n d o) c s₁
    refine Progress.Upholds.extend ?_ hbegun
    exact hkeeps.mono (fun _ _ h => h) (fun _ _ _ _ h => h.1) fun _ _ _ _ _ h => ⟨h.1, trivial⟩

theorem step_settle (K : Regime deadline) (a : Settled) (c : Clock) (s : Scene) :
    K.step c s c (settle a s) := by
  unfold settle record
  split
  · exact K.refl c s
  · exact K.gather rfl

theorem staffed_tasks (K : Regime deadline) (calls : List Dispatch) (n : Nat) :
    Staffed K ((calls.zipIdx n).map fun p => perform deadline p.1 p.2) (calls.zipIdx n) [] := by
  induction calls generalizing n with
  | nil => exact .nil
  | cons d calls ih => exact .planned d n (ih (n + 1))

theorem balanced_tasks (K : Regime deadline) (plan : List Dispatch) (r₀ : RunState) :
    ∀ s : Scene, s.2 = r₀ → Balanced K plan r₀ (tasks deadline plan) [] s := by
  rintro s rfl
  refine ⟨plan.zipIdx, [], [], staffed_tasks K plan 0, ?_, ⟨.start, rfl⟩, .refl _, rfl⟩
  rw [Remaining, List.reverse_nil, List.map_nil, List.append_nil]

/-- What a round of calls has added to the books when those in `done` are over, in this order: they
are the plan, and each that was made is begun, settled and recorded. -/
structure Dealt (plan : List Dispatch) (r₀ : RunState) (done : List Settled) (r : RunState) :
    Prop where
  all : (done.map fun a => (a.dispatch, a.position)).Perm plan.zipIdx
  log : ∃ log, Logged done [] log ∧ r₀.Gains log (done.filterMap (·.call?)) r
  blackboard : r.blackboard = r₀.blackboard

namespace Dealt

variable {plan : List Dispatch} {r₀ r : RunState} {done : List Settled}

/-- Whatever is done was planned. -/
theorem planned (h : Dealt plan r₀ done r) : ∀ a ∈ done, a.dispatch ∈ plan := by
  intro a ha
  have hmem : (a.dispatch, a.position) ∈ plan.zipIdx :=
    h.all.mem_iff.mp (List.mem_map.mpr ⟨a, ha, rfl⟩)
  exact List.fst_mem_of_mem_zipIdx hmem

/-- Whatever was called was planned. -/
theorem called (h : Dealt plan r₀ done r) :
    ∀ call ∈ done.filterMap (·.call?), call.dispatch ∈ plan := by
  intro call hcall
  obtain ⟨a, ha, hsome⟩ := List.mem_filterMap.mp hcall
  rw [Settled.dispatch_of_call? hsome]
  exact h.planned a ha

end Dealt

theorem dealt_of_balanced {plan : List Dispatch} {r₀ : RunState} {settled : List Settled}
    {s : Scene} (h : Balanced K plan r₀ [] settled s) : Dealt plan r₀ settled.reverse s.2 := by
  obtain ⟨left, pending, log, hstaff, hrest, hlog, hgain, hboard⟩ := h
  cases hstaff
  exact ⟨hrest, ⟨log, hlog, hgain⟩, hboard⟩

theorem pairwise_inOrder (calls : List Settled) :
    (inOrder calls).Pairwise fun a b => a.position ≤ b.position :=
  pairwise_sorted (·.position) calls

/-- Calls that stand in the order of their positions are the only ones that sorting can come to. -/
theorem inOrder_eq {calls sorted : List Settled} (hperm : calls.Perm sorted)
    (hsorted : sorted.Pairwise fun a b => a.position < b.position) : inOrder calls = sorted :=
  eq_of_ordered (·.position) ((List.mergeSort_perm calls _).trans hperm) (pairwise_inOrder calls)
    hsorted

/-- In order, what is done is the plan. -/
theorem Dealt.inOrder_eq {plan : List Dispatch} {r₀ r : RunState} {done : List Settled}
    (h : Dealt plan r₀ done r) :
    (inOrder done).map (fun a => (a.dispatch, a.position)) = plan.zipIdx := by
  refine eq_of_ordered Prod.snd ?_ ?_ (pairwise_zipIdx plan)
  · exact ((List.mergeSort_perm done _).map _).trans h.all
  · exact List.pairwise_map.mpr (pairwise_inOrder done)

theorem meets_dispatchRound {plan : List Dispatch} (r₀ : RunState)
    (hplan : ∀ d ∈ plan, d.member.Within K) :
    (dispatchRound deadline plan).Meets Untouched K.toGuarantee (fun s => s.2 = r₀)
      fun calls s => ∃ done, calls = inOrder done ∧ Dealt plan r₀ done s.2 := by
  have htogether := Routine.meets_together (balanced_invariant K plan r₀ hplan)
    (balanced_tasks K plan r₀)
  refine Routine.Meets.bind htogether fun calls => Routine.meets_pure fun s h => ⟨calls, rfl, ?_⟩
  simpa using dealt_of_balanced h

theorem meets_dispatchBounded {plan : List Dispatch} {limit : Nat} (r₀ : RunState)
    (hlimit : 0 < limit) (hplan : ∀ d ∈ plan, d.member.Within K) :
    (dispatchBounded deadline limit plan).Meets Untouched K.toGuarantee (fun s => s.2 = r₀)
      fun calls s => Dealt plan r₀ calls s.2 := by
  have hbounded := Routine.meets_bounded (balanced_invariant K plan r₀ hplan) hlimit
    (balanced_tasks K plan r₀)
  refine hbounded.consequence (fun _ h => h) fun calls _ h => ?_
  simpa using dealt_of_balanced h

/-! ## One operation after the other -/

/-- What a routine does from any state that a run can have gathered, it does from all of them. -/
theorem meets_from {P : RunState → Prop} {r : Routine Scene α} {Q : α → Scene → Prop}
    (h : ∀ r₀, P r₀ → r.Meets Untouched K.toGuarantee (fun s => s.2 = r₀) Q) :
    r.Meets Untouched K.toGuarantee (fun s => P s.2) Q :=
  fun c s hs => h s.2 hs c s rfl

/-- A round begins and the run goes on in the middle of it, or the run has to stop and goes on
without the round. -/
theorem arrives_begin {round : Nat} {Q : Clock → Scene → α → Prop}
    {body otherwise : Routine Scene α} {c : Clock} {s : Scene}
    (hbody : (s.1.cancelled || deadline.passed c.now) = false → ∀ r,
      s.2.Gains [.roundBegun round] [] r → r.blackboard = s.2.blackboard →
        (body c (s.1, r)).Arrives Untouched K.toGuarantee Q c (s.1, r))
    (hotherwise : (s.1.cancelled || deadline.passed c.now) = true → ∀ r,
      s.2.Gains [.roundRefused round] [] r → r.blackboard = s.2.blackboard →
        (otherwise c (s.1, r)).Arrives Untouched K.toGuarantee Q c (s.1, r)) :
    ((beginRound deadline round >>= fun begun => if begun then body else otherwise) c s).Arrives
      Untouched K.toGuarantee Q c s := by
  simp only [beginRound, Routine.bind_apply, stopping, Progress.andThen]
  split
  · next hstop =>
    refine (hotherwise hstop _ (gains_noted rfl c s) rfl).extend ?_
    exact K.note (Entry.permitted_of_forgoes rfl hstop)
  · next hstop =>
    have hgo : (s.1.cancelled || deadline.passed c.now) = false := eq_false_of_ne_true hstop
    let s₁ : Scene := (s.1, { s.2 with rounds := s.2.rounds + 1 })
    have hcounted : K.step c s c s₁ := K.gather rfl
    have hnoted : K.step c s₁ c (noted (.roundBegun round) c s₁) :=
      K.note (Entry.permitted_of_begins rfl hgo)
    exact (hbody hgo _ (gains_roundBegun round c s) rfl).extend (K.trans hcounted hnoted)

/-- A round begins and the run goes on in the middle of it, or it goes on without the round. -/
theorem meets_begin {round : Nat} {P : RunState → Prop} {Q : α → Scene → Prop}
    {body otherwise : Routine Scene α}
    (hbody : ∀ r₀, P r₀ → body.Meets Untouched K.toGuarantee (fun s =>
      r₀.Gains [.roundBegun round] [] s.2 ∧ s.2.blackboard = r₀.blackboard) Q)
    (hotherwise : ∀ r₀, P r₀ → otherwise.Meets Untouched K.toGuarantee (fun s =>
      r₀.Gains [.roundRefused round] [] s.2 ∧ s.2.blackboard = r₀.blackboard) Q) :
    (beginRound deadline round >>= fun begun => if begun then body else otherwise).Meets
      Untouched K.toGuarantee (fun s => P s.2) Q :=
  fun c s hs => arrives_begin (fun _ _ hgain hboard => hbody s.2 hs c _ ⟨hgain, hboard⟩)
    fun _ _ hgain hboard => hotherwise s.2 hs c _ ⟨hgain, hboard⟩

/-- A call is made and recorded, or it is skipped, at a moment at which the run has to stop. -/
theorem arrives_call {d : Dispatch} (hd : d.member.Within K) (c : Clock) (s : Scene) :
    (call deadline d.member d.message c s).Arrives Untouched K.toGuarantee
      (fun c' s' outcome => ∃ calls log, SingleLog d calls log ∧ s.2.Gains log calls s'.2 ∧
        ((∃ call, calls = [call] ∧ outcome = call.outcome) ∨
          calls = [] ∧ outcome = .skipped ∧
            (s'.1.cancelled || deadline.passed c'.now) = true)) c s := by
  rw [call, invoke_bind]
  simp only [Routine.bind_apply, stopping, Progress.andThen]
  split
  · next hstop =>
    exact ⟨K.note (Entry.permitted_of_forgoes rfl hstop), [], _, .skipped, gains_noted rfl c s,
      .inr ⟨rfl, rfl, hstop⟩⟩
  · next hstop =>
    let s₁ := noted (.callBegun d.member.id d.message) c s
    have hbegun : RunState.Gains _ [] s.2 s₁.2 := gains_noted rfl c s
    have hstep : K.step c s c s₁ :=
      K.note (Entry.permitted_of_begins rfl (eq_false_of_ne_true hstop))
    refine Progress.Arrives.extend (s := s₁) ?_ hstep
    refine (Progress.keeps_andThen (answering d c s₁) _).mpr ?_
    -- until the call is answered the books are as they were when it began
    have hkeeps : (answering d c s₁).Keeps Untouched _ _ c s₁ :=
      (underway_answering hd c s₁).mono (fun _ _ _ => trivial) (fun _ _ _ _ h => h)
        fun _ _ _ _ _ h => h
    have hanswer := hkeeps.invariant (I := fun s => s.2 = s₁.2) rfl
      (fun _ _ hs h => hs.trans h) fun _ _ _ _ hs h => hs.2.trans h
    refine hanswer.mono (fun _ _ h => h) (fun _ _ _ _ h => h.1) ?_
    rintro c₀ s₀ c' s' a ⟨hbooks, hstep', call, rfl, rfl, -, hgain⟩
    rw [hbooks] at hgain
    exact ⟨K.trans hstep' (step_record K call c' s'), [call], _, .made call.answer,
      (hbegun.trans hgain).trans (gains_record call s'), .inl ⟨call, rfl, rfl⟩⟩

theorem meets_call {d : Dispatch} (hd : d.member.Within K) (r₀ : RunState) :
    (call deadline d.member d.message).Meets Untouched K.toGuarantee (fun s => s.2 = r₀)
      fun _ s => ∃ calls log, SingleLog d calls log ∧ RunState.Gains log calls r₀ s.2 := by
  rintro c s rfl
  exact (arrives_call hd c s).mono fun _ _ _ ⟨calls, log, hlog, hgain, _⟩ =>
    ⟨calls, log, hlog, hgain⟩

theorem holds_call {m : Member} (hm : m.Within K) (message : Message) :
    Holds K (call deadline m message) :=
  meets_from (P := fun _ => True) fun r₀ _ =>
    (meets_call (d := ⟨m, message⟩) hm r₀).consequence (fun _ h => h) fun _ _ _ => trivial

end Run

end Ensemble
