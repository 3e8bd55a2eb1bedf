import Ensemble.Proofs.Routine.Slots
import Ensemble.Proofs.Run.Rounds

/-!
# The calls of a plan, begun in its order

Of the calls of a plan, at most so many are underway at a time, and they begin in the order of the
plan. `ShiftLog` says which journals that leaves: the calls in line have not been asked for, others
are underway, and the rest are over. `keeps_dispatchBounded` says that the journals of a plan with a
limit are such, with every slot taken whenever the calls wait, and `arrives_dispatchRound` that the
calls of a round, which has room for all of them, begin in the order of their plan too.
-/

namespace Ensemble

namespace Occurrence

/-- The participant and the message of a planned call whose turn it is: it begins or is skipped. -/
def asked? : Occurrence → Option (String × Message)
  | callBegun id m | callSkipped id m => some (id, m)
  | _ => none

/-- Whether a call begins. -/
def beginsCall : Occurrence → Bool
  | callBegun _ _ => true
  | _ => false

/-- Whether a call that has begun is over. -/
def endsCall : Occurrence → Bool
  | callEnded _ => true
  | _ => false

/-- Whether a planned call is over: it has ended, or it is skipped. -/
def closesCall : Occurrence → Bool
  | callEnded _ | callSkipped _ _ => true
  | _ => false

/-- How many calls have begun in a journal and are not over. -/
def underway (log : List Occurrence) : Nat := log.countP (·.beginsCall) - log.countP (·.endsCall)

/-- How many planned calls are over in a journal. -/
def closed (log : List Occurrence) : Nat := log.countP (·.closesCall)

end Occurrence

@[simp] theorem Call.asked?_settlement (c : Call) : c.settlement.asked? = none := by
  obtain ⟨d, a⟩ := c
  cases a <;> rfl

@[simp] theorem Call.beginsCall_settlement (c : Call) : c.settlement.beginsCall = false := by
  obtain ⟨d, a⟩ := c
  cases a <;> rfl

@[simp] theorem Call.closesCall_settlement (c : Call) : c.settlement.closesCall = false := by
  obtain ⟨d, a⟩ := c
  cases a <;> rfl

@[simp] theorem Call.endsCall_settlement (c : Call) : c.settlement.endsCall = false := by
  obtain ⟨d, a⟩ := c
  cases a <;> rfl

/-- Whom a run has asked so far, and with what messages, in order: those who were called, and those
who would have been, had the run not had to stop. -/
def RunState.asked (r : RunState) : List (String × Message) := r.occurrences.filterMap (·.asked?)

namespace Run

/-- The journals of a plan whose calls begin in its order, at most `limit` of them underway at a
time: those in `line` have not been asked for, those in `going` are underway, and those in `done`
are over, in this order. -/
inductive ShiftLog (limit : Nat) (plan : List Dispatch) :
    (line going : List (Dispatch × Nat)) → (done : List Settled) → List Occurrence → Prop where
  | start : ShiftLog limit plan plan.zipIdx [] [] []
  | begun {d n line going done log} : going.length < limit →
      ShiftLog limit plan ((d, n) :: line) going done log →
      ShiftLog limit plan line ((d, n) :: going) done
        (log ++ [.callBegun d.member.id d.message])
  | skipped {d n line going done log} : ShiftLog limit plan ((d, n) :: line) going done log →
      ShiftLog limit plan line going (done ++ [⟨n, d, .skipped⟩])
        (log ++ [.callSkipped d.member.id d.message])
  | settled {line going done log} (c : Call) (n : Nat) :
      ShiftLog limit plan line ((c.dispatch, n) :: going) done log →
      ShiftLog limit plan line going (done ++ [⟨n, c.dispatch, c.outcome⟩])
        (log ++ [c.settlement, .callEnded c.id])
  | perm {line going going' done log} : going.Perm going' →
      ShiftLog limit plan line going done log → ShiftLog limit plan line going' done log

namespace ShiftLog

variable {limit : Nat} {plan : List Dispatch} {line going : List (Dispatch × Nat)}
  {done : List Settled} {log : List Occurrence}

/-- The calls in line, those underway and those that are over make up the plan. -/
theorem remaining (h : ShiftLog limit plan line going done log) :
    Remaining plan (line ++ going) done := by
  induction h with
  | start => simp [Remaining]
  | begun _ _ ih => exact ih.perm List.perm_middle.symm
  | skipped _ ih => exact ih.settled (a := ⟨_, _, .skipped⟩)
  | settled c n _ ih => exact (ih.perm List.perm_middle).settled (a := ⟨n, c.dispatch, c.outcome⟩)
  | perm hp _ ih => exact ih.perm (hp.append_left _)

theorem logged (h : ShiftLog limit plan line going done log) :
    Logged done (going.map (·.1)) log := by
  induction h with
  | start => exact ⟨.start, rfl⟩
  | @begun d n _ _ _ _ _ _ ih => exact ih.begun d
  | @skipped d n _ _ _ _ _ ih => exact ih.skipped d n
  | settled c n _ ih => exact ih.settled c n
  | perm hp _ ih => exact ih.perm (hp.map _)

/-- Calls are asked for in the order of the plan, and the rest of it is in line. -/
theorem asked (h : ShiftLog limit plan line going done log) :
    log.filterMap (·.asked?) ++ line.map (·.1.address) = plan.map (·.address) := by
  induction h with
  | start =>
    conv => rhs; rw [← List.zipIdx_map_fst 0 plan, List.map_map]
    rfl
  | begun _ _ ih | skipped _ ih =>
    rw [List.filterMap_append, List.append_assoc]
    exact ih
  | settled c n _ ih =>
    rw [List.filterMap_append, List.filterMap_cons, Call.asked?_settlement, List.append_assoc]
    exact ih
  | perm _ _ ih => exact ih

/-- There is room for those who are underway. -/
theorem room (h : ShiftLog limit plan line going done log) : going.length ≤ limit := by
  induction h with
  | start => exact Nat.zero_le _
  | begun hroom _ _ => exact hroom
  | skipped _ ih => exact ih
  | settled c n _ ih => exact Nat.le_of_succ_le ih
  | perm hp _ ih => exact hp.length_eq ▸ ih

/-- Who has begun and is not over is underway. -/
theorem balance (h : ShiftLog limit plan line going done log) :
    log.countP (·.beginsCall) = log.countP (·.endsCall) + going.length := by
  induction h with
  | start => rfl
  | begun _ _ ih =>
    rw [List.countP_append, List.countP_append, ih]
    rfl
  | skipped _ ih =>
    rw [List.countP_append, List.countP_append, ih]
    rfl
  | settled c n _ ih =>
    have hends : [c.settlement, .callEnded c.id].countP (·.endsCall) = 1 := by
      rw [List.countP_cons, Call.endsCall_settlement]
      rfl
    have hbegins : [c.settlement, .callEnded c.id].countP (·.beginsCall) = 0 := by
      rw [List.countP_cons, Call.beginsCall_settlement]
      rfl
    rw [List.countP_append, List.countP_append, ih, hends, hbegins, List.length_cons]
    omega
  | perm hp _ ih => rw [ih, hp.length_eq]

/-- At no moment have more calls been underway than there is room for. -/
theorem atMost (h : ShiftLog limit plan line going done log) {l : List Occurrence}
    (hl : l <+: log) :
    l.countP (·.endsCall) ≤ l.countP (·.beginsCall) ∧
      l.countP (·.beginsCall) ≤ l.countP (·.endsCall) + limit := by
  -- the bounds at the end of a log; those at the moments before are the induction
  have hend : ∀ {line going done log}, ShiftLog limit plan line going done log →
      log.countP (·.endsCall) ≤ log.countP (·.beginsCall) ∧
        log.countP (·.beginsCall) ≤ log.countP (·.endsCall) + limit := by
    intro line going done log h
    have hbalance := h.balance
    have hroom := h.room
    omega
  induction h with
  | start => simp [List.prefix_nil.mp hl]
  | begun hroom hbefore ih =>
    rcases List.prefix_concat_iff.mp hl with rfl | hl
    · exact hend (.begun hroom hbefore)
    · exact ih hl
  | skipped hbefore ih =>
    rcases List.prefix_concat_iff.mp hl with rfl | hl
    · exact hend (.skipped hbefore)
    · exact ih hl
  | @settled line going done log c n hbefore ih =>
    have hsplit : log ++ [c.settlement, .callEnded c.id] =
        log ++ [c.settlement] ++ [.callEnded c.id] := by simp
    rcases List.prefix_concat_iff.mp (hsplit ▸ hl) with rfl | hl
    · exact hsplit ▸ hend (.settled c n hbefore)
    · rcases List.prefix_concat_iff.mp hl with rfl | hl
      · simpa [List.countP_append] using hend hbefore
      · exact ih hl
  | perm _ _ ih => exact ih hl

/-- The planned calls that are over are those that the journal closes. -/
theorem closed (h : ShiftLog limit plan line going done log) :
    log.countP (·.closesCall) = done.length := by
  induction h with
  | start => rfl
  | begun _ _ ih =>
    rw [List.countP_append, ih]
    rfl
  | skipped _ ih =>
    rw [List.countP_append, ih, List.length_append]
    rfl
  | settled c n _ ih =>
    rw [List.countP_append, ih, List.countP_cons, Call.closesCall_settlement, List.length_append]
    rfl
  | perm _ _ ih => exact ih

end ShiftLog

/-! ## Calls in slots -/

variable {deadline : Deadline} {limit : Nat} {plan : List Dispatch}

/-- The books of calls in slots that began with `r₀`. `settled` lists those that are over latest
first. -/
def Manning (limit : Nat) (plan : List Dispatch) (r₀ : RunState)
    (line going : List (Dispatch × Nat)) (settled : List Settled) (s : Scene) : Prop :=
  ∃ log, ShiftLog limit plan line going settled.reverse log ∧
    r₀.Gains log (settled.reverse.filterMap (·.call?)) s.2

/-- A planned call as a routine, by its position. -/
def task (deadline : Deadline) (p : Dispatch × Nat) : Routine Scene Settled :=
  perform deadline p.1 p.2

/-- A routine in the middle of a planned call. -/
def Calling (deadline : Deadline) (p : Dispatch × Nat) (r : Routine Scene Settled) : Prop :=
  Underway (Regime.history deadline) p.1 (fun o => ⟨p.2, p.1, o⟩) r

/-- The turn of a call that is underway. -/
theorem Manning.resume {r₀ : RunState} {line going : List (Dispatch × Nat)}
    {settled : List Settled} {p : Dispatch × Nat} {r : Routine Scene Settled} {s : Scene}
    (hr : Calling deadline p r) (h : Manning limit plan r₀ line (p :: going) settled s)
    (c : Clock) :
    Routine.Pool.Passes settle (Calling deadline) (Manning limit plan r₀) line going settled
      (r c s) := by
  obtain ⟨d, n⟩ := p
  obtain ⟨log, hlog, hgain⟩ := h
  have hkeeps := hr c s
  cases hp : r c s with
  | waiting w c' s' k =>
    rw [hp] at hkeeps
    obtain ⟨⟨-, hbooks⟩, hresume⟩ := hkeeps
    refine ⟨(d, n), fun c s => hresume c s trivial, log, hlog, ?_⟩
    rw [hbooks]
    exact hgain
  | done c' s' a =>
    rw [hp] at hkeeps
    obtain ⟨-, call, rfl, rfl, -, hgain'⟩ := hkeeps
    refine ⟨log ++ [call.settlement, .callEnded call.id], ?_, ?_⟩
    · rw [List.reverse_cons]
      exact hlog.settled call n
    · have hrecord := (hgain.trans hgain').trans (gains_record call s')
      rw [List.append_nil, List.append_nil] at hrecord
      simp only [List.reverse_cons, List.filterMap_append, List.filterMap_cons, List.filterMap_nil,
        Settled.call?_outcome]
      exact hrecord

/-- No interleaving of calls in slots leaves another journal. -/
theorem slots_manning (deadline : Deadline) (limit : Nat) (plan : List Dispatch)
    (r₀ : RunState) :
    Routine.Pool.Slots limit Untouched settle (task deadline) (Calling deadline)
      (Manning limit plan r₀) where
  perm := fun hp ⟨log, hlog, hgain⟩ => ⟨log, hlog.perm hp, hgain⟩
  rely := by
    rintro line going settled s s' hs ⟨log, hlog, hgain⟩
    refine ⟨log, hlog, ?_⟩
    rw [hs]
    exact hgain
  resume := fun c hr h => h.resume hr c
  start := by
    rintro ⟨d, n⟩ line going settled s c hroom ⟨log, hlog, hgain⟩
    rw [task, perform, invoke_bind]
    simp only [Routine.bind_apply, stopping, Progress.andThen]
    split
    · have hskipped := hgain.trans (gains_noted (o := .callSkipped d.member.id d.message) rfl c s)
      refine ⟨log ++ [.callSkipped d.member.id d.message], ?_, ?_⟩
      · rw [List.reverse_cons]
        exact hlog.skipped
      · rw [List.reverse_cons, List.filterMap_append]
        exact hskipped
    · have hbegun := hgain.trans (gains_noted (o := .callBegun d.member.id d.message) rfl c s)
      rw [List.append_nil] at hbegun
      have hcalling : Calling deadline (d, n) (answering d >>= fun o => pure ⟨n, d, o⟩) :=
        (underway_answering (d.member.within_history deadline)).map fun o => Settled.mk n d o
      -- from here on it takes the same turn as one that has begun before
      exact Manning.resume hcalling ⟨_, .begun hroom hlog, hbegun⟩ c

/-- The books of calls that began with `r₀` and wait: every slot is taken, or nobody is left in
line. -/
def AtWork (limit : Nat) (plan : List Dispatch) (r₀ r : RunState) : Prop :=
  ∃ line going done log, ShiftLog limit plan line going done log ∧
    r₀.Gains log (done.filterMap (·.call?)) r ∧
    going.length = min limit (going.length + line.length)

/-- The books of a plan that began with `r₀` when its calls are over, in this order. -/
def WorkedOff (limit : Nat) (plan : List Dispatch) (r₀ : RunState) (done : List Settled)
    (r : RunState) : Prop :=
  ∃ log, ShiftLog limit plan [] [] done log ∧ r₀.Gains log (done.filterMap (·.call?)) r

/-- A pool of the calls of a plan, of which the first ones are started at once. -/
theorem keeps_pool (hlimit : 0 < limit) {first rest : List (Dispatch × Nat)}
    (hplan : first ++ rest = plan.zipIdx)
    (hmanned : Routine.Pool.Manned limit
      ⟨first.map (task deadline), [], rest.map (task deadline)⟩)
    (c : Clock) (s : Scene) :
    (Routine.Pool.run settle ⟨first.map (task deadline), [], rest.map (task deadline)⟩ [] c s).Keeps
      Untouched (fun _ _ _ s' => AtWork limit plan s.2 s'.2)
      (fun _ _ _ s' done => WorkedOff limit plan s.2 done s'.2) c s := by
  have hstart : Manning limit plan s.2 (first ++ rest) [] [] s := by
    rw [hplan]
    exact ⟨[], .start, .refl _⟩
  refine ((slots_manning deadline limit plan s.2).keeps hlimit
    (Routine.Pool.lined_start first rest) hmanned hstart).mono (fun _ _ h => h) ?_ ?_
  · rintro _ _ _ s' ⟨line, going, settled, ⟨log, hlog, hgain⟩, hfull⟩
    exact ⟨line, going, settled.reverse, log, hlog, hgain, hfull⟩
  · rintro _ _ _ s' done ⟨log, hlog, hgain⟩
    rw [List.reverse_reverse] at hlog hgain
    exact ⟨log, hlog, hgain⟩

/-- **Calls with a limit** wait only while every slot is taken or nobody is left in line. -/
theorem keeps_dispatchBounded (hlimit : 0 < limit) (c : Clock) (s : Scene) :
    (dispatchBounded deadline limit plan c s).Keeps Untouched
      (fun _ _ _ s' => AtWork limit plan s.2 s'.2)
      (fun _ _ _ s' done => WorkedOff limit plan s.2 done s'.2) c s := by
  have hmanned := Routine.Pool.manned_take limit (tasks deadline plan)
  rw [tasks, ← List.map_take, ← List.map_drop] at hmanned
  rw [dispatchBounded, Routine.bounded, tasks, ← List.map_take, ← List.map_drop]
  exact keeps_pool hlimit (List.take_append_drop limit plan.zipIdx) hmanned c s

/-- All calls at once are calls with slots for all of them. -/
theorem keeps_together (c : Clock) (s : Scene) :
    (Routine.together settle (tasks deadline plan) c s).Keeps Untouched
      (fun _ _ _ s' => AtWork (plan.length + 1) plan s.2 s'.2)
      (fun _ _ _ s' done => WorkedOff (plan.length + 1) plan s.2 done s'.2) c s := by
  have hmanned : Routine.Pool.Manned (plan.length + 1)
      ⟨plan.zipIdx.map (task deadline), [], ([] : List (Dispatch × Nat)).map (task deadline)⟩ :=
    ⟨by simp [Routine.Pool.taken], fun hqueue => absurd rfl hqueue⟩
  exact keeps_pool (Nat.succ_pos _) (List.append_nil _) hmanned c s

theorem WorkedOff.asked {r₀ r : RunState} {done : List Settled} (h : WorkedOff limit plan r₀ done r) :
    r.asked = r₀.asked ++ plan.map (·.address) := by
  obtain ⟨log, hlog, hgain⟩ := h
  have hasked := hlog.asked
  rw [List.map_nil, List.append_nil] at hasked
  rw [RunState.asked, hgain.occurrences, List.filterMap_append, hasked]
  rfl

/-- A round's calls are made in the order of the plan. -/
theorem arrives_dispatchRound (c : Clock) (s : Scene) :
    (dispatchRound deadline plan c s).Arrives Untouched (Regime.history deadline).toGuarantee
      (fun _ s' calls => ∃ done, calls = inOrder done ∧ Dealt plan s.2 done s'.2 ∧
        s'.2.asked = s.2.asked ++ plan.map (·.address)) c s := by
  have hbalanced := Routine.meets_together
    (balanced_invariant (.history deadline) plan s.2 fun d _ => d.member.within_history deadline)
    (balanced_tasks (.history deadline) plan s.2) c s rfl
  have htogether : (Routine.together settle (tasks deadline plan) c s).Arrives Untouched
      (Regime.history deadline).toGuarantee (fun _ s' done => Dealt plan s.2 done s'.2 ∧
        s'.2.asked = s.2.asked ++ plan.map (·.address)) c s := by
    refine (hbalanced.and (keeps_together c s)).mono (fun _ _ h => h) (fun _ _ _ _ h => h.1) ?_
    rintro _ _ _ s' done ⟨⟨hstep, hdealt⟩, hworked⟩
    exact ⟨hstep, by simpa using dealt_of_balanced hdealt, hworked.asked⟩
  refine htogether.andThen fun c' s' done hdone => ?_
  exact ⟨List.prefix_refl s'.2.journal.toList, done, rfl, hdone⟩

end Run

end Ensemble
