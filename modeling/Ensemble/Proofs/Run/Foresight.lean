import Ensemble.Proofs.Participant.Tally
import Ensemble.Proofs.Routine.Line

/-!
# Calls that are known beforehand

If all members of a plan answer by number and message, its calls are known before the first of them
begins. They begin in the order of the plan, however many of them may be underway at a time and
however long each of them takes, and with its beginning a call has its number and its answer.
`foresee` lists them, and `worked_pool` says that a straight run comes to these calls, in whatever
order they are done, unless one of them is forgone.
-/

namespace Ensemble

open List (Forall₂)

/-! ## Parts of a plan -/

/-- A planned call of a member that answers by number and message. -/
structure Part where
  dispatch : Dispatch
  seat : Nat
  answer : Nat → Message → Except String Message
  plays : dispatch.member.Plays seat answer

namespace Part

/-- The call, if so many calls count at each seat before it. -/
def call (p : Part) (counts : Nat → Nat) : Call :=
  ⟨p.dispatch, p.answer (counts p.seat) p.dispatch.message⟩

/-- How many calls count at each seat behind the call. -/
def count (p : Part) (counts : Nat → Nat) : Nat → Nat :=
  fun seat => if seat = p.seat then counts seat + 1 else counts seat

end Part

theorem Memory.tally_count (m : Memory) (p : Part) :
    (m.counted p.seat).tally = p.count m.tally :=
  funext fun seat => m.tally_counted p.seat seat

/-- A call and its position in its plan. -/
structure Placed where
  position : Nat
  call : Call

/-- The call as the plan has it when it is done. -/
def Placed.settled (e : Placed) : Settled := ⟨e.position, e.call.dispatch, e.call.outcome⟩

/-- The calls of parts that begin one behind the other. -/
def foresee : (counts : Nat → Nat) → (line : List (Part × Nat)) → List Placed
  | _, [] => []
  | counts, (p, n) :: line => ⟨n, p.call counts⟩ :: foresee (p.count counts) line

/-- How many calls count at each seat behind the calls of parts. -/
def countAll : (counts : Nat → Nat) → (line : List (Part × Nat)) → Nat → Nat
  | counts, [] => counts
  | counts, (p, _) :: line => countAll (p.count counts) line

theorem positions_foresee (counts : Nat → Nat) (line : List (Part × Nat)) :
    (foresee counts line).map (·.position) = line.map (·.2) := by
  induction line generalizing counts with
  | nil => rfl
  | cons q line ih => rw [foresee, List.map_cons, List.map_cons, ih]

theorem dispatches_foresee (counts : Nat → Nat) (line : List (Part × Nat)) :
    (foresee counts line).map (·.call.dispatch) = line.map (·.1.dispatch) := by
  induction line generalizing counts with
  | nil => rfl
  | cons q line ih =>
    rw [foresee, List.map_cons, List.map_cons, ih]
    rfl

/-- Every plan of members that answer by number and message is a plan of parts. -/
theorem exists_parts {plan : List Dispatch} (h : ∀ d ∈ plan, ∃ seat f, d.member.Plays seat f) :
    ∃ parts : List Part, parts.map (·.dispatch) = plan := by
  induction plan with
  | nil => exact ⟨[], rfl⟩
  | cons d plan ih =>
    obtain ⟨seat, f, hd⟩ := h d List.mem_cons_self
    obtain ⟨parts, rfl⟩ := ih fun d' hd' => h d' (List.mem_cons_of_mem d hd')
    exact ⟨⟨d, seat, f, hd⟩ :: parts, rfl⟩

/-! ## Calls underway -/

theorem Progress.zoom_congr {σ τ α : Type} {get : σ → τ} {set : τ → σ → σ} {s s' : σ}
    (h : ∀ t, set t s = set t s') (p : Progress τ α) : p.zoom get set s = p.zoom get set s' := by
  cases p with
  | done c t a => simp only [Progress.zoom, h]
  | waiting w c t k => simp only [Progress.zoom, h]

namespace Run

variable {deadline : Deadline}

/-- A call is answered as foreseen, and in the same step its answer and its end are written down;
until then nothing is, and all the while no further call is counted. -/
def Answers (e : Placed) (c : Clock) (s : Scene) (p : Progress Scene Settled) : Prop :=
  p.Keeps Anything (fun _ s _ s' => s'.1.tally = s.1.tally ∧ s'.2 = s.2)
    (fun _ s _ s' a => a = e.settled ∧ s'.1.tally = s.1.tally ∧
      s'.2.blackboard = s.2.blackboard ∧
      RunState.Gains [e.call.settlement, .callEnded e.call.id] [] s.2 s'.2) c s

/-- A routine in the middle of a call. -/
def Due (e : Placed) (r : Routine Scene Settled) : Prop := ∀ c s, Answers e c s (r c s)

/-- The scene in which a call of a part has begun. -/
def begun (p : Part) (c : Clock) (s : Scene) : Scene :=
  (s.1.counted p.seat, (noted (.callBegun p.dispatch.member.id p.dispatch.message) c s).2)

theorem answers_answering (p : Part) (n : Nat) (c : Clock) (s : Scene) :
    Answers ⟨n, p.call s.1.tally⟩ c (s.1.counted p.seat, s.2)
      ((answering p.dispatch >>= fun o => pure ⟨n, p.dispatch, o⟩ : Routine Scene Settled)
        c s) := by
  refine (Progress.keeps_andThen _ _).mpr ((Progress.keeps_andThen _ _).mpr ?_)
  have hplays := p.plays p.dispatch.message c s.1
  -- the step that the call is in may be counted from where the call has been counted
  have hzoom : onMemory (p.dispatch.member.handle p.dispatch.message) c s =
      (p.dispatch.member.handle p.dispatch.message c s.1).zoom Prod.fst (fun m s => (m, s.2))
        (s.1.counted p.seat, s.2) := by
    rw [onMemory, Routine.zoom]
    refine Progress.zoom_congr (fun _ => ?_) _
    rfl
  rw [hzoom]
  refine Progress.Keeps.zoom hplays ?_ ?_
  · exact fun c s c' m h => ⟨h, rfl⟩
  · rintro c s' c' m answer ⟨htally, rfl⟩
    exact ⟨rfl, htally, rfl, gains_closing (p.call s.1.tally) c' (m, s'.2)⟩

/-- A planned call begins. -/
theorem perform_begins (d : Dispatch) (n : Nat) {c : Clock} {s : Scene}
    (hgo : (s.1.cancelled || deadline.passed c.now) = false) :
    perform deadline d n c s =
      (answering d >>= fun o => pure ⟨n, d, o⟩ : Routine Scene Settled) c
        (noted (.callBegun d.member.id d.message) c s) := by
  rw [perform, invoke_bind]
  simp only [Routine.bind_apply, stopping, Progress.andThen, hgo, Bool.false_eq_true, if_false]
  rfl

theorem answers_perform (p : Part) (n : Nat) {c : Clock} {s : Scene}
    (hgo : (s.1.cancelled || deadline.passed c.now) = false) :
    Answers ⟨n, p.call s.1.tally⟩ c (begun p c s) (perform deadline p.dispatch n c s) := by
  rw [perform_begins p.dispatch n hgo]
  exact answers_answering p n c (noted (.callBegun p.dispatch.member.id p.dispatch.message) c s)

/-- A planned call is skipped. -/
theorem perform_skips (d : Dispatch) (n : Nat) {c : Clock} {s : Scene}
    (hstop : (s.1.cancelled || deadline.passed c.now) = true) :
    perform deadline d n c s =
      .done c (noted (.callSkipped d.member.id d.message) c s) ⟨n, d, .skipped⟩ := by
  rw [perform, invoke_bind]
  simp only [Routine.bind_apply, stopping, Progress.andThen, hstop, if_true]
  rfl

/-! ## Pools of calls -/

/-- How a pool of calls stands that began with the books `r₀`, unless something has been forgone:
those done, those underway and those that come of the line make up all that was foreseen. -/
def Foreseen (r₀ : RunState) (all : List Placed) (counts : Nat → Nat) (line : List (Part × Nat))
    (going : List Placed) (settled : List Settled) (s : Scene) : Prop :=
  s.2.Forgone ∨
  (countAll s.1.tally line = counts ∧ s.2.blackboard = r₀.blackboard ∧
    ∃ done log, settled.reverse = done.map (·.settled) ∧
      (done ++ (going ++ foresee s.1.tally line)).Perm all ∧
      CallLog (going.map (·.call.dispatch)) (done.map (·.call)) log ∧
      r₀.Gains log (done.map (·.call)) s.2)

section

variable {r₀ : RunState} {all : List Placed} {counts : Nat → Nat} {line : List (Part × Nat)}
  {going : List Placed} {settled : List Settled} {c : Clock} {s : Scene}

/-- The first in line begins. -/
theorem Foreseen.begin {p : Part} {n : Nat} (c : Clock)
    (h : Foreseen r₀ all counts ((p, n) :: line) going settled s) :
    Foreseen r₀ all counts line (⟨n, p.call s.1.tally⟩ :: going) settled (begun p c s) := by
  have hgain : RunState.Gains _ [] s.2 (begun p c s).2 :=
    gains_noted (o := .callBegun p.dispatch.member.id p.dispatch.message) rfl c s
  rcases h with h | ⟨hcounts, hboard, done, log, hdone, hperm, hlog, hbooks⟩
  · exact .inl (h.gains hgain)
  · have htally : (begun p c s).1.tally = p.count s.1.tally := s.1.tally_count p
    refine .inr ⟨?_, hboard, done, _, hdone, ?_, .begun p.dispatch hlog, ?_⟩
    · rw [htally]
      exact hcounts
    · rw [htally]
      exact (List.perm_middle.symm.append_left done).trans hperm
    · have hbooks' := hbooks.trans hgain
      rwa [List.append_nil] at hbooks'

/-- A call underway goes on waiting, or it is done and recorded. -/
theorem Foreseen.turn {e : Placed} {p : Progress Scene Settled} (hp : Answers e c s p)
    (h : Foreseen r₀ all counts line (e :: going) settled s) :
    Routine.Pool.Passes settle Due (Foreseen r₀ all counts) line going settled p := by
  cases p with
  | waiting w c' s' k =>
    obtain ⟨⟨htally, hbooks⟩, hrest⟩ := hp
    refine ⟨e, fun c s => hrest c s trivial, ?_⟩
    unfold Foreseen at h ⊢
    rwa [htally, hbooks]
  | done c' s' a =>
    obtain ⟨rfl, htally, hboard, hgain⟩ := hp
    have hrecord : s.2.Gains [e.call.settlement, .callEnded e.call.id] [e.call]
        (settle e.settled s').2 := hgain.trans (gains_record e.call s')
    have htally' : (settle e.settled s').1.tally = s.1.tally := by
      rw [settle, record, Placed.settled]
      dsimp only
      rw [Call.reply?_outcome]
      exact htally
    rcases h with h | ⟨hcounts, hboard₀, done, log, hdone, hperm, hlog, hbooks⟩
    · exact .inl (h.gains hrecord)
    · refine .inr ⟨?_, ?_, done ++ [e], log ++ [e.call.settlement, .callEnded e.call.id],
        ?_, ?_, ?_, ?_⟩
      · rw [htally', hcounts]
      · exact (blackboard_record e.call s').trans (hboard.trans hboard₀)
      · rw [List.reverse_cons, hdone, List.map_append]
        rfl
      · rw [htally', List.append_assoc]
        exact hperm
      · rw [List.map_append]
        exact .settled e.call hlog
      · rw [List.map_append]
        exact hbooks.trans hrecord

end

/-- The calls of parts are worked off in line as foreseen, or something is forgone. -/
theorem foreseen_line (deadline : Deadline) (r₀ : RunState) (all : List Placed)
    (counts : Nat → Nat) :
    Routine.Pool.Line settle (fun q : Part × Nat => perform deadline q.1.dispatch q.2) Due
      (Foreseen r₀ all counts) where
  perm := by
    rintro line going going' settled s hp
      (h | ⟨hcounts, hboard, done, log, hdone, hperm, hlog, hbooks⟩)
    · exact .inl h
    · refine .inr ⟨hcounts, hboard, done, log, hdone, ?_, .perm (hp.map _) hlog, hbooks⟩
      exact ((hp.symm.append_right _).append_left done).trans hperm
  start := by
    rintro ⟨p, n⟩ line going settled s c h
    by_cases hstop : (s.1.cancelled || deadline.passed c.now) = true
    · rw [perform_skips p.dispatch n hstop]
      have hgain := gains_noted (o := .callSkipped p.dispatch.member.id p.dispatch.message) rfl c s
      exact .inl (hgain.forgone List.mem_cons_self rfl)
    · exact Foreseen.turn (answers_perform p n (eq_false_of_ne_true hstop)) (h.begin c)
  resume := fun c he h => h.turn (he c _)

/-- Calls of parts that have been worked off: those foreseen, in the order in which they were done,
are what the books have gained. -/
structure Worked (line : List (Part × Nat)) (x y : Moment Scene) (done : List Placed) : Prop where
  perm : done.Perm (foresee x.2.1.tally line)
  tally : y.2.1.tally = countAll x.2.1.tally line
  blackboard : y.2.2.blackboard = x.2.2.blackboard
  gains : ∃ log, CallLog [] (done.map (·.call)) log ∧
    x.2.2.Gains log (done.map (·.call)) y.2.2

/-- **Calls come out as foreseen**, in whatever order they are done, or something is forgone. -/
theorem worked_pool (deadline : Deadline) (next later : List (Part × Nat))
    {p : Routine.Pool Scene Settled}
    (hp : p = ⟨next.map fun q => perform deadline q.1.dispatch q.2, [],
      later.map fun q => perform deadline q.1.dispatch q.2⟩) (hfed : p.Fed) (x : Moment Scene)
    {y : List Settled × Moment Scene}
    (hy : Routine.runFrom (Routine.Pool.run settle p []) x = y) :
    y.2.2.2.Forgone ∨
      ∃ done, y.1 = done.map (·.settled) ∧ Worked (next ++ later) x y.2 done := by
  subst hp hy
  have hinv : Foreseen x.2.2 (foresee x.2.1.tally (next ++ later))
      (countAll x.2.1.tally (next ++ later)) (next ++ later) [] [] x.2 :=
    .inr ⟨rfl, rfl, [], [], rfl, .refl _, .start, .refl _⟩
  have hend := (foreseen_line deadline _ _ _).run
    (Routine.Pool.lined_start next later) hfed (c := x.1) hinv
  rcases hend with h | ⟨htally, hboard, done, log, hdone, hperm, hlog, hgain⟩
  · exact .inl h
  · rw [foresee, List.append_nil, List.append_nil] at hperm
    rw [List.reverse_reverse] at hdone
    exact .inr ⟨done, hdone, hperm, htally, hboard, log, hlog, hgain⟩

/-! ## Plans -/

theorem tasks_parts (parts : List Part) :
    tasks deadline (parts.map (·.dispatch)) =
      parts.zipIdx.map fun q => perform deadline q.1.dispatch q.2 := by
  rw [tasks, List.zipIdx_map, List.map_map]
  rfl

/-- The calls of a plan, so many at a time, come back as they are done. -/
theorem worked_dispatchBounded (parts : List Part) {limit : Nat} (hlimit : 0 < limit)
    (x : Moment Scene) {y : List Settled × Moment Scene}
    (hy : (dispatchBounded deadline limit (parts.map (·.dispatch))).runFrom x = y) :
    y.2.2.2.Forgone ∨
      ∃ done, y.1 = done.map (·.settled) ∧ Worked parts.zipIdx x y.2 done := by
  have hpool := worked_pool deadline (parts.zipIdx.take limit) (parts.zipIdx.drop limit) rfl ?_ x
    (y := y) ?_
  · rwa [List.take_append_drop] at hpool
  · rw [List.map_take, List.map_drop]
    exact Routine.Pool.fed_take hlimit _
  · rw [List.map_take, List.map_drop, ← tasks_parts]
    exact hy

theorem dispatches_settled (counts : Nat → Nat) (parts : List Part) :
    ((foresee counts parts.zipIdx).map (·.settled)).map (·.dispatch) =
      parts.map (·.dispatch) := by
  have hline : (parts.zipIdx.map Prod.fst).map (·.dispatch) = parts.map (·.dispatch) := by
    rw [List.zipIdx_map_fst]
  rw [List.map_map] at hline ⊢
  exact (dispatches_foresee counts parts.zipIdx).trans hline

theorem positions_settled (counts : Nat → Nat) (parts : List Part) :
    ((foresee counts parts.zipIdx).map (·.settled)).map (·.position) =
      List.range parts.length := by
  rw [List.map_map, List.range_eq_range', ← List.zipIdx_map_snd 0 parts]
  exact positions_foresee counts parts.zipIdx

theorem ordered_foresee (counts : Nat → Nat) (parts : List Part) :
    ((foresee counts parts.zipIdx).map (·.settled)).Pairwise
      fun a b => a.position < b.position := by
  have hlt := List.pairwise_lt_range (n := parts.length)
  rw [← positions_settled counts parts, List.pairwise_map] at hlt
  exact hlt

/-- The calls of a plan at once come back in the order of the plan. -/
theorem worked_dispatchRound (parts : List Part) (x : Moment Scene)
    {y : List Settled × Moment Scene}
    (hy : (dispatchRound deadline (parts.map (·.dispatch))).runFrom x = y) :
    y.2.2.2.Forgone ∨ y.1 = (foresee x.2.1.tally parts.zipIdx).map (·.settled) ∧
      ∃ done, Worked parts.zipIdx x y.2 done := by
  subst hy
  let w := (Routine.together settle (tasks deadline (parts.map (·.dispatch)))).runFrom x
  have hround : (dispatchRound deadline (parts.map (·.dispatch))).runFrom x =
      (inOrder w.1, w.2) := by
    rw [dispatchRound, Routine.runFrom_bind, Routine.runFrom_pure]
  have hpool := worked_pool deadline parts.zipIdx [] rfl (fun hqueue => absurd rfl hqueue) x
    (y := w) ?_
  · rw [List.append_nil] at hpool
    rw [hround]
    refine hpool.imp_right ?_
    rintro ⟨done, hdone, hworked⟩
    refine ⟨inOrder_eq ?_ (ordered_foresee _ parts), done, hworked⟩
    rw [hdone]
    exact hworked.perm.map _
  · rw [List.map_nil, ← tasks_parts]
    rfl

/-- A single call is a round of calls with one in it. -/
theorem dispatchRound_single (deadline : Deadline) (m : Member) (message : Message) :
    dispatchRound deadline [⟨m, message⟩] =
      call deadline m message >>= fun outcome => pure [⟨0, ⟨m, message⟩, outcome⟩] := by
  have hover : ∀ a : Settled, Routine.Pool.run settle ⟨[], [], []⟩ [a] =
      (pure [a] : Routine Scene (List Settled)) := fun a => funext fun c => funext fun s =>
    Routine.Pool.run_over
  have htogether : Routine.together settle (tasks deadline [⟨m, message⟩]) =
      perform deadline ⟨m, message⟩ 0 >>= fun a => Routine.modify (settle a) >>= fun _ =>
        pure [a] := by
    refine (Routine.Pool.run_single (perform deadline ⟨m, message⟩ 0) []).trans ?_
    simp only [Routine.Pool.refill, hover]
    rfl
  have hsorted : ∀ a : Settled, inOrder [a] = [a] := fun a => List.mergeSort_singleton a
  rw [dispatchRound, htogether]
  simp only [perform, call, bind_assoc, pure_bind, hsorted]
  rfl

/-- A single call comes back with its outcome. -/
theorem worked_call (p : Part) (x : Moment Scene) {y : Outcome × Moment Scene}
    (hy : (call deadline p.dispatch.member p.dispatch.message).runFrom x = y) :
    y.2.2.2.Forgone ∨ y.1 = (p.call x.2.1.tally).outcome ∧
      Worked [(p, 0)] x y.2 [⟨0, p.call x.2.1.tally⟩] := by
  have hround := @worked_dispatchRound deadline [p] x _ rfl
  have hsingle := dispatchRound_single deadline p.dispatch.member p.dispatch.message
  rw [List.map_singleton, hsingle, Routine.runFrom_bind, hy, Routine.runFrom_pure] at hround
  refine hround.imp_right ?_
  rintro ⟨hcalls, done, hworked⟩
  obtain ⟨hsettled, -⟩ := List.cons_eq_cons.mp hcalls
  have hdone : done = [⟨0, p.call x.2.1.tally⟩] := List.perm_singleton.mp hworked.perm
  exact ⟨congrArg Settled.outcome hsettled, hdone ▸ hworked⟩

/-! ## Rounds -/

/-- A round begins if nobody has stopped the run. -/
theorem beginRound_begins (round : Nat) {c : Clock} {s : Scene}
    (hgo : (s.1.cancelled || deadline.passed c.now) = false) :
    beginRound deadline round c s =
      .done c (noted (.roundBegun round) c (s.1, { s.2 with rounds := s.2.rounds + 1 })) true := by
  simp only [beginRound, Routine.bind_apply, stopping, Progress.andThen, hgo,
    Bool.false_eq_true, if_false]
  rfl

/-- A round begins, or it is forgone. -/
theorem begun_round (round : Nat) (x : Moment Scene) {y : Bool × Moment Scene}
    (hy : (beginRound deadline round).runFrom x = y) :
    y.1 = false ∧ y.2.2.2.Forgone ∨ y.1 = true ∧ y.2.2.1 = x.2.1 ∧
      y.2.2.2.blackboard = x.2.2.blackboard ∧ x.2.2.Gains [.roundBegun round] [] y.2.2.2 := by
  by_cases hstop : (x.2.1.cancelled || deadline.passed x.1.now) = true
  · have hrefused : beginRound deadline round x.1 x.2 =
        .done x.1 (noted (.roundRefused round) x.1 x.2) false := by
      simp only [beginRound, Routine.bind_apply, stopping, Progress.andThen, hstop, if_true]
      rfl
    rw [← hy, Routine.runFrom_done hrefused]
    have hgain := gains_noted (o := .roundRefused round) rfl x.1 x.2
    exact .inl ⟨rfl, hgain.forgone List.mem_cons_self rfl⟩
  · have hgo : (x.2.1.cancelled || deadline.passed x.1.now) = false := eq_false_of_ne_true hstop
    rw [← hy, Routine.runFrom_done (beginRound_begins round hgo)]
    exact .inr ⟨rfl, rfl, rfl, gains_roundBegun round x.1 x.2⟩

end Run

end Ensemble
