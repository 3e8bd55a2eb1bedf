import Ensemble.Proofs.Routine.Excerpt
import Ensemble.Proofs.Routine.Prompt
import Ensemble.Proofs.Run.Foresight
import Ensemble.Proofs.Run.Shifts
import Mathlib.Data.List.Sort

/-!
# The timetable of a round

A round is planned for participants that answer out of their scripts. `launches` says what becomes
of each errand when its turn comes: the participant takes an action, or the run is stopping and it
is skipped. The turns come one after the other while the timer stands still (`run_launches`); then
the calls that wait go on one after the other (`Turned.reaches`), which is a pool whose members have
one turn left.

The order in which they go on is decided twice: by the queue of the pool, into which each call goes
with the moment it waits for, and by `byDelay`, which sorts all calls by their delays when all is
known. No two calls have both their delay and their position in common, so there is one order only
(`eq_byDelay`). `round_keeps_timetable` draws the timetable from it.
-/

namespace Ensemble

open List (Forall₂)

/-! ## Errands -/

/-- The memory, with the orchestration cancelled if so said. -/
def Memory.cancelIf (b : Bool) (m : Memory) : Memory := if b then m.cancel else m

/-- What an action leaves of the memory before its first wait. -/
def Action.opening (a : Action) (m : Memory) : Memory :=
  (m.cancelIf a.cancelsBefore).cancelIf (a.delay = 0 && a.cancelsAfter)

namespace Participant

/-- A call without delay is done in one step. -/
theorem act_at_once {a : Action} (h : a.delay = 0) (message : Message) (c : Clock) (m : Memory) :
    act a (ownReply message) c m = .done (c.stall a.stall) (a.opening m) a.outcome := by
  obtain ⟨before, stall, delay, after, outcome⟩ := a
  obtain rfl : delay = 0 := h
  cases before <;> cases after <;> cases outcome <;> rfl

/-- A call with a delay has nothing left to do behind it but to cancel. -/
theorem act_waits {a : Action} (h : a.delay ≠ 0) (message : Message) (c : Clock) (m : Memory) :
    act a (ownReply message) c m =
      .waiting ⟨c.timer + a.delay, c.delays⟩ { c.stall a.stall with delays := c.delays + 1 }
        (a.opening m) fun c m => .done c (m.cancelIf a.cancelsAfter) a.outcome := by
  obtain ⟨before, stall, delay, after, outcome⟩ := a
  obtain ⟨d, rfl⟩ : ∃ d, delay = d + 1 := Nat.exists_eq_succ_of_ne_zero h
  cases before <;> cases after <;> cases outcome <;> rfl

end Participant

/-- A message for a participant with nothing inside. -/
structure Errand where
  seat : Nat
  profile : Profile
  behaviour : Behaviour
  message : Message

namespace Errand

/-- The call that is planned for it. -/
def dispatch (e : Errand) : Dispatch :=
  ⟨(Participant.simple e.profile e.behaviour).member e.seat, e.message⟩

end Errand

/-- An errand whose turn has come: the participant takes an action, unless it is skipped. -/
structure Launch where
  position : Nat
  errand : Errand
  action : Option Action

namespace Launch

/-- Whether the participant was called. -/
def started (l : Launch) : Bool := l.action.isSome

/-- How long the call waits. -/
def delay (l : Launch) : Nat := l.action.elim 0 (·.delay)

/-- How much time is lost when it begins. -/
def stall (l : Launch) : Nat := l.action.elim 0 (·.stall)

/-- What it leaves of the memory before its first wait. -/
def leaves (l : Launch) (m : Memory) : Memory :=
  l.action.elim m fun a => a.opening (m.counted l.errand.seat)

/-- Whom it is for, and with what message. -/
def address (l : Launch) : String × Message := l.errand.dispatch.address

/-- The call, if it was made. -/
def call? (l : Launch) : Option Call := l.action.map fun a => ⟨l.errand.dispatch, a.outcome⟩

/-- The errand as the plan has it when it is done. -/
def settled (l : Launch) : Settled :=
  ⟨l.position, l.errand.dispatch, l.call?.elim .skipped (·.outcome)⟩

/-- Only a call that was made waits. -/
theorem started_of_delay (l : Launch) (h : l.delay ≠ 0) : l.started = true := by
  obtain ⟨position, errand, _ | a⟩ := l
  · exact absurd rfl h
  · rfl

/-- The call is recorded when the errand is done. -/
theorem settle_settled {l : Launch} {call : Call} (h : l.call? = some call) :
    Run.settle l.settled = Run.record call.id call.dispatch.message call.outcome := by
  obtain ⟨position, errand, _ | a⟩ := l
  · exact absurd h nofun
  · obtain rfl := Option.some.inj h
    rfl

/-- It comes first by its delay, or by its position if the delays are the same. -/
def Earlier (l l' : Launch) : Prop :=
  l.delay < l'.delay ∨ l.delay = l'.delay ∧ l.position < l'.position

end Launch

/-- What becomes of an errand when its turn comes. -/
def launch (deadline : Deadline) (e : Errand) (position now : Nat) (m : Memory) : Launch :=
  ⟨position, e, if m.cancelled || deadline.passed now then none
    else some (e.behaviour (m.tally e.seat) e.message)⟩

/-- What becomes of errands whose turns come one after the other. -/
def launches (deadline : Deadline) : List Errand → (position now : Nat) → Memory → List Launch
  | [], _, _, _ => []
  | e :: rest, n, now, m =>
    let l := launch deadline e n now m
    l :: launches deadline rest (n + 1) (now + l.stall) (l.leaves m)

theorem errands_launches (deadline : Deadline) (errands : List Errand) (n now : Nat) (m : Memory) :
    (launches deadline errands n now m).map (·.errand) = errands := by
  induction errands generalizing n now m with
  | nil => rfl
  | cons e rest ih => rw [launches, List.map_cons, ih, launch]

theorem positions_launches (deadline : Deadline) (errands : List Errand) (n now : Nat)
    (m : Memory) :
    (launches deadline errands n now m).map (·.position) = List.range' n errands.length := by
  induction errands generalizing n now m with
  | nil => rfl
  | cons e rest ih => rw [launches, List.map_cons, ih, launch, List.length_cons, List.range'_succ]

namespace Run

variable {deadline : Deadline}

/-- A routine that writes down the answer to a call and is done. -/
def Answering (l : Launch) (r : Routine Scene Settled) : Prop :=
  ∃ call, l.call? = some call ∧ ∀ c s, ∃ s', r c s = .done c s' l.settled ∧
    s.2.Gains [call.settlement, .callEnded call.id] [] s'.2

/-- What is written down of errands when their turns have come. -/
structure Turns (launched : List Launch) (log : List Occurrence) : Prop where
  asked : log.filterMap (·.asked?) = launched.map (·.address)
  begun : log.filterMap (·.begun?) = (launched.filter (·.started)).map (·.address)

theorem Turns.append {launched launched' : List Launch} {log log' : List Occurrence}
    (h : Turns launched log) (h' : Turns launched' log') :
    Turns (launched ++ launched') (log ++ log') where
  asked := by rw [List.filterMap_append, h.asked, h'.asked, List.map_append]
  begun := by
    rw [List.filterMap_append, h.begun, h'.begun, List.filter_append, List.map_append]

/-- The end of a call is no matter of turns. -/
theorem turns_closing (call : Call) : Turns [] [call.settlement, .callEnded call.id] where
  asked := by rw [List.filterMap_cons, Call.asked?_settlement]; rfl
  begun := by rw [List.filterMap_cons, Call.begun?_settlement]; rfl

section

variable {e : Errand} {n : Nat} {c : Clock} {s : Scene} {a : Action}

theorem launch_stops (hstop : (s.1.cancelled || deadline.passed c.now) = true) :
    launch deadline e n c.now s.1 = ⟨n, e, none⟩ := by
  rw [launch, if_pos hstop]

theorem launch_goes (hgo : (s.1.cancelled || deadline.passed c.now) = false) :
    launch deadline e n c.now s.1 = ⟨n, e, some (e.behaviour (s.1.tally e.seat) e.message)⟩ := by
  rw [launch, if_neg (ne_true_of_eq_false hgo)]

/-- The errand begins with its action. -/
theorem perform_acts (hgo : (s.1.cancelled || deadline.passed c.now) = false)
    (ha : e.behaviour (s.1.tally e.seat) e.message = a) :
    perform deadline e.dispatch n c s =
      (((Participant.act a (Participant.ownReply e.message) c (s.1.counted e.seat)).zoom Prod.fst
          (fun m s => (m, s.2)) (noted (.callBegun e.profile.id e.message) c s)).andThen
        fun answer => closing ⟨e.dispatch, answer⟩).andThen fun o => pure ⟨n, e.dispatch, o⟩ := by
  subst ha
  exact perform_begins e.dispatch n hgo

/-- An errand that does not wait is done with its turn. -/
theorem perform_at_once (e : Errand) (n : Nat) (c : Clock) (s : Scene)
    (hdelay : (launch deadline e n c.now s.1).delay = 0) :
    let l := launch deadline e n c.now s.1
    ∃ s' log, perform deadline e.dispatch n c s = .done (c.stall l.stall) s' l.settled ∧
      (settle l.settled s').1 = l.leaves s.1 ∧
      s.2.Gains log l.call?.toList (settle l.settled s').2 ∧ Turns [l] log := by
  intro l
  by_cases hstop : (s.1.cancelled || deadline.passed c.now) = true
  · have hl : l = ⟨n, e, none⟩ := launch_stops hstop
    rw [hl]
    exact ⟨_, _, perform_skips e.dispatch n hstop, rfl,
      gains_noted (o := .callSkipped e.profile.id e.message) rfl c s, rfl, rfl⟩
  · have hgo := eq_false_of_ne_true hstop
    generalize ha : e.behaviour (s.1.tally e.seat) e.message = a
    have hl : l = ⟨n, e, some a⟩ := ha ▸ launch_goes hgo
    have hnone : a.delay = 0 := by
      rw [show launch deadline e n c.now s.1 = ⟨n, e, some a⟩ from hl] at hdelay
      exact hdelay
    let call : Call := ⟨e.dispatch, a.outcome⟩
    let s₁ := noted (.callBegun e.profile.id e.message) c s
    let s₂ : Scene := (a.opening (s.1.counted e.seat), s₁.2)
    let c' := c.stall a.stall
    let s' := noted (.callEnded call.id) c' (noted call.settlement c' s₂)
    have hbegun : Turns [l] [.callBegun e.profile.id e.message] := hl ▸ ⟨rfl, rfl⟩
    have hgain : s.2.Gains ([.callBegun e.profile.id e.message] ++
        [call.settlement, .callEnded call.id]) [] s'.2 :=
      (gains_noted rfl c s).trans (gains_closing call c' s₂)
    refine ⟨s', _, ?_, ?_, ?_, hbegun.append (turns_closing call)⟩
    · rw [hl, perform_acts hgo ha, Participant.act_at_once hnone]
      rfl
    · rw [memory_settle, hl]
      rfl
    · have hrecord := hgain.trans (gains_record call s')
      rw [List.append_nil] at hrecord
      rw [hl]
      exact hrecord

/-- An errand that waits is answered when it goes on. -/
theorem perform_waits (e : Errand) (n : Nat) (c : Clock) (s : Scene)
    (hdelay : (launch deadline e n c.now s.1).delay ≠ 0) :
    let l := launch deadline e n c.now s.1
    ∃ s' k log, perform deadline e.dispatch n c s = .waiting ⟨c.timer + l.delay, c.delays⟩
        { c.stall l.stall with delays := c.delays + 1 } s' k ∧
      s'.1 = l.leaves s.1 ∧ s.2.Gains log [] s'.2 ∧ Turns [l] log ∧ Answering l k := by
  intro l
  have hgo : (s.1.cancelled || deadline.passed c.now) = false := by
    by_contra hstop
    rw [launch_stops (eq_true_of_ne_false hstop)] at hdelay
    exact hdelay rfl
  generalize ha : e.behaviour (s.1.tally e.seat) e.message = a
  have hl : l = ⟨n, e, some a⟩ := ha ▸ launch_goes hgo
  have hwaits : a.delay ≠ 0 := by
    rw [show launch deadline e n c.now s.1 = ⟨n, e, some a⟩ from hl] at hdelay
    exact hdelay
  let call : Call := ⟨e.dispatch, a.outcome⟩
  rw [hl, perform_acts hgo ha, Participant.act_waits hwaits]
  refine ⟨_, _, _, rfl, rfl, gains_noted (o := .callBegun e.profile.id e.message) rfl c s,
    ⟨rfl, rfl⟩, call, rfl, fun c s => ⟨_, rfl, ?_⟩⟩
  exact gains_closing call c (s.1.cancelIf a.cancelsAfter, s.2)

end

/-! ## The turns of a round -/

/-- The call of a launch waits in a pool. -/
structure Waits (c : Clock) (l : Launch) (m : Routine.Suspended Scene Settled) : Prop where
  answering : Answering l m.resume
  due : m.wake.due = c.timer + l.delay
  rank : m.wake.rank < c.delays

/-- The launches in the order in which they go on, with one more that waits behind all others of its
moment. -/
def insertLast (l : Launch) (waits : List Launch) : List Launch :=
  waits.orderedInsert (fun a b => a.delay < b.delay) l

theorem forall₂_insertLast {c c' : Clock} {l : Launch} {waits : List Launch}
    {waiting : List (Routine.Suspended Scene Settled)} {k : Routine Scene Settled}
    (h : Forall₂ (Waits c) waits waiting) (hk : Answering l k) (htimer : c'.timer = c.timer)
    (hdelays : c'.delays = c.delays + 1) :
    Forall₂ (Waits c') (insertLast l waits)
      (Routine.Suspended.insert ⟨⟨c.timer + l.delay, c.delays⟩, k⟩ waiting) := by
  have hstill : ∀ {l m}, Waits c l m → Waits c' l m := fun hm =>
    ⟨hm.answering, htimer ▸ hm.due, hdelays ▸ Nat.lt_succ_of_lt hm.rank⟩
  have hnew : Waits c' l ⟨⟨c.timer + l.delay, c.delays⟩, k⟩ :=
    ⟨hk, by rw [htimer], by rw [hdelays]; exact Nat.lt_succ_self _⟩
  induction h with
  | nil => exact .cons hnew .nil
  | @cons b m waits waiting hm h ih =>
    -- it ranks behind all that wait, so only a later moment lets it pass
    have hbefore : (Wake.mk (c.timer + l.delay) c.delays).before m.wake = true ↔
        l.delay < b.delay := by
      have hdue := hm.due
      have hrank := hm.rank
      rw [Wake.before_iff]
      dsimp only
      omega
    rw [insertLast, List.orderedInsert_cons, Routine.Suspended.insert]
    by_cases hearlier : l.delay < b.delay
    · rw [if_pos hearlier, if_pos (hbefore.mpr hearlier)]
      exact .cons hnew (.cons (hstill hm) (h.imp fun _ _ => hstill))
    · rw [if_neg hearlier, if_neg fun h => hearlier (hbefore.mp h)]
      exact .cons (hstill hm) ih

theorem pairwise_insertLast {l : Launch} {waits : List Launch}
    (h : waits.Pairwise Launch.Earlier) (hlast : ∀ b ∈ waits, b.position < l.position) :
    (insertLast l waits).Pairwise Launch.Earlier := by
  induction waits with
  | nil => exact List.pairwise_singleton _ _
  | cons b waits ih =>
    obtain ⟨hb, hwaits⟩ := List.pairwise_cons.mp h
    rw [insertLast, List.orderedInsert_cons]
    by_cases hearlier : l.delay < b.delay
    · rw [if_pos hearlier]
      refine List.pairwise_cons.mpr ⟨fun x hx => .inl ?_, h⟩
      rcases List.mem_cons.mp hx with rfl | hx
      · exact hearlier
      · rcases hb x hx with hlt | ⟨heq, -⟩
        · exact Nat.lt_trans hearlier hlt
        · exact heq ▸ hearlier
    · rw [if_neg hearlier]
      refine List.pairwise_cons.mpr
        ⟨fun x hx => ?_, ih hwaits fun x hx => hlast x (List.mem_cons_of_mem b hx)⟩
      rcases List.mem_cons.mp ((List.perm_orderedInsert _ l waits).mem_iff.mp hx) with rfl | hx
      · have hposition := hlast b List.mem_cons_self
        unfold Launch.Earlier
        omega
      · exact hb x hx

/-- Where a round stands when some of its errands have had their turns, which began with `c₀` and
`r₀`: the timer has not moved, the calls without a delay are done, and the others wait, in the order
in which they go on. -/
structure Turned (launched : List Launch) (c₀ : Clock) (r₀ : RunState)
    (waiting : List (Routine.Suspended Scene Settled)) (settled : List Settled) (c : Clock)
    (s : Scene) : Prop where
  timer : c.timer = c₀.timer
  done : settled.reverse = (launched.filter (·.delay = 0)).map (·.settled)
  queue : ∃ waits, Forall₂ (Waits c) waits waiting ∧ waits.Pairwise Launch.Earlier ∧
    waits.Perm (launched.filter (·.delay ≠ 0))
  books : ∃ log, r₀.Gains log ((launched.filter (·.delay = 0)).filterMap (·.call?)) s.2 ∧
    Turns launched log

section

variable {launched : List Launch} {l : Launch} {c₀ c : Clock} {r₀ : RunState}
  {waiting : List (Routine.Suspended Scene Settled)} {settled : List Settled} {s s' : Scene}
  {log : List Occurrence}

theorem Turned.at_once (h : Turned launched c₀ r₀ waiting settled c s) (hdelay : l.delay = 0)
    (hgain : s.2.Gains log l.call?.toList s'.2) (hturn : Turns [l] log) :
    Turned (launched ++ [l]) c₀ r₀ waiting (l.settled :: settled) (c.stall l.stall) s' := by
  obtain ⟨waits, hwaits, hordered, hperm⟩ := h.queue
  obtain ⟨log₀, hgain₀, hturns⟩ := h.books
  have hnow : (launched ++ [l]).filter (·.delay = 0) = launched.filter (·.delay = 0) ++ [l] := by
    simp [List.filter_append, hdelay]
  have hlater : (launched ++ [l]).filter (·.delay ≠ 0) = launched.filter (·.delay ≠ 0) := by
    simp [List.filter_append, hdelay]
  have hcall : [l].filterMap (·.call?) = l.call?.toList := by
    rw [List.filterMap_cons]
    cases l.call? <;> rfl
  refine ⟨h.timer, ?_, ⟨waits, ?_, hordered, hlater ▸ hperm⟩, log₀ ++ log, ?_, hturns.append hturn⟩
  · rw [List.reverse_cons, h.done, hnow, List.map_append, List.map_singleton]
  · exact hwaits.imp fun _ _ hm => ⟨hm.answering, hm.due, hm.rank⟩
  · rw [hnow, List.filterMap_append, hcall]
    exact hgain₀.trans hgain

theorem Turned.later {k : Routine Scene Settled} (h : Turned launched c₀ r₀ waiting settled c s)
    (hdelay : l.delay ≠ 0) (hlast : ∀ b ∈ launched, b.position < l.position)
    (hk : Answering l k) (hgain : s.2.Gains log [] s'.2) (hturn : Turns [l] log) :
    Turned (launched ++ [l]) c₀ r₀
      (Routine.Suspended.insert ⟨⟨c.timer + l.delay, c.delays⟩, k⟩ waiting) settled
      { c.stall l.stall with delays := c.delays + 1 } s' := by
  obtain ⟨waits, hwaits, hordered, hperm⟩ := h.queue
  obtain ⟨log₀, hgain₀, hturns⟩ := h.books
  have hnow : (launched ++ [l]).filter (·.delay = 0) = launched.filter (·.delay = 0) := by
    simp [List.filter_append, hdelay]
  have hlater : (launched ++ [l]).filter (·.delay ≠ 0) = launched.filter (·.delay ≠ 0) ++ [l] := by
    simp [List.filter_append, hdelay]
  have hbehind : ∀ b ∈ waits, b.position < l.position := fun b hb =>
    hlast b (List.mem_of_mem_filter (hperm.mem_iff.mp hb))
  refine ⟨h.timer, hnow ▸ h.done, ⟨insertLast l waits, forall₂_insertLast hwaits hk rfl rfl,
    pairwise_insertLast hordered hbehind, ?_⟩, log₀ ++ log, ?_, hturns.append hturn⟩
  · rw [hlater]
    exact (List.perm_orderedInsert _ l waits).trans
      ((hperm.cons l).trans (List.perm_append_singleton l _).symm)
  · rw [hnow]
    have hboth := hgain₀.trans hgain
    rwa [List.append_nil] at hboth

end

/-- The turns of errands come one after the other while the timer stands still. -/
theorem run_launches (errands : List Errand) {before : List Launch} {n : Nat} {c₀ c : Clock}
    {r₀ : RunState} {waiting : List (Routine.Suspended Scene Settled)} {settled : List Settled}
    {s : Scene} (hbefore : Turned before c₀ r₀ waiting settled c s)
    (hpositions : ∀ b ∈ before, b.position < n) :
    ∃ c' s' waiting' settled',
      Routine.Pool.run settle
          ⟨((errands.map (·.dispatch)).zipIdx n).map (task deadline), waiting, []⟩ settled c s =
        Routine.Pool.run settle ⟨[], waiting', []⟩ settled' c' s' ∧
      Turned (before ++ launches deadline errands n c.now s.1) c₀ r₀ waiting' settled' c' s' := by
  induction errands generalizing before n waiting settled c s with
  | nil =>
    refine ⟨c, s, waiting, settled, rfl, ?_⟩
    rwa [launches, List.append_nil]
  | cons e rest ih =>
    let l := launch deadline e n c.now s.1
    have hlaunches : before ++ launches deadline (e :: rest) n c.now s.1 =
        before ++ [l] ++ launches deadline rest (n + 1) (c.now + l.stall) (l.leaves s.1) :=
      List.append_cons _ _ _
    have hnow : (c.stall l.stall).now = c.now + l.stall := (Nat.add_assoc _ _ _).symm
    have hnext : ∀ b ∈ before ++ [l], b.position < n + 1 := by
      intro b hb
      rcases List.mem_append.mp hb with hb | hb
      · exact Nat.lt_succ_of_lt (hpositions b hb)
      · rw [List.mem_singleton.mp hb]
        exact Nat.lt_succ_self n
    rw [hlaunches, ← hnow, List.map_cons, List.zipIdx_cons, List.map_cons, task]
    by_cases hdelay : l.delay = 0
    · obtain ⟨s₁, log, hperform, hmemory, hgain, hturn⟩ := perform_at_once e n c s hdelay
      rw [Routine.Pool.run_done hperform, ← hmemory]
      exact ih (hbefore.at_once hdelay hgain hturn) hnext
    · obtain ⟨s₁, k, log, hperform, hmemory, hgain, hturn, hk⟩ := perform_waits e n c s hdelay
      rw [Routine.Pool.run_waiting hperform, ← hmemory]
      exact ih (hbefore.later hdelay hpositions hk hgain hturn) hnext

/-! ## The order in which the calls go on -/

/-- Launches in the order in which their calls go on: by their delays, and those of one delay as
they stand. -/
def byDelay (launched : List Launch) : List Launch :=
  launched.mergeSort fun a b => a.delay ≤ b.delay

/-- Sorting by delays keeps the order of the positions among those of one delay. -/
theorem pairwise_byDelay {launched : List Launch}
    (h : launched.Pairwise fun a b => a.position < b.position) :
    (byDelay launched).Pairwise Launch.Earlier := by
  have htrans : ∀ a b c : Launch, decide (a.delay ≤ b.delay) = true →
      decide (b.delay ≤ c.delay) = true → decide (a.delay ≤ c.delay) = true := by
    simp only [decide_eq_true_eq]
    omega
  have htotal : ∀ a b : Launch,
      (decide (a.delay ≤ b.delay) || decide (b.delay ≤ a.delay)) = true := by
    simp only [Bool.or_eq_true, decide_eq_true_eq]
    omega
  induction launched with
  | nil =>
    rw [byDelay, List.mergeSort_nil]
    exact .nil
  | cons a launched ih =>
    obtain ⟨ha, hlaunched⟩ := List.pairwise_cons.mp h
    obtain ⟨before, behind, hsorted, hrest, hlater⟩ := List.mergeSort_cons htrans htotal a launched
    have hearlier := ih hlaunched
    have hall := List.pairwise_mergeSort htrans htotal (a :: launched)
    rw [byDelay, hrest] at hearlier
    rw [hsorted] at hall
    obtain ⟨hbefore, hbehind, hacross⟩ := List.pairwise_append.mp hearlier
    obtain ⟨-, hafter, -⟩ := List.pairwise_append.mp hall
    have hfirst : ∀ b ∈ before ++ behind, a.position < b.position := fun b hb =>
      ha b ((List.mergeSort_perm launched _).mem_iff.mp (hrest ▸ hb))
    rw [byDelay, hsorted]
    refine List.pairwise_append.mpr ⟨hbefore, List.pairwise_cons.mpr ⟨fun b hb => ?_, hbehind⟩, ?_⟩
    · have hposition := hfirst b (List.mem_append_right before hb)
      have hdelay := of_decide_eq_true ((List.pairwise_cons.mp hafter).1 b hb)
      unfold Launch.Earlier
      omega
    · intro b hb x hx
      rcases List.mem_cons.mp hx with rfl | hx
      · have hdelay := hlater b hb
        simp only [Bool.not_eq_true', decide_eq_false_iff_not] at hdelay
        exact .inl (Nat.lt_of_not_le hdelay)
      · exact hacross b hb x hx

/-- No two launches have their delay and their position in common, so sorting leaves no choice. -/
theorem eq_byDelay {launched sorted : List Launch}
    (h : launched.Pairwise fun a b => a.position < b.position) (hperm : sorted.Perm launched)
    (hsorted : sorted.Pairwise Launch.Earlier) : sorted = byDelay launched := by
  refine (hperm.trans (List.mergeSort_perm launched _).symm).eq_of_pairwise ?_ hsorted
    (pairwise_byDelay h)
  intro a b _ _ hab hba
  unfold Launch.Earlier at hab hba
  omega

theorem filter_delay_perm (launched : List Launch) :
    (launched.filter (·.delay = 0) ++ launched.filter (·.delay ≠ 0)).Perm launched := by
  simp only [ne_eq, decide_not]
  exact List.filter_append_perm _ launched

theorem delay_of_mem {launched : List Launch} {l : Launch}
    (h : l ∈ (launched.filter (·.delay = 0)).filter (·.started)) : l.delay = 0 :=
  of_decide_eq_true (List.mem_filter.mp (List.mem_of_mem_filter h)).2

/-- Calls that do not wait are over first, and then those that wait, in their order. -/
theorem append_eq_byDelay {launched waits : List Launch}
    (h : launched.Pairwise fun a b => a.position < b.position)
    (hwaits : waits.Perm (launched.filter (·.delay ≠ 0)))
    (hordered : waits.Pairwise Launch.Earlier) :
    (launched.filter (·.delay = 0)).filter (·.started) ++ waits =
      byDelay (launched.filter (·.started)) := by
  refine eq_byDelay (h.filter _) ?_ (List.pairwise_append.mpr ⟨?_, hordered, ?_⟩)
  · have hmade : (launched.filter (·.delay ≠ 0)).filter (·.started) =
        launched.filter (·.delay ≠ 0) :=
      List.filter_eq_self.mpr fun l hl =>
        l.started_of_delay (of_decide_eq_true (List.mem_filter.mp hl).2)
    have hsplit := (filter_delay_perm launched).filter (·.started)
    rw [List.filter_append, hmade] at hsplit
    exact (hwaits.append_left _).trans hsplit
  · refine ((h.filter _).filter _).imp_of_mem fun ha hb hab => .inr ⟨?_, hab⟩
    rw [delay_of_mem ha, delay_of_mem hb]
  · intro a ha b hb
    have hdelay : b.delay ≠ 0 :=
      of_decide_eq_true (List.mem_filter.mp (hwaits.mem_iff.mp hb)).2
    exact .inl (delay_of_mem ha ▸ Nat.pos_of_ne_zero hdelay)

theorem filterMap_call?_started (launched : List Launch) :
    (launched.filter (·.started)).filterMap (·.call?) = launched.filterMap (·.call?) := by
  rw [List.filterMap_filter]
  refine List.filterMap_congr fun l _ => ?_
  obtain ⟨position, errand, _ | a⟩ := l <;> rfl

/-- It takes the longest of the delays until the last of some calls goes on. -/
theorem latest_eq (t x : Nat) (launched : List Launch) :
    Routine.Pool.latest (fun l : Launch => t + l.delay) (t + x) launched =
      t + max x ((launched.map (·.delay)).foldr max 0) := by
  induction launched generalizing x with
  | nil => rw [List.map_nil, List.foldr_nil, Nat.max_zero]; rfl
  | cons l launched ih =>
    have hfirst : max (t + x) (t + l.delay) = t + max x l.delay := by omega
    rw [Routine.Pool.latest, List.foldl_cons, hfirst, List.map_cons, List.foldr_cons,
      ← Nat.max_assoc]
    exact ih (max x l.delay)

/-- The last of the calls that wait goes on when the longest of all delays is over. -/
theorem latest_waits {launched waits : List Launch}
    (hmade : (launched.filter (·.delay = 0)).filter (·.started) ++ waits =
      byDelay (launched.filter (·.started))) (t : Nat) :
    Routine.Pool.latest (fun l : Launch => t + l.delay) t waits =
      t + ((launched.filter (·.started)).map (·.delay)).foldr max 0 := by
  have hnow : ∀ l ∈ (launched.filter (·.delay = 0)).filter (·.started), t + l.delay ≤ t :=
    fun l hl => Nat.le_of_eq (congrArg (t + ·) (delay_of_mem hl))
  have hsame := (List.mergeSort_perm (launched.filter (·.started)) fun a b => a.delay ≤ b.delay).map
    (·.delay)
  calc Routine.Pool.latest (fun l : Launch => t + l.delay) t waits
    _ = Routine.Pool.latest (fun l : Launch => t + l.delay) t
          (byDelay (launched.filter (·.started))) := by
        rw [← hmade, Routine.Pool.latest_append_of_le hnow]
    _ = t + max 0 (((byDelay (launched.filter (·.started))).map (·.delay)).foldr max 0) :=
        latest_eq t 0 _
    _ = t + ((launched.filter (·.started)).map (·.delay)).foldr max 0 := by
        rw [Nat.zero_max, byDelay, hsame.foldr_eq]

/-! ## The round -/

/-- The answers to calls that wait are recorded as these go on. -/
theorem prompt_answering (launched : List Launch) (r : RunState) :
    Routine.Pool.Prompt Untouched settle Answering (·.settled) fun gone s =>
      ∃ log, r.Gains log (gone.filterMap (·.call?)) s.2 ∧ Turns launched log where
  rely := fun h => h ▸ id
  turn := by
    intro l k gone s c hk hgone
    obtain ⟨call, hcall, hdone⟩ := hk
    obtain ⟨log, hgain, hturns⟩ := hgone
    obtain ⟨s', hs', hanswer⟩ := hdone c s
    refine ⟨s', hs', log ++ [call.settlement, .callEnded call.id], ?_, ?_⟩
    · have hrecord := (hgain.trans hanswer).trans (gains_record call s')
      rw [List.append_nil, List.append_nil] at hrecord
      rw [List.filterMap_append, List.filterMap_cons_some hcall, List.filterMap_nil,
        Launch.settle_settled hcall]
      exact hrecord
    · have hall := hturns.append (turns_closing call)
      rwa [List.append_nil] at hall

/-- What has come of a round whose errands were launched so: the calls are returned in the order of
the plan, their turns are over, those that were made are in the transcript in the order in which
they went on, and the timer stands where the longest of them ended. -/
structure Kept (launched : List Launch) (c : Clock) (r : RunState) (c' : Clock) (r' : RunState)
    (calls : List Settled) : Prop where
  returned : calls = launched.map (·.settled)
  turns : ∃ log, r'.occurrences = r.occurrences ++ log ∧ Turns launched log
  transcript : r'.messages.toList = r.messages.toList ++
    ((byDelay (launched.filter (·.started))).filterMap (·.call?)).flatMap (·.exchange)
  timer : c'.timer = c.timer + ((launched.filter (·.started)).map (·.delay)).foldr max 0

/-- The calls of a round that wait go on one after the other. -/
theorem Turned.reaches {launched : List Launch} {c c₁ : Clock} {s₁ : Scene} {r : RunState}
    {waiting : List (Routine.Suspended Scene Settled)} {settled : List Settled}
    (h : Turned launched c r waiting settled c₁ s₁)
    (hincreasing : launched.Pairwise fun a b => a.position < b.position) :
    (Routine.Pool.run settle ⟨[], waiting, []⟩ settled c₁ s₁).Reaches Untouched
      fun c' s' calls => Kept launched c r c' s'.2 (inOrder calls) := by
  obtain ⟨waits, hwaits, hordered, hperm⟩ := h.queue
  have hqueue : Forall₂ (fun l m => Answering l m.resume ∧ m.wake.due = c₁.timer + l.delay)
      waits waiting := hwaits.imp fun _ _ h => ⟨h.answering, h.due⟩
  have hpool := (prompt_answering launched r).reaches (p := ⟨[], waiting, []⟩) (c := c₁) .nil hqueue
    rfl h.done h.books
  refine hpool.mono fun c' s' calls hend => ?_
  obtain ⟨rfl, ⟨log, hgain, hturns⟩, hlatest⟩ := hend
  rw [List.append_nil] at hgain ⊢
  have hmade := append_eq_byDelay hincreasing hperm hordered
  have hall : (launched.filter (·.delay = 0) ++ waits).Perm launched :=
    (hperm.append_left _).trans (filter_delay_perm launched)
  have hcalls : (launched.filter (·.delay = 0) ++ waits).filterMap (·.call?) =
      (byDelay (launched.filter (·.started))).filterMap (·.call?) := by
    rw [← hmade, List.filterMap_append, List.filterMap_append, filterMap_call?_started]
  refine ⟨inOrder_eq (hall.map _) (List.pairwise_map.mpr hincreasing),
    ⟨log, hgain.occurrences, hturns⟩, ?_, ?_⟩
  · rw [hgain.messages, hcalls]
  · rw [hlatest, latest_waits hmade, h.timer]

/-- **The timetable of a round.** The turns of its errands come in the order of the plan, all before
the timer moves, and no call begins later. The round ends as `Kept` says, whatever others do to the
memory of the orchestration meanwhile and however long they hold up the clock; so it does if nobody
interferes. -/
theorem round_keeps_timetable (deadline : Deadline) (errands : List Errand) (c : Clock)
    (s : Scene) :
    let launched := launches deadline errands 0 c.now s.1
    let round := dispatchRound deadline (errands.map (·.dispatch)) c s
    launched.map (·.errand) = errands ∧
      launched.map (·.position) = List.range errands.length ∧
      (round.pause.1.timer = c.timer ∧
        ∃ log, round.pause.2.2.occurrences = s.2.occurrences ++ log ∧ Turns launched log) ∧
      round.Reaches Untouched (fun c' s' calls => Kept launched c s.2 c' s'.2 calls) ∧
      Kept launched c s.2 round.finish.1 round.finish.2.1.2 round.finish.2.2 := by
  intro launched round
  have hpositions : launched.map (·.position) = List.range' 0 errands.length :=
    positions_launches deadline errands 0 c.now s.1
  have hincreasing : launched.Pairwise fun a b => a.position < b.position := by
    have hrange : (launched.map (·.position)).Pairwise (· < ·) :=
      hpositions ▸ List.pairwise_lt_range' 1
    exact List.pairwise_map.mp hrange
  have hstart : Turned [] c s.2 [] [] c s :=
    ⟨rfl, rfl, ⟨[], .nil, .nil, .refl _⟩, [], .refl _, rfl, rfl⟩
  obtain ⟨c₁, s₁, waiting, settled, hrun, hturned⟩ := run_launches errands hstart nofun
  have hround : round = (Routine.Pool.run settle ⟨[], waiting, []⟩ settled c₁ s₁).andThen
      fun calls => pure (inOrder calls) :=
    congrArg (fun p => p.andThen fun calls => pure (inOrder calls)) hrun
  have hpause : round.pause = (c₁, s₁) := by
    rw [hround, Progress.pause_andThen _ _ fun _ _ _ => rfl, Routine.Pool.pause_run]
  have hreaches : round.Reaches Untouched fun c' s' calls => Kept launched c s.2 c' s'.2 calls := by
    rw [hround, Progress.reaches_andThen]
    exact hturned.reaches hincreasing
  have hself : ∀ s, Untouched s s := fun _ => rfl
  obtain ⟨log, hgain, hturns⟩ := hturned.books
  refine ⟨errands_launches .., ?_, ?_, hreaches, hreaches.finish hself⟩
  · rw [hpositions, List.range_eq_range']
  · rw [hpause]
    exact ⟨hturned.timer, log, hgain.occurrences, hturns⟩

end Run

end Ensemble
