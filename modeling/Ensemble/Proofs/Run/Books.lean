import Ensemble.Run.State

/-!
# The books of a run

A run keeps books in three places: the journal, the transcript and the results per participant.
`CallLog` and `RoundLog` say which journals there are, by the calls that they report: calls overlap
in any way, but each begins, settles and ends in this order, and no round ends before its calls.
`RunState.Gains` says that two states of a run differ by a stretch of the journal and the records of
the calls that were settled in it.
-/

namespace Ensemble

/-- Whom a planned call is for, and with what message. -/
def Dispatch.address (d : Dispatch) : String × Message := (d.member.id, d.message)

/-- A call that has been made and how the participant answered it. -/
structure Call where
  dispatch : Dispatch
  answer : Except String Message

namespace Call

/-- The participant that was called. -/
def id (c : Call) : String := c.dispatch.member.id

/-- The message that answers the call, or that records its failure. -/
def reply (c : Call) : Message :=
  match c.answer with
  | .ok m => m
  | .error detail => .failure c.id detail

/-- How the call came out. -/
def outcome (c : Call) : Outcome :=
  match c.answer with
  | .ok m => .response m
  | .error detail => .failed (.failure c.id detail)

/-- What the journal says of the answer. -/
def settlement (c : Call) : Occurrence :=
  match c.answer with
  | .ok m => .replied c.id m
  | .error detail => .failed c.id detail

/-- What the transcript shows of the call. -/
def exchange (c : Call) : List Message := [c.dispatch.message, c.reply]

@[simp] theorem reply?_outcome (c : Call) : c.outcome.reply? = some c.reply := by
  obtain ⟨d, a⟩ := c
  cases a <;> rfl

end Call

/-- The call, if it was made. -/
def Settled.call? (a : Settled) : Option Call :=
  match a.outcome with
  | .response m => some ⟨a.dispatch, .ok m⟩
  | .failed record => some ⟨a.dispatch, .error record.content⟩
  | .skipped => none

@[simp] theorem Settled.call?_outcome (n : Nat) (c : Call) :
    (Settled.mk n c.dispatch c.outcome).call? = some c := by
  obtain ⟨d, a⟩ := c
  cases a <;> rfl

/-- The participant and the message, if the call was skipped. -/
def Settled.skipped? (a : Settled) : Option (String × Message) :=
  if a.outcome.isSkipped then some a.dispatch.address else none

@[simp] theorem Settled.skipped?_outcome (n : Nat) (c : Call) :
    (Settled.mk n c.dispatch c.outcome).skipped? = none := by
  obtain ⟨d, a⟩ := c
  cases a <;> rfl

/-- A call that was not made was skipped. -/
theorem Settled.skipped?_of_call? {a : Settled} (h : a.call? = none) :
    a.skipped? = some a.dispatch.address := by
  obtain ⟨n, d, o⟩ := a
  cases o <;> first | rfl | cases h

theorem Settled.dispatch_of_call? {a : Settled} {c : Call} (h : a.call? = some c) :
    c.dispatch = a.dispatch := by
  obtain ⟨n, d, o⟩ := a
  cases o <;> cases h <;> rfl

namespace Occurrence

/-- The participant and the message of a call that begins. -/
def begun? : Occurrence → Option (String × Message)
  | callBegun id m => some (id, m)
  | _ => none

/-- The participant and the answer of a call that settles. -/
def settled? : Occurrence → Option (String × Except String Message)
  | replied id m => some (id, .ok m)
  | failed id detail => some (id, .error detail)
  | _ => none

/-- The participant and the message of a planned call that is skipped. -/
def skipped? : Occurrence → Option (String × Message)
  | callSkipped id m => some (id, m)
  | _ => none

/-- The round that is refused. -/
def refused? : Occurrence → Option Nat
  | roundRefused n => some n
  | _ => none

/-- Whether a round begins. -/
def beginsRound : Occurrence → Bool
  | roundBegun _ => true
  | _ => false

end Occurrence

@[simp] theorem Call.begun?_settlement (c : Call) : c.settlement.begun? = none := by
  obtain ⟨d, a⟩ := c
  cases a <;> rfl

@[simp] theorem Call.settled?_settlement (c : Call) :
    c.settlement.settled? = some (c.id, c.answer) := by
  obtain ⟨d, a⟩ := c
  cases a <;> rfl

@[simp] theorem Call.skipped?_settlement (c : Call) : c.settlement.skipped? = none := by
  obtain ⟨d, a⟩ := c
  cases a <;> rfl

@[simp] theorem Call.beginsRound_settlement (c : Call) :
    c.settlement.beginsRound = false := by
  obtain ⟨d, a⟩ := c
  cases a <;> rfl

/-! ## Journals -/

/-- The stretches of a journal in which calls are made and nothing else happens: `pending` are those
that have begun and not settled, `calls` those that have settled, in the order of settling. -/
inductive CallLog : (pending : List Dispatch) → (calls : List Call) → List Occurrence → Prop where
  | start : CallLog [] [] []
  | begun {pending calls log} (d : Dispatch) : CallLog pending calls log →
      CallLog (d :: pending) calls (log ++ [.callBegun d.member.id d.message])
  | skipped {pending calls log} (d : Dispatch) : CallLog pending calls log →
      CallLog pending calls (log ++ [.callSkipped d.member.id d.message])
  | settled {pending calls log} (c : Call) : CallLog (c.dispatch :: pending) calls log →
      CallLog pending (calls ++ [c]) (log ++ [c.settlement, .callEnded c.id])
  | perm {pending pending' calls log} : pending.Perm pending' → CallLog pending calls log →
      CallLog pending' calls log

/-- The journals of `rounds` rounds, each with all its calls between its begin and its end. -/
inductive RoundLog : (rounds : Nat) → (calls : List Call) → List Occurrence → Prop where
  | start : RoundLog 0 [] []
  | refused {rounds calls log} (n : Nat) : RoundLog rounds calls log →
      RoundLog rounds calls (log ++ [.roundRefused n])
  | round {rounds calls log calls' body} : RoundLog rounds calls log → CallLog [] calls' body →
      RoundLog (rounds + 1) (calls ++ calls')
        (log ++ .roundBegun rounds :: (body ++ [.roundEnded rounds]))

/-- The journals of one planned call: it is skipped, or it is made from its begin to its end. -/
inductive SingleLog (d : Dispatch) : (calls : List Call) → List Occurrence → Prop where
  | skipped : SingleLog d [] [.callSkipped d.member.id d.message]
  | made (answer : Except String Message) : SingleLog d [⟨d, answer⟩]
      [.callBegun d.member.id d.message, (Call.mk d answer).settlement, .callEnded d.member.id]

/-- Calls that are made when all earlier ones have settled. -/
theorem CallLog.append {pending : List Dispatch} {calls calls' : List Call}
    {log log' : List Occurrence} (h : CallLog [] calls log) (h' : CallLog pending calls' log') :
    CallLog pending (calls ++ calls') (log ++ log') := by
  induction h' with
  | start => rwa [List.append_nil, List.append_nil]
  | begun d _ ih => rw [← List.append_assoc]; exact .begun d ih
  | skipped d _ ih => rw [← List.append_assoc]; exact .skipped d ih
  | settled c _ ih => rw [← List.append_assoc, ← List.append_assoc]; exact .settled c ih
  | perm hp _ ih => exact .perm hp ih

theorem SingleLog.callLog {d : Dispatch} {calls : List Call} {log : List Occurrence}
    (h : SingleLog d calls log) : CallLog [] calls log := by
  cases h with
  | skipped => exact .skipped d .start
  | made answer => exact .settled ⟨d, answer⟩ (.begun d .start)

theorem SingleLog.dispatch_eq {d : Dispatch} {calls : List Call} {log : List Occurrence}
    (h : SingleLog d calls log) : ∀ call ∈ calls, call.dispatch = d := by
  cases h with
  | skipped => simp
  | made answer => simp

namespace CallLog

variable {pending : List Dispatch} {calls : List Call} {log : List Occurrence}

/-- The calls that begin are those that settle and those that are still pending. -/
theorem begun_perm (h : CallLog pending calls log) :
    (log.filterMap (·.begun?)).Perm
      ((pending ++ calls.map (·.dispatch)).map fun d => (d.member.id, d.message)) := by
  induction h with
  | start => exact List.Perm.refl _
  | begun d _ ih =>
    rw [List.filterMap_append]
    exact (List.perm_append_singleton _ _).trans (ih.cons _)
  | skipped d _ ih =>
    rw [List.filterMap_append]
    exact (List.append_nil _).symm ▸ ih
  | @settled pending calls log c _ ih =>
    have hlog : (log ++ [c.settlement, .callEnded c.id]).filterMap (·.begun?) =
        log.filterMap (·.begun?) := by
      rw [List.filterMap_append, List.filterMap_cons, Call.begun?_settlement]
      exact List.append_nil _
    have hcalls : (calls ++ [c]).map (·.dispatch) = calls.map (·.dispatch) ++ [c.dispatch] :=
      List.map_append
    rw [hlog, hcalls, ← List.append_assoc]
    -- the call moves from the front of the pending ones to the end of the settled ones
    exact ih.trans ((List.perm_append_singleton c.dispatch _).symm.map _)
  | perm hp _ ih => exact ih.trans ((hp.append_right _).map _)

/-- Calls settle in the order in which the log lists them. -/
theorem settled_eq (h : CallLog pending calls log) :
    log.filterMap (·.settled?) = calls.map fun c => (c.id, c.answer) := by
  induction h with
  | start => rfl
  | begun d _ ih => rw [List.filterMap_append, ih]; exact List.append_nil _
  | skipped d _ ih => rw [List.filterMap_append, ih]; exact List.append_nil _
  | settled c _ ih =>
    rw [List.filterMap_append, ih, List.filterMap_cons, Call.settled?_settlement, List.map_append]
    rfl
  | perm _ _ ih => exact ih

theorem countP_beginsRound (h : CallLog pending calls log) : log.countP (·.beginsRound) = 0 := by
  induction h with
  | start => rfl
  | begun d _ ih => rw [List.countP_append, ih]; rfl
  | skipped d _ ih => rw [List.countP_append, ih]; rfl
  | settled c _ ih =>
    rw [List.countP_append, ih, List.countP_cons, Call.beginsRound_settlement]
    rfl
  | perm _ _ ih => exact ih

end CallLog

namespace RoundLog

variable {rounds : Nat} {calls : List Call} {log : List Occurrence}

theorem begun_perm (h : RoundLog rounds calls log) :
    (log.filterMap (·.begun?)).Perm (calls.map fun c => (c.id, c.dispatch.message)) := by
  induction h with
  | start => exact List.Perm.refl _
  | refused n _ ih =>
    rw [List.filterMap_append]
    exact (List.append_nil _).symm ▸ ih
  | round _ hbody ih =>
    have hcalls := hbody.begun_perm
    rw [List.nil_append, List.map_map] at hcalls
    simp only [List.filterMap_append, List.filterMap_cons, List.filterMap_nil, List.map_append]
    exact ih.append ((List.append_nil _).symm ▸ hcalls)

theorem settled_eq (h : RoundLog rounds calls log) :
    log.filterMap (·.settled?) = calls.map fun c => (c.id, c.answer) := by
  induction h with
  | start => rfl
  | refused n _ ih => rw [List.filterMap_append, ih]; exact List.append_nil _
  | round _ hbody ih =>
    simp only [List.filterMap_append, List.filterMap_cons, List.filterMap_nil, ih,
      hbody.settled_eq, List.map_append]
    simp [Occurrence.settled?]

theorem countP_beginsRound (h : RoundLog rounds calls log) :
    log.countP (·.beginsRound) = rounds := by
  induction h with
  | start => rfl
  | refused n _ ih => rw [List.countP_append, ih]; rfl
  | round _ hbody ih =>
    rw [List.countP_append, ih, List.countP_cons, List.countP_append, hbody.countP_beginsRound]
    rfl

end RoundLog

/-! ## The state of a run -/

namespace RunState

/-- What has happened so far, in order. -/
def occurrences (r : RunState) : List Occurrence := r.journal.toList.map (·.occurrence)

/-- From `r` to `r'` the journal has grown by `log`, and the calls have been recorded, each in the
transcript and among the results of its participant. -/
structure Gains (log : List Occurrence) (calls : List Call) (r r' : RunState) : Prop where
  occurrences : r'.occurrences = r.occurrences ++ log
  messages : r'.messages.toList = r.messages.toList ++ calls.flatMap (·.exchange)
  results : r'.results = calls.foldl (fun l c => l.push c.id c.reply) r.results
  rounds : r'.rounds = r.rounds + log.countP (·.beginsRound)

theorem Gains.refl (r : RunState) : Gains [] [] r r := by
  constructor <;> simp

theorem Gains.trans {log log' : List Occurrence} {calls calls' : List Call} {r r' r'' : RunState}
    (h : Gains log calls r r') (h' : Gains log' calls' r' r'') :
    Gains (log ++ log') (calls ++ calls') r r'' where
  occurrences := by rw [h'.occurrences, h.occurrences, List.append_assoc]
  messages := by rw [h'.messages, h.messages, List.flatMap_append, List.append_assoc]
  results := by rw [h'.results, h.results, List.foldl_append]
  rounds := by rw [h'.rounds, h.rounds, List.countP_append, Nat.add_assoc]

end RunState

end Ensemble
