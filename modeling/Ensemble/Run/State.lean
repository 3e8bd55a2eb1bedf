import Ensemble.Routine.Pool
import Ensemble.Run.Memory
import Ensemble.Run.Result

/-!
# The state of a run

A run works on a scene: the memory of its orchestration, and what the run itself has gathered. It
calls participants, records each call that is done, and keeps a journal of everything that happens
with the moment at which it did; the live events of the run are the part of the journal that is
announced.
-/

namespace Ensemble

/-- A participant, as a run sees it: a name and a way to handle a message, which works on the
memory of the orchestration it takes part in. A failure is a text. -/
structure Member where
  id : String
  handle : Message → Routine Memory (Except String Message)

/-- What can happen in a run. -/
inductive Occurrence where
  | roundBegun (round : Nat)
  | roundRefused (round : Nat)
  | roundEnded (round : Nat)
  | callBegun (id : String) (message : Message)
  | callSkipped (id : String) (message : Message)
  | replied (id : String) (reply : Message)
  | failed (id : String) (detail : String)
  | callEnded (id : String)

/-- The announcement of an occurrence, if it has one. -/
def Occurrence.event? : Occurrence → Option Event
  | roundBegun n => some (.roundStart n)
  | roundRefused _ => none
  | roundEnded n => some (.roundEnd n)
  | callBegun id _ => some (.agentStart id)
  | callSkipped _ _ => none
  | replied id m => some (.message id m)
  | failed id detail => some (.error (some id) detail)
  | callEnded id => some (.agentEnd id)

/-- Something that happened, the moment of the clock at which it did, and whether the orchestration
was cancelled then. -/
structure Entry where
  occurrence : Occurrence
  moment : Nat
  cancelled : Bool

/-- What a run has gathered. -/
structure RunState where
  journal : Array Entry
  messages : Array Message
  results : AgentResults
  rounds : Nat
  blackboard : Metadata

namespace RunState

/-- The state at the start of a run of participants with the ids given. -/
def initial (ids : List String) : RunState := ⟨#[], #[], .seeded ids, 0, Dict.empty⟩

/-- The events announced so far. -/
def events (r : RunState) : List Event := r.journal.toList.filterMap (·.occurrence.event?)

/-- The events among the entries from a position of the journal on. -/
def eventsFrom (r : RunState) (position : Nat) : List Event :=
  (r.journal.toList.drop position).filterMap (·.occurrence.event?)

end RunState

/-- What a run works on. -/
abbrev Scene := Memory × RunState

/-- A call of a participant that is planned. -/
structure Dispatch where
  member : Member
  message : Message

/-- How a call came out. -/
inductive Outcome where
  | response (reply : Message)
  /-- The participant failed; the message records it. -/
  | failed (record : Message)
  /-- The run was stopping, the participant was not called. -/
  | skipped

namespace Outcome

/-- The reply of a successful call. -/
def response? : Outcome → Option Message
  | response m => some m
  | _ => none

/-- The message that a call adds to the transcript. -/
def reply? : Outcome → Option Message
  | response m => some m
  | failed m => some m
  | skipped => none

/-- Whether the call was never made. -/
def isSkipped : Outcome → Bool
  | skipped => true
  | _ => false

end Outcome

/-- A planned call that is done, by its position in the plan. -/
structure Settled where
  position : Nat
  dispatch : Dispatch
  outcome : Outcome

namespace Settled

/-- The participant that was called. -/
def id (s : Settled) : String := s.dispatch.member.id

/-- The reply, if there is one, with the id of who gave it. -/
def response? (s : Settled) : Option (String × Message) :=
  s.outcome.response?.map fun m => (s.id, m)

end Settled

namespace Run

/-- Writes into the journal. -/
def note (o : Occurrence) : Routine Scene Unit := fun c s =>
  .done c (s.1, { s.2 with journal := s.2.journal.push ⟨o, c.now, s.1.cancelled⟩ }) ()

/-- Whether no call may start: the orchestration is cancelled or the deadline has passed. -/
def stopping (deadline : Deadline) : Routine Scene Bool := fun c s =>
  .done c s (s.1.cancelled || deadline.passed c.now)

/-- Works on the memory alone. -/
def onMemory {α : Type} (r : Routine Memory α) : Routine Scene α :=
  r.zoom Prod.fst fun m s => (m, s.2)

/-- Calls a participant, unless the run is stopping. A call that has started is never broken off,
and its failure becomes a message. -/
def invoke (deadline : Deadline) (member : Member) (message : Message) :
    Routine Scene Outcome := do
  if ← stopping deadline then
    note (.callSkipped member.id message)
    return .skipped
  note (.callBegun member.id message)
  let outcome ← match ← onMemory (member.handle message) with
    | .ok reply => do
      note (.replied member.id reply)
      pure (Outcome.response reply)
    | .error detail => do
      note (.failed member.id detail)
      pure (Outcome.failed (.failure member.id detail))
  note (.callEnded member.id)
  return outcome

/-- A planned call that is done goes into the transcript and to the results of its participant; one
that was skipped leaves no trace. -/
def record (id : String) (message : Message) (outcome : Outcome) (s : Scene) : Scene :=
  match outcome.reply? with
  | none => s
  | some reply =>
    (s.1, { s.2 with
      messages := (s.2.messages.push message).push reply
      results := s.2.results.push id reply })

/-- Adds a message of the orchestration itself to the transcript. -/
def recordMessage (m : Message) : Routine Scene Unit :=
  Routine.modify fun s => (s.1, { s.2 with messages := s.2.messages.push m })

/-- Calls a participant and records the call. -/
def call (deadline : Deadline) (member : Member) (message : Message) : Routine Scene Outcome := do
  let outcome ← invoke deadline member message
  Routine.modify (record member.id message outcome)
  return outcome

/-- Begins a round, unless the run is stopping; tells whether it has begun. -/
def beginRound (deadline : Deadline) (round : Nat) : Routine Scene Bool := do
  if ← stopping deadline then
    note (.roundRefused round)
    return false
  Routine.modify fun s => (s.1, { s.2 with rounds := s.2.rounds + 1 })
  note (.roundBegun round)
  return true

/-- Ends a round. -/
def endRound (round : Nat) : Routine Scene Unit := note (.roundEnded round)

/-- A planned call as a routine. -/
def perform (deadline : Deadline) (d : Dispatch) (position : Nat) : Routine Scene Settled := do
  let outcome ← invoke deadline d.member d.message
  return ⟨position, d, outcome⟩

/-- The routines of a plan, each with its position. -/
def tasks (deadline : Deadline) (plan : List Dispatch) : List (Routine Scene Settled) :=
  plan.zipIdx.map fun p => perform deadline p.1 p.2

/-- Records a call that is done. -/
def settle (s : Settled) : Scene → Scene := record s.id s.dispatch.message s.outcome

/-- The calls of a plan in its order. -/
def inOrder (calls : List Settled) : List Settled :=
  calls.mergeSort fun a b => a.position ≤ b.position

/-- Makes all calls of a plan at once and waits until all are done. Each is recorded as soon as it
is done; they are returned in the order of the plan. -/
def dispatchRound (deadline : Deadline) (plan : List Dispatch) : Routine Scene (List Settled) := do
  let calls ← Routine.together settle (tasks deadline plan)
  return inOrder calls

/-- Makes the calls of a plan, at most `limit` at a time. They are returned in the order in which
they were done. -/
def dispatchBounded (deadline : Deadline) (limit : Nat) (plan : List Dispatch) :
    Routine Scene (List Settled) :=
  Routine.bounded limit settle (tasks deadline plan)

end Run

end Ensemble
