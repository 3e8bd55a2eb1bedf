import Ensemble.Orchestration

/-!
# Participants

A participant answers messages. What it does at a call is an `Action`, which depends on the number
of the call and on the message alone: it may cancel its orchestration, lose time, wait, and in the
end reply or fail. A nested participant replies with the output of an orchestration of its own,
which has its own participants and its own cancellation and keeps its memory between calls.
-/

namespace Ensemble

/-- What a participant does at a call, in the order of the fields. -/
structure Action where
  cancelsBefore : Bool := false
  stall : Nat := 0
  delay : Nat := 0
  cancelsAfter : Bool := false
  /-- The reply, or why there is none. -/
  outcome : Except String Message

/-- What a participant does at each call, by the number of calls before it and the message. -/
abbrev Behaviour := Nat → Message → Action

/-- What is said about a participant. -/
structure Profile where
  id : String
  role : String
  instructions : String
deriving DecidableEq

/-- How a participant is shown. -/
def Profile.describe (p : Profile) : String :=
  Text.record "FnParticipant" [("id", Text.quote p.id), ("role", Text.quote p.role)]

/-- An opaque unit of work that is coordinated with others. -/
inductive Participant where
  | simple (profile : Profile) (behaviour : Behaviour)
  | nested (profile : Profile) (behaviour : Behaviour) (team : List Participant)
      (options : Options)

namespace Participant

/-- A participant that says back what it is told. -/
instance : Inhabited Participant := ⟨simple ⟨"", "", ""⟩ fun _ m => { outcome := .ok m }⟩

/-- What is said about the participant. -/
def profile : Participant → Profile
  | simple p _ => p
  | nested p _ _ _ => p

/-- The name of the participant. -/
def id (p : Participant) : String := p.profile.id

/-- Counts a call of the participant at a position; the number of calls before it. -/
def countCall (position : Nat) : Routine Memory Nat := fun c m =>
  .done c (m.setMember position (m.member position).countCall) (m.member position).calls

/-- A call of the participant at a position. The reply of its action passes through `reply`, at the
moment at which it is made. -/
def answer (position : Nat) (behaviour : Behaviour)
    (reply : Message → Message → Routine Memory (Except String Message)) (message : Message) :
    Routine Memory (Except String Message) := do
  let n ← countCall position
  let action := behaviour n message
  if action.cancelsBefore then
    Routine.modify Memory.cancel
  Routine.stall action.stall
  Routine.delay action.delay
  let outcome ← match action.outcome with
    | .ok m => reply message m
    | .error detail => pure (.error detail)
  if action.cancelsAfter then
    Routine.modify Memory.cancel
  return outcome

/-- The reply is the action's own. -/
def ownReply (_ m : Message) : Routine Memory (Except String Message) := pure (.ok m)

/-- The reply has the output of the orchestration inside for its content. -/
def innerReply (position : Nat) (inner : Except Error Orchestration) (message m : Message) :
    Routine Memory (Except String Message) :=
  match inner with
  | .error e => pure (.error e.message)
  | .ok o => do
    let result ← (o.perform default message.content).zoom (Memory.member position)
      (fun own m => m.setMember position own)
    return .ok { m with content := result.output }

mutual

/-- The participant as a member at a position of an orchestration. -/
def member (position : Nat) : Participant → Member
  | simple p behaviour => ⟨p.id, answer position behaviour ownReply⟩
  | nested p behaviour team options =>
    ⟨p.id, answer position behaviour
      (innerReply position (Orchestration.build (members 0 team) options))⟩

/-- Participants as members from a position on. -/
def members (position : Nat) : List Participant → List Member
  | [] => []
  | p :: rest => member position p :: members (position + 1) rest

end

/-- Calls a participant that takes part in nothing, at the first position of a world. -/
def execute (p : Participant) (m : Message) (w : World) : World × Except String Message :=
  let (clock, memory, reply) := ((p.member 0).handle m w.clock w.memory).finish
  (⟨clock, memory⟩, reply)

end Participant

/-- The orchestration of participants under options that fit them. -/
def Orchestration.ofParticipants (participants : List Participant) (options : Options) :
    Except Error Orchestration :=
  build (Participant.members 0 participants) options

end Ensemble
