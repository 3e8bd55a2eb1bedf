import Ensemble.Message
import Ensemble.Options.Basic
import Ensemble.RunId
import Ensemble.Timestamp

/-!
# Results and events

What a run leaves behind, and what it announces while it goes on. Replies are kept twice: in the
transcript, in the order in which calls were done, and per participant.
-/

namespace Ensemble

/-- The replies of one participant, failures included, in the order in which they came. -/
structure AgentTranscript where
  agentId : String
  messages : List Message

/-- The replies of all participants, in registration order. -/
structure AgentResults where
  entries : List AgentTranscript

namespace AgentResults

/-- One empty entry per id. -/
def seeded (ids : List String) : AgentResults := ⟨ids.map fun id => ⟨id, []⟩⟩

/-- The ids of the entries. -/
def ids (r : AgentResults) : List String := r.entries.map (·.agentId)

/-- The replies in the first entry of an id. -/
def find? (r : AgentResults) (id : String) : Option (List Message) :=
  (r.entries.find? fun e => e.agentId == id).map (·.messages)

/-- Adds a reply to the first entry of an id, or in a new entry if there is none. -/
def pushEntry (id : String) (m : Message) : List AgentTranscript → List AgentTranscript
  | [] => [⟨id, [m]⟩]
  | e :: rest =>
    if e.agentId = id then { e with messages := e.messages ++ [m] } :: rest
    else e :: pushEntry id m rest

/-- One more reply of a participant, behind its earlier ones. -/
def push (r : AgentResults) (id : String) (m : Message) : AgentResults :=
  ⟨pushEntry id m r.entries⟩

end AgentResults

/-- What tells one run from every other: an identifier and the moment of its start. -/
structure RunStamp where
  runId : RunId
  startedAt : Timestamp
deriving DecidableEq

instance : Inhabited RunStamp := ⟨⟨default, default⟩⟩

/-- What a run leaves behind. -/
structure RunResult where
  stamp : RunStamp
  output : String
  /-- Dispatched messages and replies, in the order in which the calls were done. -/
  messages : List Message
  pattern : PatternKind
  agentResults : AgentResults
  durationMs : Nat
  /-- The number of rounds begun. -/
  rounds : Nat
  cancelled : Bool
  timedOut : Bool
  /-- The blackboard of a swarm at the end; empty for the other patterns. -/
  blackboard : Metadata

namespace RunResult

/-- The records of failed calls in the transcript. -/
def errors (r : RunResult) : List Message := r.messages.filter (·.isError)

/-- The replies of a participant, none for an unknown one. -/
def agentMessages (r : RunResult) (id : String) : List Message :=
  (r.agentResults.find? id).getD []

end RunResult

/-- What a run announces. -/
inductive Event where
  | agentStart (agentId : String)
  | agentEnd (agentId : String)
  /-- A participant has replied. -/
  | message (agentId : String) (message : Message)
  | roundStart (round : Nat)
  | roundEnd (round : Nat)
  /-- A participant has failed. -/
  | error (agentId : Option String) (error : String)
  /-- The run is over; nothing follows. -/
  | complete (result : RunResult)

/-- A destination of events that passes them on, is switched off, or has lost its listener. -/
inductive EventSink where
  | disabled
  | channel (listening : Bool)

namespace EventSink

/-- The listener is gone. -/
def dropListener : EventSink → EventSink
  | disabled => disabled
  | channel _ => channel false

/-- What the listener gets of an event. An event that nobody hears is no error. -/
def emit (sink : EventSink) (e : Event) : Option Event :=
  match sink with
  | channel true => some e
  | _ => none

end EventSink

end Ensemble
