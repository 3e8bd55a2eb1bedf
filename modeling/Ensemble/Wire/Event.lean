import Ensemble.Run.Result
import Ensemble.Wire.Message

/-!
# Results and events as JSON

An event names its kind beside the fields that only this kind has; the last event of a run carries
the result of the run as a field.

* `runResult` and `runResult?` write and read results.
* `event` and `event?` write and read events.
-/

namespace Ensemble.Wire

/-- The names of the patterns. -/
def patternNames : List (String × PatternKind) := PatternKind.all.map fun k => (k.name, k)

/-- A pattern by its name. -/
def patternKind (k : PatternKind) : Json := k.name

/-- The pattern that a JSON value names. -/
def patternKind? : Json → Option PatternKind := choice? patternNames

/-- A run identifier in groups of digits. -/
def runId (r : RunId) : Json := r.text

/-- The run identifier in a JSON text. -/
def runId? (v : Json) : Option RunId := (text? v).bind RunId.parse?

/-- A moment in universal time. -/
def timestamp (t : Timestamp) : Json := t.text

/-- The moment in a JSON text. -/
def timestamp? (v : Json) : Option Timestamp := (text? v).bind Timestamp.parse?

/-- The replies of one participant. -/
def agentTranscript (t : AgentTranscript) : Json :=
  object [always "agent_id" t.agentId, always "messages" (array message t.messages)]

/-- The replies that a JSON value lists. -/
def agentTranscript? (v : Json) : Option AgentTranscript := do
  let f ← record? ["agent_id", "messages"] v
  let agentId ← required f "agent_id" text?
  let messages ← required f "messages" (list? message?)
  some ⟨agentId, messages⟩

/-- The replies by participant, in the order of the participants. -/
def agentResults (r : AgentResults) : Json := array agentTranscript r.entries

/-- The replies by participant that a JSON value lists. -/
def agentResults? (v : Json) : Option AgentResults :=
  (list? agentTranscript? v).map AgentResults.mk

/-- The fields of a result that do not depend on which run it was. -/
def resultFields (r : RunResult) : List (Option (String × Json)) :=
  [always "output" r.output, always "messages" (array message r.messages),
   always "pattern" (patternKind r.pattern), always "agent_results" (agentResults r.agentResults),
   always "duration_ms" (.nat r.durationMs), always "rounds" (.nat r.rounds),
   always "cancelled" r.cancelled, always "timed_out" r.timedOut,
   always "blackboard" r.blackboard.toJson]

/-- The result of a run, with the stamp that tells it from all others. -/
def runResult (r : RunResult) : Json :=
  object (always "run_id" (runId r.stamp.runId) :: resultFields r ++
    [always "started_at" (timestamp r.stamp.startedAt)])

/-- The result that a JSON value describes, where the pattern is read by the function given; without
a blackboard it is empty. -/
def runResultWith? (pattern? : Json → Option PatternKind) (v : Json) : Option RunResult := do
  let f ← record? ["run_id", "output", "messages", "pattern", "agent_results", "duration_ms",
    "rounds", "cancelled", "timed_out", "blackboard", "started_at"] v
  let runId ← required f "run_id" runId?
  let output ← required f "output" text?
  let messages ← required f "messages" (list? message?)
  let pattern ← required f "pattern" pattern?
  let agentResults ← required f "agent_results" agentResults?
  let durationMs ← required f "duration_ms" count?
  let rounds ← required f "rounds" count?
  let cancelled ← required f "cancelled" flag?
  let timedOut ← required f "timed_out" flag?
  let blackboard ← defaulted f "blackboard" metadata? Dict.empty
  let startedAt ← required f "started_at" timestamp?
  some { stamp := ⟨runId, startedAt⟩, output, messages, pattern, agentResults, durationMs, rounds,
         cancelled, timedOut, blackboard }

/-- The result that a JSON value describes. -/
def runResult? (v : Json) : Option RunResult := runResultWith? patternKind? v

/-- An event whose result, if it has one, is written in a form of its own. -/
def eventWith (result : RunResult → Json) : Event → Json
  | .agentStart id => object [always "type" "agent_start", always "agent_id" id]
  | .agentEnd id => object [always "type" "agent_end", always "agent_id" id]
  | .message id m =>
    object [always "type" "message", always "agent_id" id, always "message" (message m)]
  | .roundStart n => object [always "type" "round_start", always "round" (.nat n)]
  | .roundEnd n => object [always "type" "round_end", always "round" (.nat n)]
  | .error id detail =>
    object [always "type" "error", ifPresent "agent_id" .str id, always "error" detail]
  | .complete r => object [always "type" "complete", always "result" (result r)]

/-- An event: its kind in the field `type`, beside it what happened. -/
def event (e : Event) : Json := eventWith runResult e

/-- The event that a JSON value describes; each kind reads its own fields only. -/
def event? (v : Json) : Option Event := do
  let (tag, rest) ← tagged? "type" v
  match ← text? tag with
  | "agent_start" =>
    let f ← record? ["agent_id"] rest
    some (.agentStart (← required f "agent_id" text?))
  | "agent_end" =>
    let f ← record? ["agent_id"] rest
    some (.agentEnd (← required f "agent_id" text?))
  | "message" =>
    let f ← record? ["agent_id", "message"] rest
    some (.message (← required f "agent_id" text?) (← required f "message" message?))
  | "round_start" =>
    let f ← record? ["round"] rest
    some (.roundStart (← required f "round" count?))
  | "round_end" =>
    let f ← record? ["round"] rest
    some (.roundEnd (← required f "round" count?))
  | "error" =>
    let f ← record? ["agent_id", "error"] rest
    some (.error (← optional f "agent_id" text?) (← required f "error" text?))
  | "complete" =>
    let f ← record? ["result"] rest
    let result? := runResultWith? fun v => patternKind? (emptyAsNull v)
    some (.complete (← required f "result" result?))
  | _ => none

end Ensemble.Wire
