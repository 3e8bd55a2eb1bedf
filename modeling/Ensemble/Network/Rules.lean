import Ensemble.Json.Printer
import Ensemble.Network.Delegation
import Ensemble.Text.Template
import Ensemble.Wire.Fields

/-!
# Handlers that follow rules

The first rule that fits the agent and the task says what the handler does; its texts are templates
over the agent, the request and the call.
-/

namespace Ensemble

/-- What a handler does with the requests that fit. -/
structure HandlerRule where
  agent : Option String := none
  task : Option String := none
  reply : String := "\x7bagent\x7d did \x7btask\x7d"
  fail : Option String := none
  delay : Nat := 0
  stall : Nat := 0
  hang : Bool := false

namespace HandlerRule

/-- Whether a rule fits an agent and a task: what it leaves open fits everything. -/
def fits (rule : HandlerRule) (agent task : String) : Bool :=
  rule.agent.all (· == agent) && rule.task.all (· == task)

/-- The first rule that fits, or the rule that leaves everything as it is. -/
def choose (rules : List HandlerRule) (agent task : String) : HandlerRule :=
  (rules.find? fun r => r.fits agent task).getD {}

/-- The compact text of a value that may be absent. -/
def compactOr (v : Option Json) : String := (v.getD .null).compact

/-- The value of a name in a template. -/
def valueOf? (call : Nat) (a : NetworkAgent) (r : DelegationRequest) (name : String) :
    Option String :=
  match name with
  | "agent" => some a.name
  | "caps" => some (",".intercalate a.capabilities)
  | "from" => some r.sender
  | "to" => some r.target
  | "task" => some r.task
  | "call" => some (toString call)
  | "agent_metadata" => some (compactOr (a.metadata.map Metadata.toJson))
  | "timeout" => some (compactOr (r.timeout.map Wire.duration))
  | "context" => some (compactOr (r.context.map Metadata.toJson))
  | name =>
    if "ctx.".toList.isPrefixOf name.toList then
      some (compactOr (r.context.bind (·.find? (String.ofList (name.toList.drop 4)))))
    else none

/-- What a handler with the rules given does. -/
def handler (rules : List HandlerRule) : DelegationHandler := fun earlier a r =>
  let rule := choose rules a.name r.task
  let fill := Text.fill (valueOf? earlier.length a r)
  let answer : Handling := .answer <| match rule.fail with
    | some f => .error (fill f)
    | none => .ok (fill rule.reply)
  let delay := min rule.delay Routine.longestDelay
  .stall rule.stall (if rule.hang then .hang else .wait delay answer)

end HandlerRule

end Ensemble
