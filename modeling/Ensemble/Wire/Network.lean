import Ensemble.Network.Delegation
import Ensemble.Wire.Fields

/-!
# Agents, topologies and delegations as JSON

What a network is made of and what goes through it. A topology names its kind beside the fields that
only this kind has; everything else is an object of its fields.
-/

namespace Ensemble.Wire

/-- An agent with what it can do. -/
def networkAgent (a : NetworkAgent) : Json :=
  object [always "name" a.name, always "capabilities" (array .str a.capabilities),
    ifPresent "metadata" Metadata.toJson a.metadata]

/-- The agent that a JSON value describes. -/
def networkAgent? (v : Json) : Option NetworkAgent := do
  let f ← record? ["name", "capabilities", "metadata"] v
  let name ← required f "name" text?
  let capabilities ← required f "capabilities" (list? text?)
  let metadata ← optional f "metadata" metadata?
  some { name, capabilities, metadata }

/-- A topology: its kind in the field `type`, beside it what the kind needs. -/
def topology : Topology → Json
  | .mesh => object [always "type" "mesh"]
  | .star hub => object [always "type" "star", always "hub" hub]
  | .hierarchical parents =>
    object [always "type" "hierarchical", always "parents" (mapping .str parents)]

/-- The topology that a JSON value describes; each kind reads its own fields only. -/
def topology? (v : Json) : Option Topology := do
  let (tag, rest) ← tagged? "type" v
  match ← text? tag with
  | "mesh" =>
    nothing? rest
    some .mesh
  | "star" =>
    let f ← record? ["hub"] rest
    some (.star (← required f "hub" text?))
  | "hierarchical" =>
    let f ← record? ["parents"] rest
    some (.hierarchical (← required f "parents" (mapping? text?)))
  | _ => none

/-- The configuration of a network. -/
def networkConfig (c : NetworkConfig) : Json :=
  object [always "topology" (topology c.topology),
    always "default_timeout_ms" (word c.defaultTimeoutMs)]

/-- The configuration that a JSON value describes, with defaults for what is left out. -/
def networkConfig? (v : Json) : Option NetworkConfig := do
  let f ← record? ["topology", "default_timeout_ms"] v
  let base : NetworkConfig := {}
  let topology ← defaulted f "topology" topology? base.topology
  let defaultTimeoutMs ← defaulted f "default_timeout_ms" word? base.defaultTimeoutMs
  some { topology, defaultTimeoutMs }

/-- A request for delegation. -/
def delegationRequest (r : DelegationRequest) : Json :=
  object [always "from" r.sender, always "to" r.target, always "task" r.task,
    ifPresent "context" Metadata.toJson r.context, ifPresent "timeout" duration r.timeout]

/-- The request that a JSON value describes. -/
def delegationRequest? (v : Json) : Option DelegationRequest := do
  let f ← record? ["from", "to", "task", "context", "timeout"] v
  let sender ← required f "from" text?
  let target ← required f "to" text?
  let task ← required f "task" text?
  let context ← optional f "context" metadata?
  let timeout ← optional f "timeout" duration?
  some { sender, target, task, context, timeout }

/-- The result of a delegation: an answer or an error. -/
def delegationResult (r : DelegationResult) : Json :=
  object [always "agent" r.agent, always "success" r.success, ifPresent "result" .str r.result,
    ifPresent "error" .str r.error, always "duration" (duration r.duration)]

/-- The result that a JSON value describes; it need not have exactly one of the two. -/
def delegationResult? (v : Json) : Option DelegationResult := do
  let f ← record? ["agent", "success", "result", "error", "duration"] v
  let agent ← required f "agent" text?
  let success ← required f "success" flag?
  let result ← optional f "result" text?
  let error ← optional f "error" text?
  let duration ← required f "duration" duration?
  some { agent, success, result, error, duration }

end Ensemble.Wire
