import Ensemble.Network.Registry
import Ensemble.Routine.Pool

/-!
# Delegation

A task is delegated to a registered agent if the topology allows it, under a timeout: the handler's
answer counts unless the handler waits beyond the due moment of the timeout. Every timeout has a due
moment, however long it is, and every delegation ends with a result. A broadcast delegates one task
to all agents with some capabilities at once.
-/

namespace Ensemble

/-- Who may delegate to whom. -/
inductive Topology where
  /-- Anyone to anyone. -/
  | mesh
  /-- Through a hub, which is taken to reach everyone. -/
  | star (hub : String)
  /-- Only the parent of the target to it; parents are listed by child. -/
  | hierarchical (parents : Dict String)

/-- The settings of a network. -/
structure NetworkConfig where
  topology : Topology := .mesh
  /-- The timeout in milliseconds of requests that have none of their own. -/
  defaultTimeoutMs : UInt64 := 30000

namespace NetworkConfig

/-- The configuration with another topology. -/
def withTopology (c : NetworkConfig) (t : Topology) : NetworkConfig := { c with topology := t }

/-- Sets the default timeout, in a word of whole milliseconds. -/
def withDefaultTimeout (c : NetworkConfig) (t : Duration) : NetworkConfig :=
  { c with defaultTimeoutMs := t.millisWord }

/-- The timeout of requests that have none of their own. -/
def defaultTimeout (c : NetworkConfig) : Duration := .ofMillis c.defaultTimeoutMs

end NetworkConfig

/-- A task handed from one agent to another. -/
structure DelegationRequest where
  sender : String
  target : String
  task : String
  context : Option Metadata := none
  timeout : Option Duration := none

/-- How a delegation came out. -/
structure DelegationResult where
  agent : String
  success : Bool
  result : Option String
  error : Option String
  duration : Duration

namespace DelegationResult

/-- The result of an agent that answered. -/
def succeeded (agent result : String) (duration : Duration) : DelegationResult :=
  ⟨agent, true, some result, none, duration⟩

/-- The result of a delegation without an answer. -/
def failed (agent error : String) (duration : Duration) : DelegationResult :=
  ⟨agent, false, none, some error, duration⟩

end DelegationResult

/-- Why the handler did not answer. -/
inductive DelegationFault where
  | unknownAgent (name : String)
  | notParent (sender target : String)
  | timedOut (agent : String) (ms : UInt64)

/-- The wording of a fault. -/
def DelegationFault.message : DelegationFault → String
  | unknownAgent name => "agent '" ++ name ++ "' not found"
  | notParent sender target =>
    "hierarchical topology: '" ++ sender ++ "' is not parent of '" ++ target ++ "'"
  | timedOut agent ms =>
    "delegation to '" ++ agent ++ "' exceeded " ++ toString ms.toNat ++ "ms timeout"

/-- Why a topology forbids a request, if it does. -/
def Topology.fault? (t : Topology) (r : DelegationRequest) : Option DelegationFault :=
  match t with
  | .hierarchical parents =>
    if parents.find? r.target = some r.sender then none else some (.notParent r.sender r.target)
  | _ => none

/-- What a handler does with a request, step by step: it loses time, it waits for the timer, and in
the end it answers or never does. -/
inductive Handling where
  | answer (outcome : Except String String)
  | stall (ms : Nat) (next : Handling)
  | wait (ms : Nat) (next : Handling)
  | hang

/-- A call of the handler. -/
structure HandlerCall where
  agent : NetworkAgent
  request : DelegationRequest

/-- A handler: what it does, by the calls before it, the agent and the request. -/
abbrev DelegationHandler := List HandlerCall → NetworkAgent → DelegationRequest → Handling

/-- What a network keeps: its registry, and the calls of its handler in their order. -/
structure NetworkState where
  registry : Registry
  calls : List HandlerCall

/-- A network. -/
structure Network where
  config : NetworkConfig
  handler : DelegationHandler

namespace Network

/-- Notes a call of the handler; the calls before it. -/
def noteCall (agent : NetworkAgent) (r : DelegationRequest) :
    Routine NetworkState (List HandlerCall) := fun c s =>
  .done c { s with calls := s.calls ++ [⟨agent, r⟩] } s.calls

/-- Works through a handling, but waits no longer than the time granted; without an answer if that
does not do. -/
def within {σ : Type} : Nat → Handling → Routine σ (Option (Except String String))
  | _, .answer outcome => pure (some outcome)
  | granted, .stall ms next => do
    Routine.stall ms
    within granted next
  | granted, .wait ms next =>
    if ms ≤ granted then do
      Routine.delay ms
      within (granted - ms) next
    else do
      Routine.delay granted
      pure none
  | granted, .hang => do
    Routine.delay granted
    pure none

/-- The time since a moment. -/
def elapsedSince {σ : Type} (started : Nat) : Routine σ Duration := do
  let c ← Routine.clock
  return .ofMillis (UInt64.ofNat (c.now - started))

/-- Lets a handler do what it does for an agent under a timeout, which is rounded up to a whole
millisecond, and reports how that came out. -/
def attend {σ : Type} (agent : NetworkAgent) (timeout : Duration) (handling : Handling) :
    Routine σ DelegationResult := do
  let started := (← Routine.clock).now
  let outcome ← within timeout.ceilMillis handling
  let duration ← elapsedSince started
  match outcome with
  | some (.ok result) => return .succeeded agent.name result duration
  | some (.error detail) => return .failed agent.name detail duration
  | none =>
    return .failed agent.name (DelegationFault.timedOut agent.name timeout.millisWord).message
      duration

/-- The time that a request has. -/
def timeoutOf (n : Network) (r : DelegationRequest) : Duration :=
  r.timeout.getD n.config.defaultTimeout

/-- Calls the handler for an agent under the timeout of the request. -/
def dispatch (n : Network) (agent : NetworkAgent) (r : DelegationRequest) :
    Routine NetworkState DelegationResult := do
  let earlier ← noteCall agent r
  attend agent (n.timeoutOf r) (n.handler earlier agent r)

/-- Delegates a task to one agent. -/
def delegate (n : Network) (r : DelegationRequest) : Routine NetworkState DelegationResult := do
  let s ← Routine.get
  match s.registry.find? r.target with
  | none =>
    return .failed r.target (DelegationFault.unknownAgent r.target).message .zero
  | some agent =>
    match n.config.topology.fault? r with
    | some f => return .failed r.target f.message .zero
    | none => n.dispatch agent r

/-- The sender of broadcast requests. -/
def broadcastSender : String := "network"

/-- The request that a broadcast makes to an agent. -/
def broadcastRequest (task : String) (context : Option Metadata) (agent : NetworkAgent) :
    DelegationRequest :=
  { sender := broadcastSender, target := agent.name, task, context }

/-- The part of a broadcast that concerns one agent; the result goes with its place. -/
def broadcastTask (n : Network) (task : String) (context : Option Metadata)
    (p : NetworkAgent × Nat) : Routine NetworkState (Nat × DelegationResult) := do
  let result ← n.dispatch p.1 (broadcastRequest task context p.1)
  pure (p.2, result)

/-- Delegates a task to every agent with some capabilities at once; the results come in the order
of registration. -/
def broadcast (n : Network) (task : String) (capabilities : List String)
    (context : Option Metadata) : Routine NetworkState (List DelegationResult) := do
  let s ← Routine.get
  let tasks := (s.registry.discover capabilities).zipIdx.map (n.broadcastTask task context)
  let results ← Routine.together (fun _ s => s) tasks
  return (results.mergeSort fun a b => a.1 ≤ b.1).map (·.2)

end Network

end Ensemble
