import Ensemble.CancelToken
import Ensemble.Pattern.Debate
import Ensemble.Pattern.MapReduce
import Ensemble.Pattern.Pipeline
import Ensemble.Pattern.Supervisor
import Ensemble.Pattern.Swarm

/-!
# Orchestrations

An orchestration is a list of participants and a strategy that fits them; `Orchestration.build` is
the only gate. What it remembers between runs, and the clock, are its world: a run goes from world
to world, either at once (`execute`) or while a reader takes the events one by one (`stream`).
-/

namespace Ensemble

/-- A pattern with everything that it needs. -/
inductive Strategy where
  | supervisor (options : SupervisorOptions) (maxRounds : Nat)
  | swarm (options : SwarmOptions) (maxRounds : Nat)
  | pipeline (options : PipelineOptions)
  | mapReduce (job : MapReduce.Job)
  | debate (options : DebateOptions)

namespace Strategy

/-- The strategy that options ask for, if no function is missing. -/
def ofOptions (o : Options) : Except OptionsFault Strategy :=
  match o.pattern with
  | .supervisor p => .ok (.supervisor p o.maxRounds.toNat)
  | .swarm p => .ok (.swarm p o.maxRounds.toNat)
  | .pipeline p => .ok (.pipeline p)
  | .mapReduce p =>
    match p.split, p.reduce with
    | some split, some reduce =>
      .ok (.mapReduce ⟨split, reduce, p.concurrency.map (·.toNat)⟩)
    | none, _ => .error .noSplit
    | _, none => .error .noReduce
  | .debate p => .ok (.debate p)

/-- The pattern of an orchestration. -/
def kind : Strategy → PatternKind
  | supervisor _ _ => .supervisor
  | swarm _ _ => .swarm
  | pipeline _ => .pipeline
  | mapReduce _ => .mapReduce
  | debate _ => .debate

/-- A run of the strategy up to its output. -/
def run (s : Strategy) (members : List Member) (deadline : Deadline) (input : String) :
    Routine Scene String :=
  match s with
  | supervisor o maxRounds => Supervisor.run o maxRounds members deadline input
  | swarm o maxRounds => Swarm.run o maxRounds members deadline input
  | pipeline o => Pipeline.run o members deadline input
  | mapReduce job => MapReduce.run job members deadline input
  | debate o => Debate.run o members deadline input

end Strategy

/-- Participants and the way they are coordinated. -/
structure Orchestration where
  members : List Member
  strategy : Strategy
  timeout : Option Duration

/-- The clock, and the memory of an orchestration. -/
structure World where
  clock : Clock
  memory : Memory

namespace World

/-- The world of an orchestration that has just been built. -/
def fresh : World := ⟨.start, .fresh⟩

instance : Inhabited World := ⟨fresh⟩

/-- The orchestration is cancelled from outside. -/
def cancel (w : World) : World := { w with memory := w.memory.cancel }

end World

/-- What the reader of a stream does: it may cancel right after an event, and it may stop reading
after so many. Events count from one. -/
structure Reader where
  cancelAt : Option Nat := none
  take : Option Nat := none

namespace Reader

/-- Whether the reader wants no event beyond those it has. -/
def satisfied (r : Reader) (received : Nat) : Bool :=
  match r.take with
  | some n => n ≤ received
  | none => false

/-- The events that the reader receives of a list, having received some before. -/
def receive (r : Reader) (received : Nat) (events : List Event) : List Event :=
  match r.take with
  | some n => events.take (n - received)
  | none => events

/-- The memory after the reader has received events, having received some before. -/
def react (r : Reader) (received : Nat) (events : List Event) (m : Memory) : Memory :=
  match r.cancelAt with
  | some k => if received < k ∧ k ≤ received + events.length then m.cancel else m
  | none => m

end Reader

namespace Orchestration

/-- The ids of the participants, in registration order. -/
def ids (o : Orchestration) : List String := o.members.map (·.id)

/-- The orchestration of participants under options that fit them. -/
def build (members : List Member) (options : Options) : Except Error Orchestration := do
  options.validate (members.map (·.id))
  match Strategy.ofOptions options with
  | .error f => .error f.toError
  | .ok strategy => .ok ⟨members, strategy, options.timeout⟩

/-- How an orchestration is shown. -/
def describe (o : Orchestration) (cancelled : Bool) : String :=
  Text.record "Orchestration"
    [("pattern", o.strategy.kind.describe),
     ("participants", Text.bracketed (o.ids.map Text.quote)),
     ("cancel", describeToken cancelled),
     ("timeout", Text.optional (o.timeout.map (·.describe)))]

/-- The result of a run that started at a moment, made when it has its output. -/
def conclude (o : Orchestration) (stamp : RunStamp) (deadline : Deadline) (started : Nat)
    (output : String) : Routine Scene RunResult := fun c s =>
  .done c s
    { stamp
      output
      messages := s.2.messages.toList
      pattern := o.strategy.kind
      agentResults := s.2.results
      durationMs := c.now - started
      rounds := s.2.rounds
      cancelled := s.1.cancelled
      timedOut := deadline.passed c.now
      blackboard := s.2.blackboard }

/-- A run. -/
def drive (o : Orchestration) (stamp : RunStamp) (input : String) : Routine Scene RunResult := do
  let started := (← Routine.clock).now
  let deadline := Deadline.after started o.timeout
  let output ← o.strategy.run o.members deadline input
  o.conclude stamp deadline started output

/-- A run as a routine on the memory alone, which is how one orchestration runs inside another. -/
def perform (o : Orchestration) (stamp : RunStamp) (input : String) : Routine Memory RunResult :=
  Prod.fst <$> (o.drive stamp input).keeping (RunState.initial o.ids)

/-- A run to its end. -/
def execute (o : Orchestration) (stamp : RunStamp) (input : String) (w : World) :
    World × RunResult :=
  let (clock, (memory, _), result) :=
    (o.drive stamp input w.clock (w.memory, RunState.initial o.ids)).finish
  (⟨clock, memory⟩, result)

/-- Reads a run on from where it is: it goes on until it waits or is over, the events since the
last wait are received one by one, and then the run goes on, or the reader has had enough and drops
it. `journal` is the number of journal entries whose events were received before, `received` the
number of those events. -/
def readOn (reader : Reader) : Progress Scene RunResult → (journal received : Nat) →
    World × List Event
  | .waiting w c (m, r) k, journal, received =>
    let events := reader.receive received (r.eventsFrom journal)
    let m := reader.react received events m
    let received := received + events.length
    if reader.satisfied received then (⟨c, m⟩, events)
    else
      let (world, rest) := readOn reader (k (c.advance w.due) (m, r)) r.journal.size received
      (world, events ++ rest)
  | .done c (m, r) result, journal, received =>
    let events := reader.receive received (r.eventsFrom journal ++ [.complete result])
    (⟨c, reader.react received events m⟩, events)

/-- A run as a stream of events for a reader. It is driven by reading: nothing happens for a reader
that takes no event. -/
def stream (o : Orchestration) (stamp : RunStamp) (reader : Reader) (input : String) (w : World) :
    World × List Event :=
  if reader.satisfied 0 then (w, [])
  else
    readOn reader (o.drive stamp input w.clock (w.memory, RunState.initial o.ids)) 0 0

end Orchestration

end Ensemble
