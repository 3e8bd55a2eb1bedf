import Ensemble.Options.Basic

/-!
# Templates of orchestrations

A template holds what can be written down of an orchestration's options: everything but the
functions, which are attached afterwards.
-/

namespace Ensemble

/-- The settings of a pattern, without its functions. -/
inductive PatternTemplate where
  | supervisor (options : SupervisorOptions)
  | swarm
  | pipeline (options : PipelineOptions)
  | mapReduce (concurrency : Option UInt64)
  | debate (options : DebateOptions)
deriving DecidableEq

/-- Written options. -/
structure OrchestrationTemplate where
  pattern : PatternTemplate
  maxRounds : UInt64 := defaultMaxRounds
  timeoutMs : Option UInt64 := none
deriving DecidableEq

/-- The pattern of a template. -/
def PatternTemplate.kind : PatternTemplate → PatternKind
  | supervisor _ => .supervisor
  | swarm => .swarm
  | pipeline _ => .pipeline
  | mapReduce _ => .mapReduce
  | debate _ => .debate

/-- The settings of a pattern; no function is set. -/
def PatternTemplate.toOptions : PatternTemplate → PatternOptions
  | supervisor o => .supervisor o
  | swarm => .swarm {}
  | pipeline o => .pipeline o
  | mapReduce concurrency => .mapReduce { concurrency }
  | debate o => .debate o

namespace OrchestrationTemplate

/-- The pattern of a template. -/
def kind (t : OrchestrationTemplate) : PatternKind := t.pattern.kind

/-- The options of a template; no function is set. -/
def toOptions (t : OrchestrationTemplate) : Options :=
  { pattern := t.pattern.toOptions
    maxRounds := t.maxRounds
    timeout := t.timeoutMs.map .ofMillis }

end OrchestrationTemplate

/-- What is attached to the options of a template: functions, and a limit that goes with them. -/
structure Attachment where
  split : Option (String → List String) := none
  reduce : Option (List Message → Message) := none
  concurrency : Option UInt64 := none
  converged : Option (List Message → Bool) := none

/-- The options with what is attached to them: each pattern takes what it has use for, and what is
not attached stays as it is. -/
def Options.attach (o : Options) (a : Attachment) : Options :=
  match o.pattern with
  | .mapReduce p =>
    let attached : MapReduceOptions :=
      { split := a.split <|> p.split
        reduce := a.reduce <|> p.reduce
        concurrency := a.concurrency <|> p.concurrency }
    { o with pattern := .mapReduce attached }
  | .swarm p =>
    let attached : SwarmOptions := { converged := a.converged <|> p.converged }
    { o with pattern := .swarm attached }
  | _ => o

end Ensemble
