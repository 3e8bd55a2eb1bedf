import Ensemble.Duration
import Ensemble.Error
import Ensemble.Message

/-!
# Options

An orchestration coordinates its participants by one of five patterns. Options carry the round
limit, the timeout and the settings of exactly one pattern; functions among them are optional, and
`Options.validate` says which options fit which participants.
-/

namespace Ensemble

/-- The ways to coordinate participants. -/
inductive PatternKind where
  /-- Everyone answers the input; the answers are aggregated. -/
  | supervisor
  /-- Peers share a blackboard until they agree. -/
  | swarm
  /-- A chain; each answer is the next one's input. -/
  | pipeline
  /-- The input is split, the pieces are handed out, the answers are reduced. -/
  | mapReduce
  /-- Rounds of argument and a verdict. -/
  | debate
deriving DecidableEq

namespace PatternKind

/-- All kinds, in order. -/
def all : List PatternKind := [supervisor, swarm, pipeline, mapReduce, debate]

/-- The name of a kind in templates and results. -/
def name : PatternKind → String
  | supervisor => "supervisor"
  | swarm => "swarm"
  | pipeline => "pipeline"
  | mapReduce => "map_reduce"
  | debate => "debate"

/-- How a kind is shown. -/
def describe : PatternKind → String
  | supervisor => "Supervisor"
  | swarm => "Swarm"
  | pipeline => "Pipeline"
  | mapReduce => "MapReduce"
  | debate => "Debate"

end PatternKind

/-- Whom a supervisor asks in a round. -/
inductive Delegation where
  /-- Everyone in the first round, then one participant after the other. -/
  | roundRobin
  /-- Everyone in every round. -/
  | broadcast
deriving DecidableEq

/-- How a supervisor makes one output of all answers. -/
inductive Aggregation where
  /-- One per line. -/
  | concat
  /-- One per line, each behind the id of who gave it. -/
  | summarize
  /-- The most frequent one. -/
  | vote
deriving DecidableEq

/-- What a pipeline does when a step fails. -/
inductive ErrorStrategy where
  /-- It ends. -/
  | stop
  /-- It goes on with what it has. -/
  | skip
  /-- It tries again, and then falls back. -/
  | retry
deriving DecidableEq

/-- What a pipeline does when all attempts at a step have failed. -/
inductive RetryFallback where
  | stop
  | skip
deriving DecidableEq

/-- How a debate ends. -/
inductive Voting where
  /-- The judge's answer is the verdict. -/
  | judge
  /-- The most frequent answer of the last round is. -/
  | majority
  /-- The common answer of the last round is, if there is one. -/
  | unanimous
deriving DecidableEq

/-- The settings of a supervisor. -/
structure SupervisorOptions where
  delegation : Delegation := .roundRobin
  aggregation : Aggregation := .concat
deriving DecidableEq

/-- The settings of a swarm: when the answers of a round end it. -/
structure SwarmOptions where
  converged : Option (List Message → Bool) := none

/-- The settings of a pipeline. -/
structure PipelineOptions where
  errorStrategy : ErrorStrategy := .stop
  /-- Attempts after the first one, under `retry`. -/
  retryCount : UInt32 := 1
  retryFallback : RetryFallback := .stop
deriving DecidableEq

/-- The settings of a map-reduce run. -/
structure MapReduceOptions where
  split : Option (String → List String) := none
  reduce : Option (List Message → Message) := none
  /-- How many pieces are worked on at a time; no limit if absent. -/
  concurrency : Option UInt64 := none

/-- The number of debate rounds where none is given. -/
def defaultDebateRounds : UInt64 := 3

/-- The round limit where none is given. -/
def defaultMaxRounds : UInt64 := 3

/-- The settings of a debate. -/
structure DebateOptions where
  rounds : UInt64 := defaultDebateRounds
  /-- The participant that does not debate but judges. -/
  judge : Option String := none
  voting : Voting := .judge
deriving DecidableEq

/-- The settings of one pattern. -/
inductive PatternOptions where
  | supervisor (options : SupervisorOptions)
  | swarm (options : SwarmOptions)
  | pipeline (options : PipelineOptions)
  | mapReduce (options : MapReduceOptions)
  | debate (options : DebateOptions)

/-- The pattern that settings belong to. -/
def PatternOptions.kind : PatternOptions → PatternKind
  | supervisor _ => .supervisor
  | swarm _ => .swarm
  | pipeline _ => .pipeline
  | mapReduce _ => .mapReduce
  | debate _ => .debate

/-- Everything that is chosen for an orchestration besides its participants. -/
structure Options where
  pattern : PatternOptions
  /-- The round limit of supervisor and swarm. -/
  maxRounds : UInt64 := defaultMaxRounds
  timeout : Option Duration := none

/-- Why options do not fit a list of participants. -/
inductive OptionsFault where
  | noParticipants (kind : PatternKind)
  | duplicateId (id : String)
  | noSplit
  | noReduce
  | noConcurrency
  | unknownJudge (id : String)
deriving DecidableEq

namespace OptionsFault

/-- The wording of a fault. -/
def message : OptionsFault → String
  | noParticipants kind => kind.name ++ " orchestration requires at least one participant"
  | duplicateId id => "duplicate participant id '" ++ id ++ "'"
  | noSplit => "map_reduce requires split_fn"
  | noReduce => "map_reduce requires reduce_fn"
  | noConcurrency => "map_reduce concurrency must be at least 1"
  | unknownJudge id => "judge '" ++ id ++ "' is not a participant"

/-- A fault as an error of the configuration. -/
def toError (f : OptionsFault) : Error := .config f.message

end OptionsFault

/-- The first id of a list that repeats an earlier one; `seen` stands before the list. -/
def firstDuplicate? (seen : List String) : List String → Option String
  | [] => none
  | id :: rest => if id ∈ seen then some id else firstDuplicate? (id :: seen) rest

namespace Options

/-- The pattern of the options. -/
def kind (o : Options) : PatternKind := o.pattern.kind

/-- The first thing wrong with the settings of a pattern for participants with the ids given. -/
def patternFault? (ids : List String) : PatternOptions → Option OptionsFault
  | .mapReduce o =>
    if o.split.isNone then some .noSplit
    else if o.reduce.isNone then some .noReduce
    else if o.concurrency = some 0 then some .noConcurrency
    else none
  | .debate o =>
    match o.judge with
    | none => none
    | some judge => if judge ∈ ids then none else some (.unknownJudge judge)
  | _ => none

/-- The first thing wrong with options for participants with the ids given. -/
def fault? (o : Options) (ids : List String) : Option OptionsFault :=
  if ids.isEmpty then some (.noParticipants o.kind)
  else
    match firstDuplicate? [] ids with
    | some id => some (.duplicateId id)
    | none => patternFault? ids o.pattern

/-- Whether the options fit participants with the ids given. -/
def validate (o : Options) (ids : List String) : Except Error Unit :=
  match o.fault? ids with
  | some f => .error f.toError
  | none => .ok ()

end Options

end Ensemble
