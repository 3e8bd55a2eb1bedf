import Ensemble.Options.Template
import Ensemble.Wire.Fields

/-!
# Options and templates as JSON

The settings of a template stand in one object with its other fields; the field `pattern` names the
pattern, or gives its position among the patterns, and decides which other fields are looked at.
-/

namespace Ensemble.Wire

/-- The names of the ways to delegate. -/
def delegationNames : List (String × Delegation) :=
  [("round_robin", .roundRobin), ("broadcast", .broadcast)]

/-- The names of the ways to aggregate. -/
def aggregationNames : List (String × Aggregation) :=
  [("concat", .concat), ("summarize", .summarize), ("vote", .vote)]

/-- The names of the answers to a failing step. -/
def errorStrategyNames : List (String × ErrorStrategy) :=
  [("stop", .stop), ("skip", .skip), ("retry", .retry)]

/-- The names of what happens when no attempt is left. -/
def retryFallbackNames : List (String × RetryFallback) := [("stop", .stop), ("skip", .skip)]

/-- The names of the ways to a verdict. -/
def votingNames : List (String × Voting) :=
  [("judge", .judge), ("majority", .majority), ("unanimous", .unanimous)]

/-- The name of a choice. -/
def nameOf {α : Type} [DecidableEq α] (names : List (String × α)) (a : α) : Json :=
  ((names.find? fun n => n.2 = a).map fun n => Json.str n.1).getD .null

/-- The fields of a supervisor's settings. -/
def supervisorFields (o : SupervisorOptions) : List (Option (String × Json)) :=
  [always "delegation" (nameOf delegationNames o.delegation),
   always "aggregation" (nameOf aggregationNames o.aggregation)]

/-- The settings of a supervisor. -/
def supervisorOptions (o : SupervisorOptions) : Json := object (supervisorFields o)

/-- The settings of a supervisor that a JSON value describes. -/
def supervisorOptions? (v : Json) : Option SupervisorOptions := do
  let f ← record? ["delegation", "aggregation"] v
  let base : SupervisorOptions := {}
  let delegation ← defaulted f "delegation" (choice? delegationNames) base.delegation
  let aggregation ← defaulted f "aggregation" (choice? aggregationNames) base.aggregation
  some { delegation, aggregation }

/-- The fields of a pipeline's settings. -/
def pipelineFields (o : PipelineOptions) : List (Option (String × Json)) :=
  [always "error_strategy" (nameOf errorStrategyNames o.errorStrategy),
   always "retry_count" (.nat o.retryCount.toNat),
   always "retry_fallback" (nameOf retryFallbackNames o.retryFallback)]

/-- The settings of a pipeline. -/
def pipelineOptions (o : PipelineOptions) : Json := object (pipelineFields o)

/-- The settings of a pipeline that a JSON value describes. -/
def pipelineOptions? (v : Json) : Option PipelineOptions := do
  let f ← record? ["error_strategy", "retry_count", "retry_fallback"] v
  let base : PipelineOptions := {}
  let errorStrategy ← defaulted f "error_strategy" (choice? errorStrategyNames) base.errorStrategy
  let retryCount ← defaulted f "retry_count" word32? base.retryCount
  let retryFallback ← defaulted f "retry_fallback" (choice? retryFallbackNames) base.retryFallback
  some { errorStrategy, retryCount, retryFallback }

/-- The fields of a debate's settings; the judge is written only if there is one. -/
def debateFields (o : DebateOptions) : List (Option (String × Json)) :=
  [always "rounds" (word o.rounds), ifPresent "judge_agent_id" .str o.judge,
   always "voting_strategy" (nameOf votingNames o.voting)]

/-- The settings of a debate. -/
def debateOptions (o : DebateOptions) : Json := object (debateFields o)

/-- The settings of a debate that a JSON value describes. -/
def debateOptions? (v : Json) : Option DebateOptions := do
  let f ← record? ["rounds", "judge_agent_id", "voting_strategy"] v
  let base : DebateOptions := {}
  let rounds ← defaulted f "rounds" word? base.rounds
  let judge ← optional f "judge_agent_id" text?
  let voting ← defaulted f "voting_strategy" (choice? votingNames) base.voting
  some { rounds, judge, voting }

/-- The settings of a pattern; of functions only whether they are set. -/
def patternOptions : PatternOptions → Json
  | .supervisor o => supervisorOptions o
  | .swarm o => object [always "convergence_check" o.converged.isSome]
  | .pipeline o => pipelineOptions o
  | .mapReduce o =>
    object [always "split_fn" o.split.isSome, always "reduce_fn" o.reduce.isSome,
      always "concurrency" ((o.concurrency.map word).getD .null)]
  | .debate o => debateOptions o

/-! ## Templates -/

/-- The fields that a pattern adds to a template. -/
def patternTemplateFields : PatternTemplate → List (Option (String × Json))
  | .supervisor o => supervisorFields o
  | .swarm => []
  | .pipeline o => pipelineFields o
  | .mapReduce concurrency => [ifPresent "concurrency" word concurrency]
  | .debate o => debateFields o

/-- The pattern that a field names, or of which it gives the position. -/
def templateKind? : Json → Option PatternKind
  | .str s => PatternKind.all.find? fun k => k.name = s
  | .int n => if 0 ≤ n then PatternKind.all[n.toNat]? else none
  | _ => none

/-- The settings of a pattern among the fields of an object. -/
def patternTemplate? (kind : PatternKind) (fields : Json) : Option PatternTemplate :=
  match kind with
  | .supervisor => (supervisorOptions? fields).map .supervisor
  | .swarm => some .swarm
  | .pipeline => (pipelineOptions? fields).map .pipeline
  | .mapReduce => do
    let f ← record? ["concurrency"] fields
    some (.mapReduce (← optional f "concurrency" word?))
  | .debate => (debateOptions? fields).map .debate

/-- A template: the name of its pattern, the fields of the pattern and the general ones. -/
def template (t : OrchestrationTemplate) : Json :=
  object (always "pattern" t.kind.name :: patternTemplateFields t.pattern ++
    [always "max_rounds" (word t.maxRounds), ifPresent "timeout_ms" word t.timeoutMs])

/-- The fields of a template that belong to no pattern. -/
def generalNames : List String := ["max_rounds", "timeout_ms"]

/-- A template with the general parts given, from its other fields. -/
def templateWith? (maxRounds : UInt64) (timeoutMs : Option UInt64)
    (fields : List (String × Json)) : Option OrchestrationTemplate := do
  let f ← record? ["pattern"] (.obj fields)
  let kind ← required f "pattern" templateKind?
  let others := fields.filter fun e => e.1 ≠ "pattern"
  let pattern ← patternTemplate? kind (.obj (others.map fun e => (e.1, emptyAsNull e.2)))
  some { pattern, maxRounds, timeoutMs }

/-- The template that an object describes; fields that its pattern does not know are ignored. -/
def template? (v : Json) : Option OrchestrationTemplate :=
  match v with
  | .obj fields => do
    let f ← record? generalNames (.obj fields)
    let maxRounds ← defaulted f "max_rounds" word? defaultMaxRounds
    let timeoutMs ← optional f "timeout_ms" word?
    templateWith? maxRounds timeoutMs (fields.filter fun e => e.1 ∉ generalNames)
  | _ => none

end Ensemble.Wire
