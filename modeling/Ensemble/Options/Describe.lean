import Ensemble.Options.Basic
import Ensemble.Text.Quoted

/-!
# Options, shown

The text that shows every choice of a pattern's settings; of a function only whether it is set.
-/

namespace Ensemble

/-- The name of a way to delegate. -/
def Delegation.describe : Delegation → String
  | roundRobin => "RoundRobin"
  | broadcast => "Broadcast"

/-- The name of a way to aggregate. -/
def Aggregation.describe : Aggregation → String
  | concat => "Concat"
  | summarize => "Summarize"
  | vote => "Vote"

/-- The name of an answer to a failing step. -/
def ErrorStrategy.describe : ErrorStrategy → String
  | stop => "Stop"
  | skip => "Skip"
  | retry => "Retry"

/-- The name of what happens when no attempt is left. -/
def RetryFallback.describe : RetryFallback → String
  | stop => "Stop"
  | skip => "Skip"

/-- The name of a way to a verdict. -/
def Voting.describe : Voting → String
  | judge => "Judge"
  | majority => "Majority"
  | unanimous => "Unanimous"

/-- The settings of a supervisor. -/
def SupervisorOptions.describe (o : SupervisorOptions) : String :=
  Text.record "SupervisorOptions"
    [("delegation", o.delegation.describe), ("aggregation", o.aggregation.describe)]

/-- The settings of a swarm. -/
def SwarmOptions.describe (o : SwarmOptions) : String :=
  Text.record "SwarmOptions" [("convergence_check", Text.flag o.converged.isSome)]

/-- The settings of a pipeline. -/
def PipelineOptions.describe (o : PipelineOptions) : String :=
  Text.record "PipelineOptions"
    [("error_strategy", o.errorStrategy.describe), ("retry_count", toString o.retryCount.toNat),
     ("retry_fallback", o.retryFallback.describe)]

/-- The settings of a map and reduce. -/
def MapReduceOptions.describe (o : MapReduceOptions) : String :=
  Text.record "MapReduceOptions"
    [("split_fn", Text.flag o.split.isSome), ("reduce_fn", Text.flag o.reduce.isSome),
     ("concurrency", Text.optional (o.concurrency.map fun n => toString n.toNat))]

/-- The settings of a debate. -/
def DebateOptions.describe (o : DebateOptions) : String :=
  Text.record "DebateOptions"
    [("rounds", toString o.rounds.toNat),
     ("judge_agent_id", Text.optional (o.judge.map Text.quote)),
     ("voting_strategy", o.voting.describe)]

/-- The settings of a pattern behind its name. -/
def PatternOptions.describe (o : PatternOptions) : String :=
  let inner := match o with
    | supervisor o => o.describe
    | swarm o => o.describe
    | pipeline o => o.describe
    | mapReduce o => o.describe
    | debate o => o.describe
  o.kind.describe ++ "(" ++ inner ++ ")"

end Ensemble
