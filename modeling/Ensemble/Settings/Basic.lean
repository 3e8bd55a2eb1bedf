import Ensemble.Network.Delegation
import Ensemble.Options.Basic

/-!
# Engine settings

The defaults of a process: they are not part of any orchestration, but new options, debates and
networks are made with them.
-/

namespace Ensemble

/-- The defaults of the engine. -/
structure EngineSettings where
  defaultMaxRounds : UInt64 := defaultMaxRounds
  delegationTimeoutMs : UInt64 := 30000
  debateRounds : UInt64 := defaultDebateRounds
  logJson : Bool := false
deriving DecidableEq

namespace EngineSettings

/-- Options for the settings of a pattern, with the round limit. -/
def options (s : EngineSettings) (pattern : PatternOptions) : Options :=
  { pattern, maxRounds := s.defaultMaxRounds }

/-- A debate's settings, with the number of rounds. -/
def debateOptions (s : EngineSettings) : DebateOptions := { rounds := s.debateRounds }

/-- The timeout of delegations. -/
def delegationTimeout (s : EngineSettings) : Duration := .ofMillis s.delegationTimeoutMs

/-- A network's settings, with the timeout of delegations. -/
def networkConfig (s : EngineSettings) (topology : Topology) : NetworkConfig :=
  (({} : NetworkConfig).withTopology topology).withDefaultTimeout s.delegationTimeout

end EngineSettings

end Ensemble
