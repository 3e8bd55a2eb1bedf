import Ensemble.Settings.Basic
import Ensemble.Wire.Fields

/-!
# Engine settings as JSON

Engine settings are written with all their fields; each field that is left out has its default.
-/

namespace Ensemble.Wire

/-- The settings of an engine. -/
def engineSettings (s : EngineSettings) : Json :=
  object [always "default_max_rounds" (word s.defaultMaxRounds),
    always "delegation_timeout_ms" (word s.delegationTimeoutMs),
    always "debate_rounds" (word s.debateRounds), always "log_json" s.logJson]

/-- The settings that a JSON value describes, with defaults for what is left out. -/
def engineSettings? (v : Json) : Option EngineSettings := do
  let f ← record? ["default_max_rounds", "delegation_timeout_ms", "debate_rounds", "log_json"] v
  let base : EngineSettings := {}
  let defaultMaxRounds ← defaulted f "default_max_rounds" word? base.defaultMaxRounds
  let delegationTimeoutMs ← defaulted f "delegation_timeout_ms" word? base.delegationTimeoutMs
  let debateRounds ← defaulted f "debate_rounds" word? base.debateRounds
  let logJson ← defaulted f "log_json" flag? base.logJson
  some { defaultMaxRounds, delegationTimeoutMs, debateRounds, logJson }

end Ensemble.Wire
