import Ensemble.Error
import Ensemble.Settings.Basic
import Ensemble.Settings.EnvFile
import Ensemble.Settings.File

/-!
# Loading engine settings

Settings come from environment variables, then from a file if one is given, then from the defaults:
the first source that says anything about a setting decides, and what it says has to have a meaning
for the setting. What other sources say, and what is said about other settings, does not matter.

* `environmentLayer` is what the variables of a family say.
* `EngineSettings.ofLayers?` takes each setting from the first layer that has it.
* `EngineSettings.loadFamily` and `EngineSettings.load` do the whole work.
-/

namespace Ensemble

namespace Settings

/-- Where settings are looked for. -/
structure Surroundings where
  environment : Environment := []
  /-- The text of the file of environment variables, if there is one. -/
  envFile : Option String := none
  directory : Directory := []

/-- The name of a setting in the name of a variable: what follows the family and an underscore.
The case of neither matters. -/
def settingOf? (family variableName : String) : Option String :=
  let start := (Text.lower family).toList ++ ['_']
  let name := (Text.lower variableName).toList
  if start.isPrefixOf name then some (String.ofList (name.drop start.length)) else none

/-- What the variables of a family say. -/
def environmentLayer (family : String) (env : Environment) : Layer :=
  .ofEntries (env.filterMap fun v =>
    (settingOf? family v.1).map fun name => (name, .ofVariable v.2))

/-- The first layer's word on a setting, read with `read`; without any word, the default. -/
def resolve? {α : Type} (layers : List Layer) (name : String) (read : Value → Option α)
    (default : α) : Option α :=
  match layers.findSome? (·.find? name) with
  | some v => read v
  | none => some default

end Settings

namespace EngineSettings

open Settings

/-- The settings that layers give, the first of which counts most; `none` if a deciding value has
no meaning. -/
def ofLayers? (layers : List Layer) : Option EngineSettings := do
  let base : EngineSettings := {}
  let defaultMaxRounds ← resolve? layers "default_max_rounds" Value.word? base.defaultMaxRounds
  let delegationTimeoutMs ←
    resolve? layers "delegation_timeout_ms" Value.word? base.delegationTimeoutMs
  let debateRounds ← resolve? layers "debate_rounds" Value.word? base.debateRounds
  let logJson ← resolve? layers "log_json" Value.flag? base.logJson
  some { defaultMaxRounds, delegationTimeoutMs, debateRounds, logJson }

/-- The settings from the variables of a family and from the file that a path means. -/
def loadFamily (family : String) (path : Option String) (s : Surroundings) :
    Except Error EngineSettings :=
  let assigned := environmentLayer family s.environment
  match path with
  | none => decide (ofLayers? [assigned])
  | some path =>
    match fileLayer? s.directory path with
    | some file => decide (ofLayers? [assigned, file])
    | none => .error (.settings "there is no such file, or its text cannot be read")
where
  decide (settings : Option EngineSettings) : Except Error EngineSettings :=
    match settings with
    | some settings => .ok settings
    | none => .error (.settings "a value has no meaning for its setting")

/-- The family of the engine's own variables. -/
def family : String := "AGENTMESH"

/-- The settings from the engine's own variables, those in a file of variables included, and from
the file that a path means. -/
def load (path : Option String) (s : Surroundings) : Except Error EngineSettings :=
  let environment := match s.envFile with
    | some text => s.environment.withFile text
    | none => s.environment
  loadFamily family path { s with environment }

end EngineSettings

end Ensemble
