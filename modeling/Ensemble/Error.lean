/-!
# Errors

What can go wrong outside a run. A failing participant is no error: its failure becomes a message
of the run.
-/

namespace Ensemble

/-- An error of the engine, by its cause. -/
inductive Error where
  | config (detail : String)
  | consensus (detail : String)
  | participant (id detail : String)
  | network (detail : String)
  | timeout (detail : String)
  | serialization (detail : String)
  | yaml (detail : String)
  | settings (detail : String)
  | io (detail : String)
  | other (detail : String)
deriving DecidableEq

namespace Error

/-- The wording of an error. -/
def message : Error → String
  | config detail => "Configuration error: " ++ detail
  | consensus detail => "Consensus error: " ++ detail
  | participant id detail => "Participant " ++ id ++ " failed: " ++ detail
  | network detail => "Network error: " ++ detail
  | timeout detail => "Operation timed out: " ++ detail
  | serialization detail => "Serialization error: " ++ detail
  | yaml detail => "YAML error: " ++ detail
  | settings detail => "Settings error: " ++ detail
  | io detail => "IO error: " ++ detail
  | other detail => detail

end Error

end Ensemble
