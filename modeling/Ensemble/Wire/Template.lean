import Ensemble.Error
import Ensemble.Wire.Options
import Ensemble.Yaml.Core

/-!
# Templates as YAML

A template is a document whose root is a mapping with the same fields as the JSON object of the
template. The general counts are read from their spelling: they have to be plain, and a tag on them
says nothing. All other fields are read as JSON values, those that no pattern knows included.

* `readTemplate` reads the text of a template.
-/

namespace Ensemble.Wire

open Yaml (Node)

/-- The tag of a name of the core schema. -/
def coreTag (name : String) : String := Node.schemaTag ++ name

/-- A count of 64 bits by its spelling, which has no minus sign. -/
def spelledWord? : Node → Option UInt64
  | .scalar tag style text =>
    let cs := text.toList
    if style ≠ .plain && !(style = .literal && tag = some (coreTag "int")) then none
    else if cs.head? = some '-' then none
    else
      (Yaml.Core.integer? cs).bind fun n =>
        if 0 ≤ n ∧ n.toNat < UInt64.size then some (UInt64.ofNat n.toNat) else none
  | _ => none

/-- Whether a node stands for an absent part; `none` if it claims to be null and is not. -/
def isAbsent? : Node → Option Bool
  | .scalar tag .plain text =>
    let null := Yaml.Core.isNull text.toList
    match tag with
    | none => some null
    | some t =>
      if t = coreTag "null" then (if null && !text.isEmpty then some true else none)
      else some false
  | _ => some false

/-- A count that may be absent. -/
def optionalWord? (n : Node) : Option (Option UInt64) := do
  if ← isAbsent? n then some none else (spelledWord? n).map some

/-- Reads a field that may be missing, but not be repeated. -/
def fieldOf? {α : Type} (fields : List (String × Node)) (name : String) (read : Node → Option α)
    (missing : α) : Option α :=
  match fields.filter fun f => f.1 = name with
  | [] => some missing
  | [f] => read f.2
  | _ => none

/-- The template of a node. -/
def templateOfNode? : Node → Option OrchestrationTemplate
  | .mapping _ entries => do
    let fields ← entries.mapM fun e => e.1.keyText?.map fun k => (k, e.2)
    let maxRounds ← fieldOf? fields "max_rounds" spelledWord? defaultMaxRounds
    let timeoutMs ← fieldOf? fields "timeout_ms" optionalWord? none
    let others ← (fields.filter fun f => f.1 ∉ generalNames).mapM fun f =>
      (f.2.toJson? true (Node.depthLimit - 1)).map fun v => (f.1, v)
    templateWith? maxRounds timeoutMs others
  | _ => none

/-- Reads the text of a template. -/
def readTemplate (text : String) : Except Error OrchestrationTemplate :=
  match (Yaml.document? text).bind templateOfNode? with
  | some t => .ok t
  | none => .error (.yaml "the text is no template of an orchestration")

end Ensemble.Wire
