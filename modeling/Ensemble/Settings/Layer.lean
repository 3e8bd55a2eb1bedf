import Ensemble.Settings.Value

/-!
# Layers of settings

A source of settings assigns values to keys. The case of a key does not matter. A key may be a path
that leads into a list or a table; such an assignment makes the setting at the start of the path a
compound one. Of several assignments to a setting the last one counts.

* `Layer.ofEntries` is the layer of a source's assignments.
* `Layer.find?` is what a layer says about a setting.
-/

namespace Ensemble.Settings

/-- A setting by its name, and whether a path leads on from it. -/
structure Key where
  name : String
  isPath : Bool
deriving DecidableEq

namespace Key

/-- The characters of the names in a path. -/
def isNameChar (c : Char) : Bool := c.isAlphanum || c = '_' || c = '-'

/-- Whether a text consists of steps, each of them a name behind a point or a position in
brackets. -/
def isSteps : (fuel : Nat) → List Char → Bool
  | _, [] => true
  | 0, _ => false
  | fuel + 1, '.' :: rest =>
    !(rest.takeWhile isNameChar).isEmpty && isSteps fuel (rest.dropWhile isNameChar)
  | fuel + 1, '[' :: rest =>
    let digits := if rest.head? = some '-' then rest.drop 1 else rest
    match digits.dropWhile Char.isDigit with
    | ']' :: rest => digits.head?.any Char.isDigit && isSteps fuel rest
    | _ => false
  | _, _ => false

/-- Reads a key. A text that is no path is the name of a setting as it stands. -/
def parse (s : String) : Key :=
  let cs := (Text.lower s).toList
  let name := cs.takeWhile isNameChar
  let steps := cs.dropWhile isNameChar
  if !name.isEmpty && isSteps steps.length steps then ⟨String.ofList name, !steps.isEmpty⟩
  else ⟨Text.lower s, false⟩

end Key

/-- The assignments of a source, each to a setting by its name. -/
abbrev Layer := List (String × Value)

namespace Layer

/-- The layer of assignments to keys. -/
def ofEntries (entries : List (String × Value)) : Layer :=
  entries.map fun e =>
    let key := Key.parse e.1
    (key.name, if key.isPath then .compound else e.2)

/-- What a layer says about a setting. -/
def find? (l : Layer) (name : String) : Option Value :=
  (l.filter fun e => e.1 = name).getLast?.map (·.2)

end Layer

end Ensemble.Settings
