import Ensemble.Json.Basic
import Ensemble.Number.Digits
import Ensemble.Yaml.Node

/-!
# The core schema

The meaning of YAML scalars that carry no tag and are written plainly: `null`, truth values,
integers in four bases and floating point numbers are recognized by their spelling, and everything
else is a text. A number with a needless zero in front is a text. With these meanings a document
becomes a JSON value, keys being texts whatever they look like.

* `integer?`, `float?`, `isNull` and `truth?` recognize a spelling.
* `Node.toJson?` gives the value of a node.
-/

namespace Ensemble.Yaml

namespace Core

/-- The spellings of null; where nothing is written, null is meant. -/
def isNull (cs : List Char) : Bool := String.ofList cs ∈ ["", "~", "null", "Null", "NULL"]

/-- The value of a truth value's spelling. -/
def truth? (cs : List Char) : Option Bool :=
  if String.ofList cs ∈ ["true", "True", "TRUE"] then some true
  else if String.ofList cs ∈ ["false", "False", "FALSE"] then some false
  else none

/-- The digits of a number without a sign: its base and what stands behind the mark of the base. -/
def base : List Char → Nat × List Char
  | '0' :: 'x' :: rest => (16, rest)
  | '0' :: 'o' :: rest => (8, rest)
  | '0' :: 'b' :: rest => (2, rest)
  | cs => (10, cs)

/-- Whether a number without a sign has a needless zero in front. -/
def isPadded (cs : List Char) : Bool :=
  cs.head? = some '0' && 1 < cs.length && cs.all Char.isDigit

/-- The value of an integer's spelling. -/
def integer? (cs : List Char) : Option Int :=
  let (negative, cs) := Number.unsigned cs
  if isPadded cs then none
  else
    let (base, digits) := base cs
    (Number.natural? base digits).map fun n => if negative then -(n : Int) else (n : Int)

/-- The value of a spelling of a floating point number, or of an integer as one. A number beyond
the greatest finite one is none. -/
def float? (cs : List Char) : Option Binary64 :=
  let (negative, rest) := Number.unsigned cs
  if String.ofList rest ∈ [".inf", ".Inf", ".INF"] then some (.infinity negative)
  else if String.ofList cs ∈ [".nan", ".NaN", ".NAN"] then some .nan
  else if isPadded rest then none
  else (Number.decimal? negative rest).filter Binary64.isFinite

/-- The 127th power of two. -/
def twoTo127 : Int := Number.twoTo 127

/-- A number: an integer of 64 bits, with a sign or without, or else a floating point number. An
integer that needs more bits, up to 128, is refused. -/
def number? (cs : List Char) : Option (Option Json) :=
  match integer? cs with
  | some n =>
    if -0x8000000000000000 ≤ n ∧ n < 0x10000000000000000 then some (some (.int n))
    else if -twoTo127 ≤ n ∧ n < 2 * twoTo127 then some none
    else (float? cs).map fun x => some (.float x)
  | none => (float? cs).map fun x => some (.float x)

/-- The value of a plain scalar without a tag. -/
def plain? (text : String) : Option Json :=
  let cs := text.toList
  if isNull cs then some .null
  else
    match truth? cs with
    | some b => some (.bool b)
    | none => (number? cs).getD (some (.str text))

/-- The value of a scalar with a tag of the schema; with another one it is a text. -/
def tagged? (name : String) (text : String) : Option Json :=
  let cs := text.toList
  match name with
  | "null" => if isNull cs && !cs.isEmpty then some .null else none
  | "bool" => (truth? cs).map .bool
  | "int" => if (integer? cs).isSome then (number? cs).getD none else none
  | "float" => (float? cs).map .float
  | _ => some (.str text)

end Core

namespace Node

/-- What the tags of the schema start with. -/
def schemaTag : String := "tag:yaml.org,2002:"

/-- The name of a tag of the schema. -/
def schemaName (tag : String) : String :=
  if schemaTag.toList.isPrefixOf tag.toList then
    String.ofList (tag.toList.drop schemaTag.length)
  else ""

/-- Whether a tag is local to a document, not one that everybody knows. -/
def isLocal (tag : Option String) : Bool := tag.any fun t => t.toList.head? = some '!'

/-- The value of a scalar. -/
def scalarToJson? (tag : Option String) (style : Style) (text : String) : Option Json :=
  match tag with
  | some t => Core.tagged? (schemaName t) text
  | none => if style = .plain then Core.plain? text else some (.str text)

/-- The text of a key, which is a scalar. -/
def keyText? : Node → Option String
  | scalar _ _ text => some text
  | _ => none

/-- The value of a node in which collections are nested at most `depth` deep. There are no values
for local tags, and none for keys that are no scalars unless `lenient` says so; then entries with
such keys are left out. -/
def toJson? (lenient : Bool) : (depth : Nat) → Node → Option Json
  | _, .scalar tag style text => if isLocal tag then none else scalarToJson? tag style text
  | 0, _ => none
  | depth + 1, .sequence tag items =>
    if isLocal tag then none else (items.mapM (toJson? lenient depth)).map .arr
  | depth + 1, .mapping tag entries =>
    if isLocal tag then none
    else do
      let fields ← entries.mapM fun e => do
        let v ← toJson? lenient depth e.2
        match e.1.keyText? with
        | some k => some [(k, v)]
        | none => if lenient then (toJson? lenient depth e.1).map fun _ => [] else none
      some (.obj fields.flatten)

/-- The number of collections that may be nested. -/
def depthLimit : Nat := 128

end Node

/-- Reads a text that is one document as a JSON value. -/
def read? (text : String) : Option Json := do
  (← document? text).toJson? false Node.depthLimit

end Ensemble.Yaml
