import Ensemble.Duration
import Ensemble.Json.Basic

/-!
# Records as JSON

A record is written as an object; optional parts that are absent are left out. It is read from an
object, whose unknown fields are ignored and whose known ones may not be repeated, or from an array
of its fields in order. `null` stands for an absent optional part and for nothing else.
-/

namespace Ensemble.Wire

/-! ## Writing -/

/-- The object with the fields that are present. -/
def object (fields : List (Option (String × Json))) : Json := .obj (fields.filterMap id)

/-- A field that is always there. -/
def always (name : String) (v : Json) : Option (String × Json) := some (name, v)

/-- A field that is there if its value is. -/
def ifPresent {α : Type} (name : String) (write : α → Json) (v : Option α) :
    Option (String × Json) :=
  v.map fun a => (name, write a)

/-- A count of 64 bits as a number. -/
def word (n : UInt64) : Json := .nat n.toNat

/-- A list as an array. -/
def array {α : Type} (write : α → Json) (l : List α) : Json := .arr (l.map write)

/-- A dictionary as an object. -/
def mapping {α : Type} (write : α → Json) (d : Dict α) : Json := .obj (d.map write).entries

/-! ## Reading -/

/-- The fields of a record by their names. -/
abbrev Fields := String → Option Json

/-- The values of a name among the fields of an object. -/
def valuesOf (name : String) (fields : List (String × Json)) : List Json :=
  (fields.filter fun f => f.1 = name).map (·.2)

/-- The fields of a record with the names given. -/
def record? (names : List String) : Json → Option Fields
  | .obj fields =>
    if names.all fun n => (valuesOf n fields).length ≤ 1 then
      some fun n => (valuesOf n fields).head?
    else none
  | .arr items =>
    if items.length ≤ names.length then some fun n => (names.zip items).lookup n else none
  | _ => none

/-- A part that has to be there. -/
def required {α : Type} (f : Fields) (name : String) (read : Json → Option α) : Option α :=
  (f name).bind read

/-- A part that may be absent or null. -/
def optional {α : Type} (f : Fields) (name : String) (read : Json → Option α) :
    Option (Option α) :=
  match f name with
  | none | some .null => some none
  | some v => (read v).map some

/-- A part that may be absent, and then has a value of its own. -/
def defaulted {α : Type} (f : Fields) (name : String) (read : Json → Option α) (value : α) :
    Option α :=
  match f name with
  | none => some value
  | some v => read v

/-- A text. -/
def text? : Json → Option String
  | .str s => some s
  | _ => none

/-- A truth value. -/
def flag? : Json → Option Bool
  | .bool b => some b
  | _ => none

/-- A count: an integer that is not negative. -/
def count? : Json → Option Nat
  | .int n => if 0 ≤ n then some n.toNat else none
  | _ => none

/-- A count of 64 bits. -/
def word? (v : Json) : Option UInt64 :=
  (count? v).bind fun n => if n < UInt64.size then some (UInt64.ofNat n) else none

/-- A count of 32 bits. -/
def word32? (v : Json) : Option UInt32 :=
  (count? v).bind fun n => if n < UInt32.size then some (UInt32.ofNat n) else none

/-- A floating point number; an integer is rounded to one. -/
def float? : Json → Option Binary64
  | .float x => some x
  | .int n => some (Binary64.ofInt n)
  | _ => none

/-- An array whose items can all be read. -/
def list? {α : Type} (read : Json → Option α) : Json → Option (List α)
  | .arr items => items.mapM read
  | _ => none

/-- An object whose values can all be read; of equal keys the last one counts. -/
def mapping? {α : Type} (read : Json → Option α) : Json → Option (Dict α)
  | .obj fields => (fields.mapM fun f => (read f.2).map fun a => (f.1, a)).map Dict.ofList
  | _ => none

/-- Metadata: an object with any values. -/
def metadata? : Json → Option Metadata := mapping? some

/-- One of several names: as a text, or as the only field of an object, with the value null. -/
def choice? {α : Type} (names : List (String × α)) : Json → Option α
  | .str s => names.lookup s
  | .obj [(s, .null)] => names.lookup s
  | _ => none

/-- In a record that names its case, an empty object beside the name of a choice is as good as
null. -/
def emptyAsNull : Json → Json
  | .obj [(name, .obj [])] => .obj [(name, .null)]
  | v => v

/-- The value of the field that names the case, and the rest of the record. -/
def tagged? (tag : String) : Json → Option (Json × Json)
  | .obj fields =>
    match valuesOf tag fields with
    | [v] => some (v, .obj (fields.filter fun f => f.1 ≠ tag))
    | _ => none
  | .arr (v :: items) => some (v, .arr items)
  | _ => none

/-- The rest of a record of which nothing more is read: an object, or an array without items. -/
def nothing? : Json → Option Unit
  | .obj _ | .arr [] => some ()
  | _ => none

/-! ## Durations -/

/-- A duration by its two parts. -/
def duration (d : Duration) : Json :=
  object [always "secs" (word d.secs), always "nanos" (.nat d.nanos)]

/-- A duration has two fields, both of them required, and no others. -/
def duration? (v : Json) : Option Duration := do
  let known := match v with
    | .obj fields => fields.all fun f => f.1 = "secs" || f.1 = "nanos"
    | _ => true
  if known then
    let f ← record? ["secs", "nanos"] v
    let secs ← required f "secs" word?
    let nanos ← required f "nanos" word32?
    Duration.ofParts? secs.toNat nanos.toNat
  else none

end Ensemble.Wire
