import Ensemble.Dict
import Ensemble.Number.Binary64

/-!
# JSON values

A number is an integer or a binary floating point number; which of the two is part of the value.
An object keeps its fields as they came, repeated keys included: whoever reads an object decides
what a repetition means, and the canonical form lets the last one count.
-/

namespace Ensemble

/-- A JSON value. -/
inductive Json where
  | null
  | bool (b : Bool)
  | int (n : Int)
  | float (x : Binary64)
  | str (s : String)
  | arr (items : List Json)
  | obj (fields : List (String × Json))

namespace Json

instance : Inhabited Json := ⟨null⟩

instance : Coe String Json := ⟨str⟩
instance : Coe Bool Json := ⟨bool⟩

/-- The JSON number of a count. -/
def nat (n : Nat) : Json := int n

mutual

/-- The canonical form of a value: in every object the keys ascend and each occurs once, with the
value that was given last. -/
def canonical : Json → Json
  | arr items => arr (canonicalItems items)
  | obj fields => obj (Dict.ofList (canonicalFields fields)).entries
  | v => v

/-- The canonical forms of the items of an array. -/
def canonicalItems : List Json → List Json
  | [] => []
  | v :: rest => canonical v :: canonicalItems rest

/-- The fields of an object with canonical values; their order stays. -/
def canonicalFields : List (String × Json) → List (String × Json)
  | [] => []
  | (k, v) :: rest => (k, canonical v) :: canonicalFields rest

end

end Json

/-- The entries that a message, an agent or a request carries besides its text. -/
abbrev Metadata := Dict Json

/-- The metadata as a JSON object. -/
def Metadata.toJson (m : Metadata) : Json := .obj m.entries

end Ensemble
