import Ensemble.Number.Digits
import Ensemble.Text.Lowercase

/-!
# Values of settings

The sources of settings differ in what they can write down: an environment variable is a text, a
JSON file tells texts, numbers and truth values apart. A `Value` holds what any of them can say, and
a setting takes every value that has an obvious meaning for it.

* `Value.ofVariable` is the value of an environment variable.
* `Value.word?` and `Value.flag?` are the meanings for a setting.
-/

namespace Ensemble.Settings

/-- What a source says about a setting. -/
inductive Value where
  /-- The source names the setting, but has no value for it. -/
  | nothing
  | bool (b : Bool)
  | int (n : Int)
  | float (x : Binary64)
  | text (s : String)
  /-- A list or a table. No setting is one, so that what it holds does not matter. -/
  | compound
deriving DecidableEq

namespace Value

instance : Inhabited Value := ⟨nothing⟩

/-- Whether an integer has 64 bits and a sign. -/
def isShort (n : Int) : Bool := -0x8000000000000000 ≤ n && n < 0x8000000000000000

/-- The value of an environment variable: a truth value, an integer or a floating point number if
the text is one, and else the text. -/
def ofVariable (s : String) : Value :=
  let cs := s.toList
  if Text.lower s = "true" then .bool true
  else if Text.lower s = "false" then .bool false
  else
    match (Number.integer? 10 cs).filter isShort with
    | some n => .int n
    | none =>
      match Number.float? cs with
      | some x => .float x
      | none => .text s

/-- A floating point number as a count of 64 bits: rounded, a half away from zero, and moved to the
nearest end if it lies outside. -/
def nearestWord (x : Binary64) : UInt64 :=
  if x.isNaN || x.isNegative then 0
  else if x.isInfinite then UInt64.ofNat (UInt64.size - 1)
  else UInt64.ofNat (min x.roundMagnitude (UInt64.size - 1))

/-- A count written in decimal digits, perhaps behind a plus sign. -/
def decimalWord? (s : String) : Option UInt64 :=
  match Number.unsigned s.toList with
  | (true, _) => none
  | (false, digits) =>
    (Number.natural? 10 digits).bind fun n =>
      if n < UInt64.size then some (UInt64.ofNat n) else none

/-- The names of truth values, in letters of either case. -/
def truth? (s : String) : Option Bool :=
  let name := Text.lower s
  if name ∈ ["true", "on", "yes"] then some true
  else if name ∈ ["false", "off", "no"] then some false
  else none

/-- The meaning for a setting that is a count. -/
def word? : Value → Option UInt64
  | bool b => some (if b then 1 else 0)
  | int n => if 0 ≤ n ∧ n.toNat < UInt64.size then some (UInt64.ofNat n.toNat) else none
  | float x => some (nearestWord x)
  | text s =>
    match truth? s with
    | some b => some (if b then 1 else 0)
    | none => decimalWord? s
  | nothing | compound => none

/-- The meaning for a setting that is a truth value. -/
def flag? : Value → Option Bool
  | bool b => some b
  | int n => some (n ≠ 0)
  | float x => some (!x.isZero)
  | text s => if s = "1" then some true else if s = "0" then some false else truth? s
  | nothing | compound => none

end Value

end Ensemble.Settings
