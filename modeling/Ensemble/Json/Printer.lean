import Ensemble.Json.Number

/-!
# Writing JSON

The compact text of a value has no blanks, and in every object the keys ascend and occur once, the
last of equal keys counting. Characters beyond ASCII are written as they are, or escaped by their
UTF-16 code units when the text has to be ASCII.
-/

namespace Ensemble.Json

/-- The last hexadecimal digit of a number. -/
def hexDigit (n : Nat) : Char := Nat.digitChar (n % 16)

/-- The escape of a code unit, in four lower-case digits. -/
def unitEscape (n : Nat) : List Char :=
  ['\\', 'u', hexDigit (n / 4096), hexDigit (n / 256), hexDigit (n / 16), hexDigit n]

/-- A character inside quotes. -/
def quotedChar (ascii : Bool) (c : Char) : List Char :=
  match c with
  | '"' => ['\\', '"']
  | '\\' => ['\\', '\\']
  | '\x08' => ['\\', 'b']
  | '\x0c' => ['\\', 'f']
  | '\n' => ['\\', 'n']
  | '\r' => ['\\', 'r']
  | '\t' => ['\\', 't']
  | c =>
    if c.toNat < 0x20 then unitEscape c.toNat
    else if ascii ∧ 0x7f ≤ c.toNat then
      if c.toNat < 0x10000 then unitEscape c.toNat
      else
        let n := c.toNat - 0x10000
        unitEscape (0xd800 + n / 0x400) ++ unitEscape (0xdc00 + n % 0x400)
    else [c]

/-- A text in quotes. -/
def quoted (ascii : Bool) (s : String) : String :=
  "\"" ++ String.ofList (s.toList.flatMap (quotedChar ascii)) ++ "\""

mutual

/-- The text of a value whose objects are written as they are. -/
def write (ascii : Bool) : Json → String
  | null => "null"
  | bool b => if b then "true" else "false"
  | int n => toString n
  | float x => floatText x
  | str s => quoted ascii s
  | arr items => "[" ++ ",".intercalate (writeItems ascii items) ++ "]"
  | obj fields => "\x7b" ++ ",".intercalate (writeFields ascii fields) ++ "\x7d"

/-- The texts of the items of an array. -/
def writeItems (ascii : Bool) : List Json → List String
  | [] => []
  | v :: rest => write ascii v :: writeItems ascii rest

/-- The texts of the fields of an object. -/
def writeFields (ascii : Bool) : List (String × Json) → List String
  | [] => []
  | (k, v) :: rest => (quoted ascii k ++ ":" ++ write ascii v) :: writeFields ascii rest

end

/-- The compact text of a value. -/
def compact (v : Json) : String := write false v.canonical

/-- The compact text in ASCII. -/
def compactAscii (v : Json) : String := write true v.canonical

end Ensemble.Json
