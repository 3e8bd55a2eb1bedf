import Ensemble.Text.Printable

/-!
# Texts shown in quotes

`quote` shows a text so that every character of it can be read off: in double quotes, with escapes
for the quote, the backslash, line ends, tabs and every character that has no glyph.
-/

namespace Ensemble.Text

/-- A code point in lower-case hexadecimal digits. -/
def hexText (n : Nat) : String := String.ofList (Nat.toDigits 16 n)

/-- A character as it is shown in quotes. -/
def shown (c : Char) : String :=
  match c with
  | '\x00' => "\\0"
  | '\t' => "\\t"
  | '\r' => "\\r"
  | '\n' => "\\n"
  | '"' => "\\\""
  | '\\' => "\\\\"
  | c =>
    if isPrintable c then String.singleton c else "\\u\x7b" ++ hexText c.toNat ++ "\x7d"

/-- A text in quotes. -/
def quote (s : String) : String :=
  "\"" ++ String.join (s.toList.map shown) ++ "\""

/-- A list of texts that are already shown. -/
def bracketed (items : List String) : String := "[" ++ ", ".intercalate items ++ "]"

/-- An optional part of which the present value is already shown. -/
def optional : Option String → String
  | none => "None"
  | some s => "Some(" ++ s ++ ")"

/-- A record with named parts that are already shown. -/
def record (name : String) (parts : List (String × String)) : String :=
  name ++ " \x7b " ++ ", ".intercalate (parts.map fun p => p.1 ++ ": " ++ p.2) ++ " \x7d"

/-- A truth value by its name. -/
def flag (b : Bool) : String := if b then "true" else "false"

end Ensemble.Text
