/-!
# Templates

A template is a text with names in braces. `fill` puts in the value of each name that has one, in
one pass from left to right; a brace that opens no such name stands for itself, and what has been
put in is not looked at again.
-/

namespace Ensemble.Text

/-- The name between an opening brace and the next closing one, given the text behind the former. -/
def nameIn? (cs : List Char) : Option String :=
  if '}' ∈ cs then some (String.ofList (cs.takeWhile (· ≠ '}'))) else none

/-- Fills in a text of which the first `skip` characters belong to a name that has been dealt
with. -/
def fillChars (value : String → Option String) : (skip : Nat) → List Char → List Char
  | _, [] => []
  | skip + 1, _ :: rest => fillChars value skip rest
  | 0, c :: rest =>
    if c = '{' then
      match nameIn? rest with
      | none => c :: fillChars value 0 rest
      | some name =>
        match value name with
        | none => c :: fillChars value 0 rest
        | some v => v.toList ++ fillChars value (name.length + 1) rest
    else c :: fillChars value 0 rest

/-- The template with the values of its names. -/
def fill (value : String → Option String) (template : String) : String :=
  String.ofList (fillChars value 0 template.toList)

end Ensemble.Text
