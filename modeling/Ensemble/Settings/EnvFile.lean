import Ensemble.Text.Blank

/-!
# Files of environment variables

Such a file assigns variables, one on a line, in a notation that is close to that of a shell: quotes
of two kinds, escapes, comments and the values of other variables. A quoted part may span lines. A
variable that is set already keeps its value, and the first line that makes no sense ends the
reading without a word.

* `EnvFile.lines` takes a text apart into its logical lines.
* `EnvFile.value?` is the value that a line assigns.
* `Environment.withFile` adds the assignments of a file to an environment.
-/

namespace Ensemble.Settings

/-- The environment variables with their values, the last one to be set last. -/
abbrev Environment := List (String × String)

namespace EnvFile

/-! ## Logical lines -/

/-- Where a line stands with regard to quotes. -/
inductive Place where
  | open
  | afterSpace
  | escaped
  | quoted (quote : Char)
  | quotedEscaped (quote : Char)
deriving DecidableEq

/-- The place behind a character; `none` if a comment starts with it. -/
def Place.next? (p : Place) (c : Char) : Option Place :=
  let outside : Place :=
    if c = '\\' then .escaped else if c = '"' || c = '\'' then .quoted c else .open
  match p with
  | .open => some (if Text.isBlank c && c ≠ '\n' && c ≠ '\r' then .afterSpace else outside)
  | .afterSpace => if c = '#' then none else some outside
  | .escaped => some .open
  | .quoted q => some (if c = '\\' then .quotedEscaped q else if c = q then .open else .quoted q)
  | .quotedEscaped q => some (.quoted q)

/-- A line of a file, or the end of a file inside quotes. -/
inductive Line where
  | complete (text : List Char)
  | broken

/-- The line with the characters given in reverse, the last of which may be a line break. -/
def Line.ofReverse (cs : List Char) : Line :=
  let cs := if cs.head? = some '\n' then cs.drop 1 else cs
  .complete (if cs.head? = some '\r' then cs.drop 1 else cs).reverse

/-- How the characters of a line are taken up. -/
inductive Mode where
  | line (place : Place) (read : List Char)
  /-- The rest of a physical line is passed over, and the line ends with what has been read. -/
  | comment (read : List Char)

/-- The logical lines from a mode on. -/
def linesFrom : Mode → List Char → List Line
  | .line _ [], [] => []
  | .line .open read, [] => [.complete read.reverse]
  | .line _ _, [] => [.broken]
  | .comment read, [] => [.complete read.reverse]
  | .comment read, c :: rest =>
    if c = '\n' then .complete read.reverse :: linesFrom (.line .open []) rest
    else linesFrom (.comment read) rest
  | .line place read, c :: rest =>
    if c = '#' && read.all Text.isBlank then linesFrom (.comment []) rest
    else
      match place.next? c with
      | none => linesFrom (.comment read) rest
      | some .open =>
        if c = '\n' then Line.ofReverse (c :: read) :: linesFrom (.line .open []) rest
        else linesFrom (.line .open (c :: read)) rest
      | some place => linesFrom (.line place (c :: read)) rest

/-- The logical lines of a text, without comments and line breaks. -/
def lines (text : String) : List Line :=
  let cs := text.toList
  linesFrom (.line .open []) (if cs.head? = some '\ufeff' then cs.drop 1 else cs)

/-! ## Values -/

/-- What the characters of a value are read as. -/
inductive Part where
  | text
  | escape
  /-- The name of a variable, perhaps in braces; it stands in reverse. -/
  | name (braced : Bool) (read : List Char)
  /-- Nothing but blanks and a comment may follow. -/
  | done
  | comment
deriving DecidableEq

/-- A value that is being read. -/
structure ValueState where
  part : Part := .text
  quote : Option Char := none
  value : List Char := []

/-- The characters of the names of variables that are not in braces. A character beyond ASCII is
taken for a letter. -/
def isNameChar (c : Char) : Bool := c.isAlphanum || 0x80 ≤ c.toNat

/-- The value of a variable, empty if it is not set. -/
def valueOf (env : Environment) (name : List Char) : List Char :=
  ((env.lookup (String.ofList name.reverse)).getD "").toList

namespace ValueState

/-- Characters of the value have been read; a plain part goes on. -/
def push (cs : List Char) (s : ValueState) : ValueState :=
  { s with part := .text, value := s.value ++ cs }

/-- One character of a text. In single quotes every character stands for itself. -/
def stepText (s : ValueState) (c : Char) : ValueState :=
  if s.quote = some '\'' then
    if c = '\'' then { s with quote := none } else s.push [c]
  else if c = '$' then { s with part := .name false [] }
  else if s.quote = some c then { s with quote := none }
  else if c = '\\' then { s with part := .escape }
  else if s.quote.isSome then s.push [c]
  else if c = '\'' || c = '"' then { s with quote := some c }
  else if c = ' ' || c = '\t' then { s with part := .done }
  else s.push [c]

/-- One character. -/
def step? (env : Environment) (s : ValueState) (c : Char) : Option ValueState :=
  match s.part with
  | .text => some (s.stepText c)
  | .escape =>
    if c ∈ ['\\', '\'', '"', '$', ' '] then some (s.push [c])
    else if c = 'n' then some (s.push ['\n'])
    else none
  | .name false read =>
    if isNameChar c then some { s with part := .name false (c :: read) }
    else if c = '{' && read.isEmpty then some { s with part := .name true [] }
    else
      let s := s.push (valueOf env read)
      some (if c = '$' then { s with part := .name false [] } else s.push [c])
  | .name true read =>
    if c = '}' then some (s.push (valueOf env read))
    else some { s with part := .name true (c :: read) }
  | .done =>
    if c = ' ' || c = '\t' then some s
    else if c = '#' then some { s with part := .comment }
    else none
  | .comment => some s

/-- The value, if no quote and no brace is left open. -/
def finish? (env : Environment) (s : ValueState) : Option String :=
  match s.quote, s.part with
  | some _, _ | none, .name true _ => none
  | none, .name false read => some (String.ofList (s.value ++ valueOf env read))
  | none, _ => some (String.ofList s.value)

end ValueState

/-- The value that is written on a line. -/
def value? (env : Environment) (cs : List Char) : Option String :=
  (cs.foldlM (ValueState.step? env) {}).bind (ValueState.finish? env)

/-! ## Assignments -/

/-- The text without white space in front. -/
def skipSpace (cs : List Char) : List Char := cs.dropWhile Text.isBlank

/-- The name of a variable, and what follows it and the white space behind it. -/
def name? (cs : List Char) : Option (String × List Char) :=
  let belongs (c : Char) : Bool := c.isAlphanum || c = '_' || c = '.'
  if cs.head?.any fun c => c.isAlpha || c = '_' then
    some (String.ofList (cs.takeWhile belongs), skipSpace (cs.dropWhile belongs))
  else none

/-- What follows an equals sign. -/
def equals? : List Char → Option (List Char)
  | '=' :: rest => some rest
  | _ => none

/-- The assignment on a line, if there is one; the line may say that the variable is exported. -/
def assignment? (env : Environment) (line : List Char) : Option (Option (String × String)) := do
  let cs := skipSpace line
  let isNothing (cs : List Char) : Bool := cs.head?.all (· = '#')
  if isNothing cs then some none
  else
    let (name, rest) ← name? cs
    let (name, rest) ←
      if name = "export" && (equals? rest).isNone then name? rest else some (name, rest)
    let rest := skipSpace (← equals? rest)
    if isNothing rest then some (some (name, ""))
    else (value? env rest).map fun v => some (name, v)

end EnvFile

namespace Environment

/-- Sets a variable that is not set yet. -/
def setNew (env : Environment) (name value : String) : Environment :=
  if (env.lookup name).isSome then env else env ++ [(name, value)]

/-- Adds the assignments of lines, up to the first line that makes no sense. -/
def withLines : Environment → List EnvFile.Line → Environment
  | env, [] => env
  | env, .broken :: _ => env
  | env, .complete text :: rest =>
    match EnvFile.assignment? env text with
    | none => env
    | some none => withLines env rest
    | some (some (name, value)) => withLines (env.setNew name value) rest

/-- Adds the assignments of a file. -/
def withFile (env : Environment) (text : String) : Environment :=
  env.withLines (EnvFile.lines text)

end Environment

end Ensemble.Settings
