import Ensemble.Number.Digits
import Ensemble.Settings.Layer
import Ensemble.Text.Blank

/-!
# Settings in sections

A file of this format has lines `key = value` or `key: value`, comments, and sections. A comment
starts with `;` or `#` in the first column. Values are texts: parts in quotes of either kind, then
the rest of the line without the white space around it. A backslash escapes. A section is a table.

* `Ini.entries?` reads the assignments of a text.
-/

namespace Ensemble.Settings.Ini

/-- The character that a one-letter escape stands for; most stand for themselves. -/
def simpleEscape : Char → Char
  | '0' => '\x00'
  | 'a' => '\x07'
  | 'b' => '\x08'
  | 't' => '\t'
  | 'r' => '\r'
  | 'n' => '\n'
  | c => c

/-- The character of an escape behind its backslash, if it stands for one, and what follows. An
escaped line break takes the character behind it along. -/
def escape? : List Char → Option (List Char × List Char)
  | [] => none
  | '\n' :: rest => some ([], rest.drop 1)
  | 'x' :: rest => do
    let digits := rest.take 4
    let n ← if digits.length = 4 then Number.natural? 16 digits else none
    if n.isValidChar then some ([Char.ofNat n], rest.drop 4) else none
  | c :: rest => some ([simpleEscape c], rest)

/-- The text up to a character that ends it, and what follows from that character on. `toEnd` tells
whether the end of the file may end it, too. -/
def textUntil (ends : Char → Bool) (toEnd : Bool) :
    (fuel : Nat) → List Char → Option (List Char × List Char)
  | 0, _ => none
  | fuel + 1, cs => do
    match cs with
    | [] => if toEnd then some ([], []) else none
    | '\\' :: rest =>
      let (c, rest) ← escape? rest
      let (text, rest) ← textUntil ends toEnd fuel rest
      some (c ++ text, rest)
    | c :: rest =>
      if ends c then some ([], c :: rest)
      else
        let (text, rest) ← textUntil ends toEnd fuel rest
        some (c :: text, rest)

/-- The characters that end a line. -/
def isLineEnd (c : Char) : Bool := c = '\n' || c = '\r'

/-- The text without white space in front. -/
def trimStart (cs : List Char) : List Char := cs.dropWhile Text.isBlank

/-- The text without white space behind. -/
def trimEnd (cs : List Char) : List Char := (trimStart cs.reverse).reverse

/-- A value: parts in quotes, then the rest of the line. -/
def value? : (fuel : Nat) → (first : Bool) → List Char → Option (List Char × List Char)
  | 0, _, _ => none
  | fuel + 1, first, cs => do
    let quote := cs.head?.filter fun c => c = '"' || c = '\''
    match quote with
    | some q =>
      let (part, rest) ← textUntil (· = q) false (cs.length + 1) (cs.drop 1)
      let (text, rest) ← value? fuel false (rest.drop 1)
      some (part ++ text, rest)
    | none =>
      let (part, rest) ← textUntil isLineEnd true (cs.length + 1) cs
      some (trimEnd (if first then trimStart part else part), rest)

/-- A file that is being read. -/
structure Reading where
  rest : List Char
  /-- Whether the rest starts in the first column. -/
  atLineStart : Bool := true
  /-- A key whose value is still to come; empty if there is none. -/
  key : String := ""
  /-- Whether a section has begun. -/
  inSection : Bool := false
  /-- The assignments before the first section. -/
  entries : List (String × Value) := []
  tables : List String := []

namespace Reading

/-- The place behind white space. -/
def skipSpace (r : Reading) : Reading :=
  let space := r.rest.takeWhile Text.isBlank
  { r with
    rest := r.rest.dropWhile Text.isBlank
    atLineStart := if space.isEmpty then r.atLineStart else space.getLast? = some '\n' }

/-- One part of a file: a comment, the head of a section, a key or a value. -/
def step? (r : Reading) : Option Reading := do
  let fuel := r.rest.length + 1
  match r.rest with
  | [] => some r
  | c :: rest =>
    if c = ';' || c = '#' then
      if r.atLineStart then some { r with rest := (rest.dropWhile (· ≠ '\n')).drop 1 } else none
    else if c = '[' then
      let (name, rest) ← textUntil (· = ']') false fuel rest
      let name := String.ofList (trimEnd (trimStart name))
      some { r with
        rest := rest.drop 1, atLineStart := false, inSection := true, tables := r.tables ++ [name] }
    else if c = '=' || c = ':' then
      if r.key.isEmpty then none
      else
        let rest := rest.dropWhile fun x => Text.isBlank x && !isLineEnd x
        let (text, rest) ← value? fuel true rest
        let entry := (r.key, Value.text (String.ofList text))
        let entries := if r.inSection then r.entries else r.entries ++ [entry]
        some { r with rest, atLineStart := false, key := "", entries }
    else
      let (key, rest) ← textUntil (fun x => x = '=' || x = ':') false fuel r.rest
      let key := String.ofList (trimEnd (trimStart key))
      some { r with rest, atLineStart := false, key }

/-- All parts of a file; each of them consumes a character. -/
def run? : (fuel : Nat) → Reading → Option Reading
  | 0, _ => none
  | fuel + 1, r =>
    let r := r.skipSpace
    if r.rest.isEmpty then some r else r.step?.bind (run? fuel)

end Reading

/-- The assignments of a text. -/
def entries? (text : String) : Option (List (String × Value)) := do
  let cs := text.toList
  let r ← Reading.run? (cs.length + 1) { rest := cs }
  some (r.entries ++ r.tables.map fun name => (name, .compound))

end Ensemble.Settings.Ini
