import Ensemble.Settings.Toml.Literal
import Ensemble.Settings.Toml.Table

/-!
# TOML documents

A document is a sequence of lines: assignments, headers of tables and of elements of lists, comments
and nothing. A value may be a list, which may span lines, or a table, which may not.

* `Toml.entries?` reads the assignments of a text.
-/

namespace Ensemble.Settings.Toml

/-! ## Keys -/

/-- The characters of a key without quotes. -/
def isKeyChar (c : Char) : Bool := c.isAlphanum || c = '_' || c = '-'

/-- One part of a key: bare or in quotes. -/
def keyPart? (cs : List Char) : Option (String × List Char) :=
  match cs with
  | '"' :: rest => lineText? '"' (rest.length + 1) [] rest
  | '\'' :: rest => lineText? '\'' (rest.length + 1) [] rest
  | _ =>
    let part := cs.takeWhile isKeyChar
    if part.isEmpty then none else some (String.ofList part, cs.drop part.length)

/-- A key: parts with points between them, and the blanks around all of them. -/
def key? : (fuel : Nat) → List Char → Option (List String × List Char)
  | 0, _ => none
  | fuel + 1, cs => do
    let (part, rest) ← keyPart? (skipBlanks cs)
    match skipBlanks rest with
    | '.' :: rest =>
      let (parts, rest) ← key? fuel rest
      some (part :: parts, rest)
    | rest => some ([part], rest)

/-! ## Values -/

/-- What follows a comment at the front, if there is one. -/
def skipComment? (cs : List Char) : Option (List Char) :=
  match cs with
  | '#' :: rest =>
    let rest := rest.dropWhile (!isControl ·)
    if rest.isEmpty || (lineBreak? rest).isSome then some rest else none
  | _ => some cs

/-- What follows blanks, line breaks and comments. -/
def skipLines? : (fuel : Nat) → List Char → Option (List Char)
  | 0, _ => none
  | fuel + 1, cs => do
    let cs ← skipComment? (skipBlanks cs)
    match lineBreak? cs with
    | some rest => skipLines? fuel rest
    | none => some cs

mutual

/-- A value. -/
def value? : (fuel : Nat) → List Char → Option (Value × List Char)
  | 0, _ => none
  | fuel + 1, cs => do
    match cs with
    | '"' :: rest => (text? '"' rest).map fun p => (.text p.1, p.2)
    | '\'' :: rest => (text? '\'' rest).map fun p => (.text p.1, p.2)
    | '[' :: rest => (items? fuel rest).map fun rest => (.compound, rest)
    | '\x7b' :: rest =>
      match skipBlanks rest with
      | '\x7d' :: rest => some (.compound, rest)
      | rest => (pairs? fuel [] rest).map fun rest => (.compound, rest)
    | cs =>
      let (word, rest) := word cs
      (wordValue? word).map fun v => (v, rest)

/-- What follows the rest of a list. -/
def items? : (fuel : Nat) → List Char → Option (List Char)
  | 0, _ => none
  | fuel + 1, cs => do
    match ← skipLines? (cs.length + 1) cs with
    | ']' :: rest => some rest
    | cs =>
      let (_, rest) ← value? fuel cs
      match ← skipLines? (rest.length + 1) rest with
      | ',' :: rest => items? fuel rest
      | ']' :: rest => some rest
      | _ => none

/-- What follows the rest of a table in braces, which has the assignments of `t` so far. -/
def pairs? : (fuel : Nat) → (t : Table) → List Char → Option (List Char)
  | 0, _, _ => none
  | fuel + 1, t, cs => do
    let (key, rest) ← key? (cs.length + 1) cs
    match rest with
    | '=' :: rest =>
      let (v, rest) ← value? fuel (skipBlanks rest)
      let t ← t.assign? [] key v
      match skipBlanks rest with
      | ',' :: rest => pairs? fuel t rest
      | '\x7d' :: rest => some rest
      | _ => none
    | _ => none

end

/-! ## Lines -/

/-- A document of which some lines have been read: its tables, and the path of the table to which
assignments go. -/
structure Document where
  root : Table := []
  path : List String := []

namespace Document

/-- A header behind its brackets: the path in it, and what follows the brackets at its end. -/
def path? (brackets : List Char) (cs : List Char) : Option (List String × List Char) := do
  let (path, rest) ← key? (cs.length + 1) cs
  if brackets.isPrefixOf rest then some (path, rest.drop brackets.length) else none

/-- What stands on a line before its end: a header, an assignment or nothing. -/
def content? (d : Document) (cs : List Char) : Option (Document × List Char) := do
  match cs with
  | [] | '#' :: _ | '\n' :: _ | '\r' :: _ => some (d, cs)
  | '[' :: '[' :: rest =>
    let (path, rest) ← path? [']', ']'] rest
    some (⟨← d.root.append? path, path⟩, rest)
  | '[' :: rest =>
    let (path, rest) ← path? [']'] rest
    some (⟨← d.root.open? path, path⟩, rest)
  | cs =>
    let (key, rest) ← key? (cs.length + 1) cs
    match rest with
    | '=' :: rest =>
      let (v, rest) ← value? (rest.length + 1) (skipBlanks rest)
      some ({ d with root := ← d.root.assign? d.path key v }, rest)
    | _ => none

/-- All lines; each of them consumes a character. -/
def lines? : (fuel : Nat) → Document → List Char → Option Document
  | 0, _, _ => none
  | fuel + 1, d, cs => do
    let (d, rest) ← d.content? (skipBlanks cs)
    let rest ← skipComment? (skipBlanks rest)
    if rest.isEmpty then some d else lines? fuel d (← lineBreak? rest)

end Document

/-- The assignments of a text. -/
def entries? (text : String) : Option (List (String × Value)) := do
  let cs := text.toList
  let d ← Document.lines? (cs.length + 1) {} cs
  some d.root.entries

end Ensemble.Settings.Toml
