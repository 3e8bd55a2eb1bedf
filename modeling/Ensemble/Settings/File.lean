import Ensemble.Json.Reader
import Ensemble.Settings.Ini
import Ensemble.Settings.Toml.Document
import Ensemble.Yaml.Core

/-!
# Settings files

A settings file is written in one of four formats, which its name tells. In each of them the
settings are the entries of the outermost table.

* `FileFormat.entries?` reads the assignments of a text.
* `findFile?` looks for the file that a path means.
-/

namespace Ensemble.Settings

/-- The formats of settings files. -/
inductive FileFormat where
  | toml
  | json
  | yaml
  | ini
deriving DecidableEq

namespace FileFormat

/-- What the names of files in a format end in. -/
def extensions : FileFormat → List String
  | toml => ["toml"]
  | json => ["json"]
  | yaml => ["yaml", "yml"]
  | ini => ["ini"]

/-- All formats. -/
def all : List FileFormat := [toml, json, yaml, ini]

/-- The format of files with a name that ends in `extension`. -/
def ofExtension? (extension : String) : Option FileFormat :=
  all.find? fun f => extension ∈ f.extensions

end FileFormat

/-! ## JSON -/

/-- A JSON value as a value of a setting. Integers that need more than 64 bits with a sign are
rounded to floating point numbers. -/
def Value.ofJson : Json → Value
  | .null => .nothing
  | .bool b => .bool b
  | .int n => if isShort n then .int n else .float (Binary64.ofInt n)
  | .float x => .float x
  | .str s => .text s
  | .arr _ | .obj _ => .compound

/-- The assignments of a text whose value is an object. -/
def jsonEntries? (text : String) : Option (List (String × Value)) :=
  match Json.read? text with
  | some (.obj fields) => some (fields.map fun f => (f.1, .ofJson f.2))
  | _ => none

/-! ## YAML -/

/-- An integer in a YAML settings file, of 64 bits with a sign. -/
def yamlInteger? (cs : List Char) : Option Int :=
  let n := match cs with
    | '0' :: 'x' :: digits => Number.integer? 16 digits
    | '0' :: 'o' :: digits => Number.integer? 8 digits
    | '+' :: digits => Number.integer? 10 digits
    | digits => Number.integer? 10 digits
  n.filter Value.isShort

/-- The spellings of floating point numbers that are not finite; a settings file may not use
them. -/
def isUnbounded (text : String) : Bool :=
  text ∈ [".inf", ".Inf", ".INF", "+.inf", "+.Inf", "+.INF", "-.inf", "-.Inf", "-.INF", ".nan",
    ".NAN"]

/-- The value of a plain scalar. -/
def yamlPlain? (text : String) : Option Value :=
  let cs := text.toList
  if text ∈ ["", "~", "null"] then some .nothing
  else if text = "true" then some (.bool true)
  else if text = "false" then some (.bool false)
  else if isUnbounded text then none
  else
    match yamlInteger? cs with
    | some n => some (.int n)
    | none =>
      match if cs.any Char.isDigit || text = "NaN" then Number.float? cs else none with
      | some x => some (.float x)
      | none => some (.text text)

/-- The value of a scalar with a tag of the core schema; one that does not fit is no value. -/
def yamlTagged? (name : String) (text : String) : Option Value :=
  let cs := text.toList
  match name with
  | "null" => some .nothing
  | "bool" =>
    some (if text = "true" then .bool true else if text = "false" then .bool false else .nothing)
  | "int" => some ((((Number.integer? 10 cs).filter Value.isShort).map .int).getD .nothing)
  | "float" =>
    if isUnbounded text then none else some (((Number.float? cs).map .float).getD .nothing)
  | _ => some (.text text)

/-- The value of a scalar. -/
def yamlScalar? (tag : Option String) (style : Yaml.Style) (text : String) : Option Value :=
  if style ≠ .plain then some (.text text)
  else
    match tag with
    | some t => yamlTagged? (Yaml.Node.schemaName t) text
    | none => yamlPlain? text

/-- Whether no two entries have the same key. -/
def keysDiffer (entries : List (Yaml.Node × Yaml.Node)) : Bool :=
  let keys := entries.filterMap fun e => e.1.keyText?
  keys.eraseDups.length = keys.length

mutual

/-- The value of a node; everything in a list or a table has to have a value, too. -/
def yamlValue? : Yaml.Node → Option Value
  | .scalar tag style text => yamlScalar? tag style text
  | .sequence _ items => if yamlItems items then some .compound else none
  | .mapping _ entries =>
    if keysDiffer entries && yamlEntries entries then some .compound else none

/-- Whether all items have values. -/
def yamlItems : List Yaml.Node → Bool
  | [] => true
  | n :: rest => (yamlValue? n).isSome && yamlItems rest

/-- Whether all entries have values. -/
def yamlEntries : List (Yaml.Node × Yaml.Node) → Bool
  | [] => true
  | (_, n) :: rest => (yamlValue? n).isSome && yamlEntries rest

end

/-- The assignments of a text whose document is a mapping, or which has no document. -/
def yamlEntries? (text : String) : Option (List (String × Value)) := do
  match ← Yaml.documents? text with
  | [] => some []
  | [.mapping _ entries] =>
    if keysDiffer entries then
      entries.mapM fun e => do
        let key ← e.1.keyText?
        let v ← yamlValue? e.2
        some (key, v)
    else none
  | _ => none

/-! ## Files -/

/-- The assignments of a text in a format. -/
def FileFormat.entries? : FileFormat → String → Option (List (String × Value))
  | toml => Toml.entries?
  | json => jsonEntries?
  | yaml => yamlEntries?
  | ini => Ini.entries?

/-- The files of the working directory: names and texts. -/
abbrev Directory := List (String × String)

/-- The parts of a path, without those that stay where they are. -/
def pathParts (path : String) : List String :=
  (path.splitOn "/").filter fun part => part ≠ "" && part ≠ "."

/-- What a name ends in behind its last point; a point at its start is no such point. -/
def extension? (name : String) : Option String :=
  match (name.splitOn ".").reverse with
  | last :: before :: earlier => if earlier.isEmpty && before.isEmpty then none else some last
  | _ => none

/-- The text of the file at a path. -/
def Directory.read? (d : Directory) (parts : List String) : Option String :=
  (d.find? fun f => pathParts f.1 = parts).map (·.2)

/-- The file that a path means, as its format and its text: the file at the path, whose name has to
tell its format, or else the first one at the path with one of the known endings added. -/
def findFile? (d : Directory) (path : String) : Option (FileFormat × String) :=
  let parts := pathParts path
  match d.read? parts with
  | some text => do
    let name ← parts.getLast?
    let format ← (extension? name).bind FileFormat.ofExtension?
    some (format, text)
  | none =>
    let candidates := FileFormat.all.flatMap fun f => f.extensions.map fun e => (f, e)
    candidates.findSome? fun c =>
      let name := (parts.getLast?.getD "") ++ "." ++ c.2
      (d.read? (parts.dropLast ++ [name])).map fun text => (c.1, text)

/-- The layer of the file that a path means. A byte order mark at the start of a file is no part of
its text. -/
def fileLayer? (d : Directory) (path : String) : Option Layer := do
  let (format, text) ← findFile? d path
  let cs := text.toList
  let text := if cs.head? = some '\ufeff' then String.ofList (cs.drop 1) else text
  (format.entries? text).map .ofEntries

end Ensemble.Settings
