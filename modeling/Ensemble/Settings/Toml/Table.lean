import Ensemble.Settings.Value

/-!
# TOML tables

The tables of a file are defined piece by piece, by headers and by keys with several parts. Which
pieces may be added to a table depends on how the table came about.

* `Table.assign?` gives a value to a key.
* `Table.open?` and `Table.append?` define a table and an element of a list of tables.
-/

namespace Ensemble.Settings.Toml

/-- How a table came about. -/
inductive Origin where
  /-- It is on the way to a table with a header of its own. -/
  | implied
  /-- A header names it. -/
  | header
  /-- It is on the way to the last part of a key. -/
  | dotted
deriving DecidableEq

/-- What a key of a table stands for. -/
inductive Item where
  | value (v : Value)
  | table (origin : Origin) (entries : List (String × Item))
  /-- The tables of a list, the last one first. -/
  | tables (elements : List (List (String × Item)))

/-- The entries of a table, in the order in which they were made. -/
abbrev Table := List (String × Item)

namespace Table

/-- Puts another item in the place of one that is there. -/
def replace (key : String) (item : Item) (t : Table) : Table :=
  t.map fun e => if e.1 = key then (key, item) else e

/-- Changes the table at a path. Tables that are not there are made. A key with several parts may
lead through tables of no header, and end in one that such keys have made. -/
def alter? (dotted : Bool) (change : Table → Option Table) : List String → Table → Option Table
  | [], t => change t
  | k :: path, t =>
    match t.lookup k with
    | none =>
      let origin := if dotted then Origin.dotted else .implied
      (alter? dotted change path []).map fun sub => t ++ [(k, .table origin sub)]
    | some (.table origin sub) =>
      if dotted && (origin = .header || (path.isEmpty && origin ≠ .dotted)) then none
      else (alter? dotted change path sub).map fun sub => t.replace k (.table origin sub)
    | some (.tables (last :: earlier)) =>
      if dotted && path.isEmpty then none
      else
        (alter? dotted change path last).map fun last => t.replace k (.tables (last :: earlier))
    | some _ => none

/-- Adds an entry with a new key. -/
def add? (key : String) (item : Item) (t : Table) : Option Table :=
  if (t.lookup key).isSome then none else some (t ++ [(key, item)])

/-- Gives a value to a key, in the table at a path. -/
def assign? (path : List String) (key : List String) (v : Value) (t : Table) : Option Table := do
  let last ← key.getLast?
  let assignIn : Table → Option Table := alter? true (add? last (.value v)) key.dropLast
  alter? false assignIn path t

/-- Defines the table at a path; it may be implied already. -/
def open? (path : List String) (t : Table) : Option Table := do
  let last ← path.getLast?
  let define (t : Table) : Option Table :=
    match t.lookup last with
    | none => some (t ++ [(last, .table .header [])])
    | some (.table .implied sub) => some (t.replace last (.table .header sub))
    | some _ => none
  alter? false define path.dropLast t

/-- Defines one more element of the list of tables at a path. -/
def append? (path : List String) (t : Table) : Option Table := do
  let last ← path.getLast?
  let define (t : Table) : Option Table :=
    match t.lookup last with
    | none => some (t ++ [(last, .tables [[]])])
    | some (.tables elements) => some (t.replace last (.tables ([] :: elements)))
    | some _ => none
  alter? false define path.dropLast t

/-- The assignments of a table. -/
def entries (t : Table) : List (String × Value) :=
  t.map fun e =>
    match e.2 with
    | .value v => (e.1, v)
    | _ => (e.1, .compound)

end Table

end Ensemble.Settings.Toml
