import Ensemble.Yaml.Token

/-!
# The nodes of YAML documents

A document is a tree of scalars, sequences and mappings, each with a tag if it has one; what a
scalar means is left to those who use the tree. An alias is replaced by the node with its anchor,
which has to come before it and may not contain it.

* `documents?` reads all documents of a text, `document?` a text that is one document.
-/

namespace Ensemble.Yaml

/-- A node of a document. -/
inductive Node where
  | scalar (tag : Option String) (style : Style) (text : String)
  | sequence (tag : Option String) (items : List Node)
  | mapping (tag : Option String) (entries : List (Node × Node))

namespace Node

instance : Inhabited Node := ⟨scalar none .plain ""⟩

/-- What stands where nothing is written. -/
def empty : Node := scalar none .plain ""

/-- The tokens that are still to be read, and what the ones before them have defined. -/
structure Stream where
  tokens : List Token
  anchors : List (String × Node) := []
  handles : List (String × String) := []

/-- Reading from a stream, which may fail. -/
abbrev Reading (α : Type) : Type := StateT Stream Option α

/-- The next token. -/
def peek : Reading (Option Token) := do return (← get).tokens.head?

/-- Passes over the next token. -/
def advance : Reading Unit := modify fun s => { s with tokens := s.tokens.drop 1 }

/-- Whether one of the tokens given comes next. -/
def isNext (ts : List Token) : Reading Bool := do return (← peek).any (ts.contains ·)

/-- Passes over a token that has to be there. -/
def expect (t : Token) : Reading Unit := do if ← isNext [t] then advance else failure

/-- Passes over a token if it comes next, and tells whether it did. -/
def accept (t : Token) : Reading Bool := do
  if ← isNext [t] then advance; return true else return false

/-! ## Properties of nodes -/

/-- The handles that need no definition. -/
def commonHandles : List (String × String) := [("!", "!"), ("!!", "tag:yaml.org,2002:")]

/-- The tag with a handle and a suffix. -/
def fullTag (handle suffix : String) : Reading String := do
  if handle.isEmpty then return suffix
  else
    match ((← get).handles ++ commonHandles).lookup handle with
    | some meaning => return meaning ++ suffix
    | none => failure

/-- The tag that comes next, if one does. -/
def tag? : Reading (Option String) := do
  match ← peek with
  | some (.tag handle suffix) => advance; return some (← fullTag handle suffix)
  | _ => return none

/-- The anchor that comes next, if one does. -/
def anchor? : Reading (Option String) := do
  match ← peek with
  | some (.anchor name) => advance; return some name
  | _ => return none

/-- An anchor and a tag, in either order. -/
def properties : Reading (Option String × Option String) := do
  match ← anchor? with
  | some name => return (some name, ← tag?)
  | none =>
    let tag ← tag?
    return (← anchor?, tag)

/-- Defines an anchor. -/
def define (anchor : Option String) (n : Node) : Reading Node := do
  match anchor with
  | some name => modify fun s => { s with anchors := (name, n) :: s.anchors }
  | none => pure ()
  return n

/-! ## Nodes

The functions below read one another's parts. Between two calls on a chain of calls a token is
consumed, or else the call is the last of its chain, so that fuel of twice the number of tokens
suffices. -/

mutual

/-- A node. Block collections are possible where `block` says so, and a sequence whose entries
are not indented where `flat` does. -/
def node (block flat : Bool) : (fuel : Nat) → Reading Node
  | 0 => failure
  | fuel + 1 => do
    match ← peek with
    | some (.alias name) =>
      advance
      match (← get).anchors.lookup name with
      | some n => return n
      | none => failure
    | _ =>
      let (anchor, tag) ← properties
      let absent : Reading Node :=
        if anchor.isSome || tag.isSome then pure (scalar tag .plain "") else failure
      let n ← match ← peek with
        | some (.scalar style text) => do advance; pure (scalar tag style text)
        | some .entry => if flat then do pure (sequence tag (← flatItems fuel)) else absent
        | some .flowSequence => do advance; pure (sequence tag (← flowItems true fuel))
        | some .flowMapping => do advance; pure (mapping tag (← flowEntries true fuel))
        | some .blockSequence =>
          if block then do advance; pure (sequence tag (← blockItems fuel)) else absent
        | some .blockMapping =>
          if block then do advance; pure (mapping tag (← blockEntries fuel)) else absent
        | _ => absent
      define anchor n

/-- A node, or nothing if one of the tokens given comes next. -/
def nodeUnless (stops : List Token) (block flat : Bool) : (fuel : Nat) → Reading Node
  | 0 => failure
  | fuel + 1 => do if ← isNext stops then return empty else node block flat fuel

/-- The items of a block sequence. -/
def blockItems : (fuel : Nat) → Reading (List Node)
  | 0 => failure
  | fuel + 1 => do
    if ← accept .blockEnd then return []
    expect .entry
    let n ← nodeUnless [.entry, .blockEnd] true false fuel
    return n :: (← blockItems fuel)

/-- The items of a sequence whose entries stand at the column of the mapping around it. -/
def flatItems : (fuel : Nat) → Reading (List Node)
  | 0 => failure
  | fuel + 1 => do
    if ← accept .entry then
      let n ← nodeUnless [.entry, .key, .value, .blockEnd] true false fuel
      return n :: (← flatItems fuel)
    else return []

/-- The entries of a block mapping. -/
def blockEntries : (fuel : Nat) → Reading (List (Node × Node))
  | 0 => failure
  | fuel + 1 => do
    if ← accept .blockEnd then return []
    expect .key
    let k ← nodeUnless [.key, .value, .blockEnd] true true fuel
    let v ← valueIn [.key, .value, .blockEnd] true fuel
    return (k, v) :: (← blockEntries fuel)

/-- The value behind a key; nothing if there is no colon. -/
def valueIn (stops : List Token) (block : Bool) : (fuel : Nat) → Reading Node
  | 0 => failure
  | fuel + 1 => do
    if ← accept .value then nodeUnless stops block block fuel else return empty

/-- The items of a flow sequence; a pair with a colon is a mapping with one entry. The token behind
an empty key is passed over. -/
def flowItems (first : Bool) : (fuel : Nat) → Reading (List Node)
  | 0 => failure
  | fuel + 1 => do
    if ← accept .flowSequenceEnd then return []
    if !first then expect .comma
    if ← accept .flowSequenceEnd then return []
    let n ← if ← accept .key then do
        let bare ← isNext [.value, .comma, .flowSequenceEnd]
        if bare then advance
        let k ← if bare then pure empty else node false false fuel
        let v ← valueIn [.comma, .flowSequenceEnd] false fuel
        pure (mapping none [(k, v)])
      else node false false fuel
    return n :: (← flowItems false fuel)

/-- The entries of a flow mapping; a node without a colon is a key without a value. -/
def flowEntries (first : Bool) : (fuel : Nat) → Reading (List (Node × Node))
  | 0 => failure
  | fuel + 1 => do
    if ← accept .flowMappingEnd then return []
    if !first then expect .comma
    if ← accept .flowMappingEnd then return []
    let entry ← if ← accept .key then do
        let k ← nodeUnless [.value, .comma, .flowMappingEnd] false false fuel
        pure (k, ← valueIn [.comma, .flowMappingEnd] false fuel)
      else do pure (← node false false fuel, empty)
    return entry :: (← flowEntries false fuel)

end

/-! ## Documents -/

/-- The directives before a document: a version of 1.1 or 1.2, at most once, and handles, each at
most once. -/
def directives (versioned : Bool) : (fuel : Nat) → Reading Unit
  | 0 => failure
  | fuel + 1 => do
    match ← peek with
    | some (.version major minor) =>
      if versioned || major ≠ 1 || (minor ≠ 1 && minor ≠ 2) then failure
      advance
      directives true fuel
    | some (.tagHandle handle meaning) =>
      if ((← get).handles.lookup handle).isSome then failure
      advance
      modify fun s => { s with handles := (handle, meaning) :: s.handles }
      directives versioned fuel
    | _ => return

/-- Whether the next token ends the content of a document. -/
def atDocumentEnd : Reading Bool := do
  match ← peek with
  | none | some (.version _ _) | some (.tagHandle _ _) => return true
  | some .documentStart | some .documentEnd => return true
  | _ => return false

/-- Passes over marks of document ends. -/
def documentEnds : (fuel : Nat) → Reading Unit
  | 0 => failure
  | fuel + 1 => do if ← accept .documentEnd then documentEnds fuel

/-- The documents of a stream. Only the first one may start without a mark. -/
def documents (first : Bool) : (fuel : Nat) → Reading (List Node)
  | 0 => failure
  | fuel + 1 => do
    modify fun s => { s with anchors := [], handles := [] }
    if !first then documentEnds (fuel + 1)
    if (← peek).isNone then return []
    let bare := first && (!(← atDocumentEnd) || (← isNext [.documentEnd]))
    if !bare then
      directives false (fuel + 1)
      expect .documentStart
    let absent ← atDocumentEnd
    let n ← if absent && !bare then pure empty else node true false (2 * fuel + 8)
    let _ ← accept .documentEnd
    return n :: (← documents false fuel)

end Node

/-- The documents of a text. -/
def documents? (text : String) : Option (List Node) := do
  let tokens ← Token.scan text
  (Node.documents true (tokens.length + 2)).run' { tokens }

/-- The document that a text consists of. -/
def document? (text : String) : Option Node := do
  match ← documents? text with
  | [n] => some n
  | _ => none

end Ensemble.Yaml
