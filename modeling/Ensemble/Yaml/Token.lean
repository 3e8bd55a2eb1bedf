import Ensemble.Yaml.Scalar

/-!
# The tokens of a YAML text

Indentation becomes tokens of its own: a block collection is opened when an entry or a key stands
to the right of the collections that are open, and closed when a line starts further left. That a
word is a key shows only at the colon behind it. So every word is remembered as a possible key,
with the number of tokens before it, and the marks of the key and of the mapping are spliced in
there when the colon comes. A possible key has to end on its line within `keyReach` characters.

* `Token.scan` reads a whole text.
-/

namespace Ensemble.Yaml

/-- A piece of a YAML text. -/
inductive Token where
  | version (major minor : Nat)
  | tagHandle (handle meaning : String)
  | documentStart
  | documentEnd
  | blockSequence
  | blockMapping
  | blockEnd
  | flowSequence
  | flowSequenceEnd
  | flowMapping
  | flowMappingEnd
  | entry
  | comma
  | key
  | value
  | alias (name : String)
  | anchor (name : String)
  | tag (handle suffix : String)
  | scalar (style : Style) (text : String)
deriving DecidableEq

/-- A place that becomes a key if a colon follows. -/
structure PossibleKey where
  /-- Whether a colon has to follow: no other word may stand at this column. -/
  required : Bool
  /-- The number of tokens before it. -/
  before : Nat
  line : Nat
  column : Nat
  offset : Nat

/-- The length that a key may have together with the blanks behind it. -/
def keyReach : Nat := 1024

/-- A text that is being taken apart. -/
structure Scan where
  cursor : Cursor
  found : Array Token := #[]
  /-- The columns of the block collections that are open, the innermost one first. -/
  indents : List Nat := []
  /-- Whether a key or an entry of a block collection may start here. -/
  keyAllowed : Bool := true
  /-- The possible key outside of all flow collections and in each open one, the innermost first. -/
  keys : List (Option PossibleKey) := [none]

namespace Scan

/-- The place on which the scan stands. -/
def next? (s : Scan) : Option Char := s.cursor.rest.head?

/-- The character after the next one. -/
def second? (s : Scan) : Option Char := (s.cursor.rest.drop 1).head?

/-- Whether a flow collection is open. -/
def inFlow (s : Scan) : Bool := 1 < s.keys.length

/-- The column of the innermost open block collection. -/
def indent? (s : Scan) : Option Nat := s.indents.head?

/-- One more token is found. -/
def emit (t : Token) (s : Scan) : Scan := { s with found := s.found.push t }

/-- Some characters are passed over. -/
def skip (n : Nat) (s : Scan) : Scan := { s with cursor := s.cursor.skip n }

/-- Puts a token where `before` tokens precede it. -/
def splice (before : Nat) (t : Token) (s : Scan) : Scan :=
  { s with found := s.found.extract 0 before ++ #[t] ++ s.found.extract before s.found.size }

/-! ## Block collections -/

/-- Opens a block collection if the column lies to the right of those that are open. -/
def openBlock (column before : Nat) (t : Token) (s : Scan) : Scan :=
  if s.inFlow then s
  else if s.indent?.all (· < column) then
    { s.splice before t with indents := column :: s.indents }
  else s

/-- Closes the block collections of the columns given. -/
def closeBlocks : List Nat → Scan → Scan
  | [], s => s
  | _ :: closed, s => closeBlocks closed (s.emit .blockEnd)

/-- Closes the block collections that start to the right of a column; without one, all of them.
Inside flow collections columns have no meaning. -/
def unindent (column : Option Nat) (s : Scan) : Scan :=
  let right (indent : Nat) : Bool := column.all (· < indent)
  if s.inFlow then s
  else
    let s := closeBlocks (s.indents.takeWhile right) s
    { s with indents := s.indents.dropWhile right }

/-! ## Possible keys -/

/-- Gives up the innermost possible key; one that is required is an error. -/
def dropKey? (s : Scan) : Option Scan :=
  match s.keys with
  | some k :: outer => if k.required then none else some { s with keys := none :: outer }
  | _ => some s

/-- Remembers the next word as a possible key. -/
def saveKey? (s : Scan) : Option Scan :=
  if s.keyAllowed then do
    let s ← s.dropKey?
    let c := s.cursor
    let key : PossibleKey :=
      { required := !s.inFlow && s.indent? = some c.column
        before := s.found.size
        line := c.line
        column := c.column
        offset := c.offset }
    some { s with keys := some key :: s.keys.drop 1 }
  else some s

/-- Whether it is too late for a colon behind a possible key. -/
def isStale (c : Cursor) (k : PossibleKey) : Bool :=
  k.line < c.line || k.offset + keyReach < c.offset

/-- Gives up the possible keys for which it is too late. -/
def dropStaleKeys? (s : Scan) : Option Scan :=
  if s.keys.any fun k => k.any fun k => isStale s.cursor k && k.required then none
  else some { s with keys := s.keys.map fun k => k.filter fun k => !isStale s.cursor k }

/-! ## One token -/

/-- The place at which the next token starts. A tab is passed over only where no key may start, and
a byte order mark at the start of a line. -/
def toNextToken : (fuel : Nat) → Scan → Scan
  | 0, s => s
  | fuel + 1, s =>
    let passes (x : Char) : Bool := x = ' ' || ((s.inFlow || !s.keyAllowed) && x = '\t')
    let c := s.cursor
    let c := if c.column = 0 && c.rest.head? = some '\ufeff' then c.next else c
    let c := (c.run passes).2.skipComment
    match c.rest with
    | [] => { s with cursor := c }
    | x :: _ =>
      if isBreak x then
        toNextToken fuel { s with cursor := c.next, keyAllowed := s.keyAllowed || !s.inFlow }
      else { s with cursor := c }

/-- A mark of a document. -/
def boundary? (t : Token) (s : Scan) : Option Scan := do
  let s ← (s.unindent none).dropKey?
  some (({ s with keyAllowed := false }.skip 3).emit t)

/-- The start of a flow collection. -/
def openFlow? (t : Token) (s : Scan) : Option Scan := do
  let s ← s.saveKey?
  some (({ s with keys := none :: s.keys, keyAllowed := true }.skip 1).emit t)

/-- The end of a flow collection. -/
def closeFlow? (t : Token) (s : Scan) : Option Scan := do
  let s ← s.dropKey?
  let keys := if s.inFlow then s.keys.drop 1 else s.keys
  some (({ s with keys, keyAllowed := false }.skip 1).emit t)

/-- The comma between the items of a flow collection. -/
def comma? (s : Scan) : Option Scan := do
  let s ← s.dropKey?
  some (({ s with keyAllowed := true }.skip 1).emit .comma)

/-- The mark before an item of a block sequence. -/
def entry? (s : Scan) : Option Scan := do
  if !s.inFlow && !s.keyAllowed then none
  else
    let s ← (s.openBlock s.cursor.column s.found.size .blockSequence).dropKey?
    some (({ s with keyAllowed := true }.skip 1).emit .entry)

/-- The mark before a key. -/
def key? (s : Scan) : Option Scan := do
  if !s.inFlow && !s.keyAllowed then none
  else
    let s ← (s.openBlock s.cursor.column s.found.size .blockMapping).dropKey?
    some (({ s with keyAllowed := !s.inFlow }.skip 1).emit .key)

/-- The colon before a value: the possible key before it becomes a key. -/
def value? (s : Scan) : Option Scan :=
  match s.keys with
  | some k :: outer =>
    let s := (s.splice k.before .key).openBlock k.column k.before .blockMapping
    some (({ s with keys := none :: outer, keyAllowed := false }.skip 1).emit .value)
  | _ =>
    if !s.inFlow && !s.keyAllowed then none
    else
      let s := s.openBlock s.cursor.column s.found.size .blockMapping
      some (({ s with keyAllowed := !s.inFlow }.skip 1).emit .value)

/-! ## Names and tags -/

/-- The characters of names. -/
def isNameChar (c : Char) : Bool := c.isAlphanum || c = '_' || c = '-'

/-- The name of an anchor behind its mark. -/
def anchorName? (c : Cursor) : Option (String × Cursor) :=
  let (name, c) := c.run isNameChar
  let ends (x : Char) : Bool := isSpace x || x ∈ ['?', ':', ',', ']', '}', '%', '@', '\x60']
  if name.isEmpty || !c.rest.head?.all ends then none else some (String.ofList name, c)

/-- An anchor or an alias. -/
def named? (t : String → Token) (s : Scan) : Option Scan := do
  let s ← s.saveKey?
  let (name, cursor) ← anchorName? s.cursor.next
  some ({ s with cursor, keyAllowed := false }.emit (t name))

/-- The characters of tags; in angle brackets some more are possible. -/
def isTagChar (verbatim : Bool) (c : Char) : Bool :=
  isNameChar c || c ∈ ";/?:@&=+$.!~*'()%".toList || (verbatim && (c = ',' || c = '[' || c = ']'))

/-- The octets of a text in which a percent sign stands before two hexadecimal digits. -/
def octets? : List Char → Option (List UInt8)
  | [] => some []
  | '%' :: a :: b :: rest => do
    let n ← Number.natural? 16 [a, b]
    some (UInt8.ofNat n :: (← octets? rest))
  | c :: rest =>
    if c = '%' then none else (octets? rest).map fun bs => (String.singleton c).toUTF8.toList ++ bs

/-- The text that a tag stands for. -/
def tagText? (cs : List Char) : Option String := do
  let bs ← octets? cs
  String.fromUTF8? ⟨bs.toArray⟩

/-- A tag, from its exclamation mark on: its handle and its suffix. The handle is empty for a tag
in angle brackets and for the tag that is a mark alone. -/
def tag? (c : Cursor) : Option (String × String × Cursor) :=
  let c := c.next
  match c.rest with
  | '<' :: _ => do
    let (uri, c) := c.next.run (isTagChar true)
    if uri.isEmpty || c.rest.head? ≠ some '>' then none
    else some ("", ← tagText? uri, c.next)
  | _ => do
    let (name, after) := c.run isNameChar
    if after.rest.head? = some '!' then
      let (suffix, c) := after.next.run (isTagChar false)
      if suffix.isEmpty then none
      else some ("!" ++ String.ofList name ++ "!", ← tagText? suffix, c)
    else
      let (suffix, c) := c.run (isTagChar false)
      if suffix.isEmpty then some ("", "!", c) else some ("!", ← tagText? suffix, c)

/-- A tag as a token. -/
def tagged? (s : Scan) : Option Scan := do
  let s ← s.saveKey?
  let (handle, suffix, cursor) ← tag? s.cursor
  let ends (x : Char) : Bool := isSpace x || (s.inFlow && x = ',')
  if cursor.rest.head?.all ends then
    some ({ s with cursor, keyAllowed := false }.emit (.tag handle suffix))
  else none

/-! ## Directives -/

/-- A version: two numbers with a point between them. -/
def version? (c : Cursor) : Option (Token × Cursor) := do
  let (major, c) := c.run Char.isDigit
  if c.rest.head? ≠ some '.' then none
  else
    let (minor, c) := c.next.run Char.isDigit
    let major ← Number.natural? 10 major
    let minor ← Number.natural? 10 minor
    some (.version major minor, c)

/-- The definition of a handle: the handle and what it stands for. -/
def handle? (c : Cursor) : Option (Token × Cursor) := do
  if c.rest.head? ≠ some '!' then none
  else
    let (name, c) := c.next.run isNameChar
    let closed := c.rest.head? = some '!'
    if !closed && !name.isEmpty then none
    else
      let c := if closed then c.next else c
      let handle := "!" ++ String.ofList name ++ (if closed then "!" else "")
      let (blanks, c) := c.run isBlank
      let (uri, c) := c.run (isTagChar true)
      if blanks.isEmpty || uri.isEmpty then none
      else some (.tagHandle handle (← tagText? uri), c)

/-- A line that says how the next document is to be read. -/
def directive? (s : Scan) : Option Scan := do
  let s ← (s.unindent none).dropKey?
  let (name, c) := s.cursor.next.run isNameChar
  let (blanks, c) := c.run isBlank
  let (t, c) ←
    if blanks.isEmpty then none
    else if name = ['Y', 'A', 'M', 'L'] then version? c
    else if name = ['T', 'A', 'G'] then handle? c
    else none
  if endsWord c.rest.head? then
    some ({ s with cursor := ← c.endLine?, keyAllowed := false }.emit t)
  else none

/-! ## Scalars as tokens -/

/-- A block of lines. -/
def block? (style : Style) (s : Scan) : Option Scan := do
  let s ← s.dropKey?
  let (text, cursor) ← block (style = .folded) s.indent? s.cursor.next
  some ({ s with cursor, keyAllowed := true }.emit (.scalar style (String.ofList text)))

/-- A scalar in quotes. -/
def quoted? (style : Style) (s : Scan) : Option Scan := do
  let s ← s.saveKey?
  let fuel := s.cursor.rest.length + 1
  let c := s.cursor.next
  let (text, cursor) ←
    if style = .singleQuoted then singleQuoted fuel [] c else doubleQuoted fuel [] c
  some ({ s with cursor, keyAllowed := false }.emit (.scalar style (String.ofList text)))

/-- Whether a plain scalar may start here. -/
def startsPlain (s : Scan) : Bool :=
  match s.next? with
  | none => false
  | some x =>
    let reserved := isFlowMark x || x ∈ "-?:#&*!|>'\"%@\x60".toList
    (!isSpace x && !reserved) || (x = '-' && !s.second?.any isBlank) ||
      (!s.inFlow && (x = '?' || x = ':') && !endsWord s.second?)

/-- A plain scalar; a key may start behind it if it ends on another line. -/
def plain? (s : Scan) : Option Scan := do
  let s ← s.saveKey?
  let least := (s.indent?.map (· + 1)).getD 0
  let (text, spansLines, cursor) ←
    plain s.inFlow least (s.cursor.rest.length + 1) [] ⟨[], []⟩ s.cursor
  some ({ s with cursor, keyAllowed := spansLines }.emit (.scalar .plain (String.ofList text)))

/-! ## The whole text -/

/-- The token that starts here. -/
def token? (s : Scan) : Option Scan :=
  let c := s.cursor
  let wordEnd := s.inFlow || endsWord s.second?
  match s.next? with
  | none => none
  | some x =>
    if c.column = 0 && x = '%' then s.directive?
    else if c.atBoundary then boundary? (if x = '-' then .documentStart else .documentEnd) s
    else if x = '[' then s.openFlow? .flowSequence
    else if x = '{' then s.openFlow? .flowMapping
    else if x = ']' then s.closeFlow? .flowSequenceEnd
    else if x = '}' then s.closeFlow? .flowMappingEnd
    else if x = ',' then s.comma?
    else if x = '-' && endsWord s.second? then s.entry?
    else if x = '?' && wordEnd then s.key?
    else if x = ':' && wordEnd then s.value?
    else if x = '*' then s.named? .alias
    else if x = '&' then s.named? .anchor
    else if x = '!' then s.tagged?
    else if x = '|' && !s.inFlow then s.block? .literal
    else if x = '>' && !s.inFlow then s.block? .folded
    else if x = '\'' then s.quoted? .singleQuoted
    else if x = '"' then s.quoted? .doubleQuoted
    else if s.startsPlain then s.plain?
    else none

/-- The end of the text: all block collections are closed. -/
def finish? (s : Scan) : Option (List Token) := do
  let s ← (s.unindent none).dropKey?
  some s.found.toList

/-- The tokens from here on; every round consumes a character. -/
def run : (fuel : Nat) → Scan → Option (List Token)
  | 0, _ => none
  | fuel + 1, s => do
    let s ← (toNextToken (s.cursor.rest.length + 1) s).dropStaleKeys?
    let s := s.unindent (some s.cursor.column)
    if s.cursor.rest.isEmpty then s.finish? else run fuel (← s.token?)

end Scan

/-- The tokens of a text. A byte order mark at its start is no part of it. -/
def Token.scan (text : String) : Option (List Token) :=
  let cs := match text.toList with
    | '\ufeff' :: rest => rest
    | cs => cs
  if cs.all isAllowed then
    let cs := unifyBreaks cs
    Scan.run (cs.length + 1) { cursor := { rest := cs } }
  else none

end Ensemble.Yaml
