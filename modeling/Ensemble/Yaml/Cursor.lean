/-!
# Places in a YAML text

A YAML text is read from the front. A `Cursor` is what is left of the text together with the line
and the column at which the rest starts, because a column decides to which collection an entry
belongs.

* `Cursor.run` takes the longest run of characters of a class.
* `Cursor.atBoundary` recognizes the marks between documents.
-/

namespace Ensemble.Yaml

/-- Blanks separate the words of a line. -/
def isBlank (c : Char) : Bool := c = ' ' || c = '\t'

/-- A line break, once the spellings of a line break are one. -/
def isBreak (c : Char) : Bool := c = '\n' || c = '\u2028' || c = '\u2029'

/-- White space. -/
def isSpace (c : Char) : Bool := isBlank c || isBreak c

/-- Whether a word ends before the character given: before white space and at the end. -/
def endsWord (c : Option Char) : Bool := c.all isSpace

/-- The characters that may stand in a text at all. -/
def isAllowed (c : Char) : Bool :=
  let n := c.toNat
  c = '\t' || c = '\n' || c = '\r' || (0x20 ≤ n && n ≤ 0x7e) || n = 0x85 ||
    (0xa0 ≤ n && n ≤ 0xfffd) || 0x10000 ≤ n

/-- The text with one spelling of line breaks. -/
def unifyBreaks : List Char → List Char
  | '\r' :: '\n' :: rest => '\n' :: unifyBreaks rest
  | c :: rest => (if c = '\r' || c = '\u0085' then '\n' else c) :: unifyBreaks rest
  | [] => []

/-- What is left of a text and where it starts. -/
structure Cursor where
  rest : List Char
  line : Nat := 0
  column : Nat := 0
  offset : Nat := 0

namespace Cursor

/-- The place behind the next character. -/
def next (c : Cursor) : Cursor :=
  match c.rest with
  | [] => c
  | x :: rest =>
    if isBreak x then ⟨rest, c.line + 1, 0, c.offset + 1⟩
    else ⟨rest, c.line, c.column + 1, c.offset + 1⟩

/-- The place `n` characters further on. -/
def skip : Nat → Cursor → Cursor
  | 0, c => c
  | n + 1, c => skip n c.next

/-- The longest run of characters of a class, and the place behind it. -/
def run (p : Char → Bool) (c : Cursor) : List Char × Cursor :=
  let cs := c.rest.takeWhile p
  (cs, skip cs.length c)

/-- Whether the next characters are the ones given, as a word of their own. -/
def atWord (word : List Char) (c : Cursor) : Bool :=
  word.isPrefixOf c.rest && endsWord (c.rest.drop word.length).head?

/-- Whether a document starts or ends here. -/
def atBoundary (c : Cursor) : Bool :=
  c.column = 0 && (c.atWord ['-', '-', '-'] || c.atWord ['.', '.', '.'])

/-- The place behind a comment: at the end of its line. -/
def skipComment (c : Cursor) : Cursor :=
  if c.rest.head? = some '#' then (c.run fun x => !isBreak x).2 else c

/-- The place behind the blanks, the comment and the line break that end a line; `none` if there
is anything else on it. -/
def endLine? (c : Cursor) : Option Cursor :=
  let c := (c.run isBlank).2.skipComment
  if c.rest.head?.all isBreak then some c.next else none

end Cursor

end Ensemble.Yaml
