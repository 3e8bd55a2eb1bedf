import Ensemble.Number.Digits
import Ensemble.Yaml.Cursor

/-!
# The text of YAML scalars

A scalar may be written plainly, in quotes of two kinds, or as a block of lines of two kinds. This
module reads each of them: its text without the marks around it, and the place behind it.

* A plain scalar goes on over several lines while these are indented, and ends before a comment, a
  colon that ends a word, and inside flow collections before the marks of these.
* Between words of a plain or quoted scalar one line break stands for a space, and of several the
  first one for nothing (`Gap.text`).
* The lines of a block lose their indentation; a folded block joins lines by the same rule, a
  literal one keeps its line breaks.

The loops take fuel; every round of them consumes a character, so that the length of the text is
enough.
-/

namespace Ensemble.Yaml

/-- How a scalar is written. -/
inductive Style where
  | plain
  | singleQuoted
  | doubleQuoted
  | literal
  | folded
deriving DecidableEq

/-! ## White space inside scalars -/

/-- The white space between two words of a scalar. -/
structure Gap where
  /-- The blanks before the first line break. -/
  blanks : List Char
  breaks : List Char

/-- White space as a gap. -/
def Gap.ofChars (cs : List Char) : Gap := ⟨cs.takeWhile isBlank, cs.filter isBreak⟩

/-- What a gap stands for. -/
def Gap.text (g : Gap) : List Char :=
  match g.breaks with
  | [] => g.blanks
  | ['\n'] => [' ']
  | '\n' :: more => more
  | breaks => breaks

/-- Whether a gap spans lines. -/
def Gap.spansLines (g : Gap) : Bool := !g.breaks.isEmpty

/-! ## Plain scalars -/

/-- The marks of flow collections. -/
def isFlowMark (c : Char) : Bool := c = ',' || c = '[' || c = ']' || c = '{' || c = '}'

/-- The next word of a plain scalar; empty if the scalar ends here. Inside a flow collection a
colon right before one of its marks is refused. -/
def plainWord (flow : Bool) : List Char → Option (List Char)
  | [] => some []
  | c :: rest =>
    if isSpace c then some []
    else if flow && c = ':' && rest.head?.any (fun x => x = '?' || isFlowMark x) then none
    else if c = ':' && endsWord rest.head? then some []
    else if flow && isFlowMark c then some []
    else (plainWord flow rest).map (c :: ·)

/-- Whether a tab stands in the indentation of a line, left of a column. `here` is the column of
the first character if that is part of an indentation. -/
def tabIndents (column : Nat) : (here : Option Nat) → List Char → Bool
  | _, [] => false
  | here, c :: rest =>
    if isBreak c then tabIndents column (some 0) rest
    else (c = '\t' && here.any (· < column)) || tabIndents column (here.map (· + 1)) rest

/-- A plain scalar, from a word or a gap on; lines after the first start at the column `indent` or
to the right of it. Yields the text, the place behind the white space after it, and whether that
white space spans lines. -/
def plain (flow : Bool) (indent : Nat) :
    (fuel : Nat) → (text : List Char) → Gap → Cursor → Option (List Char × Bool × Cursor)
  | 0, _, _, _ => none
  | fuel + 1, text, gap, c => do
    if c.atBoundary || c.rest.head? = some '#' then some (text, gap.spansLines, c)
    else
      let word ← plainWord flow c.rest
      if word.isEmpty then some (text, gap.spansLines, c)
      else
        let text := text ++ gap.text ++ word
        let (space, after) := (c.skip word.length).run isSpace
        let gap := Gap.ofChars space
        if space.isEmpty then some (text, false, after)
        else if tabIndents indent none space then none
        else if !flow && after.column < indent then some (text, gap.spansLines, after)
        else plain flow indent fuel text gap after

/-! ## Quoted scalars -/

/-- The character that a one-letter escape stands for. -/
def simpleEscape? : Char → Option Char
  | '0' => some '\x00'
  | 'a' => some '\x07'
  | 'b' => some '\x08'
  | 't' | '\t' => some '\t'
  | 'n' => some '\n'
  | 'v' => some '\x0b'
  | 'f' => some '\x0c'
  | 'r' => some '\r'
  | 'e' => some '\x1b'
  | ' ' => some ' '
  | '"' => some '"'
  | '/' => some '/'
  | '\\' => some '\\'
  | 'N' => some '\u0085'
  | '_' => some '\u00a0'
  | 'L' => some '\u2028'
  | 'P' => some '\u2029'
  | _ => none

/-- The number of hexadecimal digits behind the letter of an escape. -/
def escapeLength? : Char → Option Nat
  | 'x' => some 2
  | 'u' => some 4
  | 'U' => some 8
  | _ => none

/-- The character with a code point; the halves of surrogate pairs are none. -/
def charOf? (n : Nat) : Option Char := if n.isValidChar then some (Char.ofNat n) else none

/-- The character of an escape with hexadecimal digits, and its length without the backslash. -/
def numericEscape? (letter : Char) (rest : List Char) : Option (Char × Nat) := do
  let length ← escapeLength? letter
  let digits := rest.take length
  if digits.length = length then
    let n ← Number.natural? 16 digits
    let c ← charOf? n
    some (c, length + 1)
  else none

/-- The rest of a scalar in single quotes; a quote that belongs to the text is written
twice. What has been read stands in reverse. -/
def singleQuoted : (fuel : Nat) → (read : List Char) → Cursor → Option (List Char × Cursor)
  | 0, _, _ => none
  | fuel + 1, read, c =>
    if c.atBoundary then none
    else
      match c.rest with
      | [] => none
      | '\'' :: '\'' :: _ => singleQuoted fuel ('\'' :: read) (c.skip 2)
      | '\'' :: _ => some (read.reverse, c.next)
      | x :: _ =>
        if isSpace x then
          let (space, after) := c.run isSpace
          singleQuoted fuel ((Gap.ofChars space).text.reverse ++ read) after
        else singleQuoted fuel (x :: read) c.next

/-- The rest of a scalar in double quotes; an escaped line break stands for nothing. -/
def doubleQuoted : (fuel : Nat) → (read : List Char) → Cursor → Option (List Char × Cursor)
  | 0, _, _ => none
  | fuel + 1, read, c => do
    if c.atBoundary then none
    else
      match c.rest with
      | [] => none
      | '"' :: _ => some (read.reverse, c.next)
      | '\\' :: x :: rest =>
        if isBreak x then
          let (space, after) := (c.skip 2).run isSpace
          doubleQuoted fuel ((space.filter isBreak).reverse ++ read) after
        else
          match simpleEscape? x with
          | some e => doubleQuoted fuel (e :: read) (c.skip 2)
          | none =>
            let (e, length) ← numericEscape? x rest
            doubleQuoted fuel (e :: read) (c.skip (length + 1))
      | x :: _ =>
        if isSpace x then
          let (space, after) := c.run isSpace
          doubleQuoted fuel ((Gap.ofChars space).text.reverse ++ read) after
        else doubleQuoted fuel (x :: read) c.next

/-! ## Block scalars -/

/-- What becomes of the line breaks at the end of a block. -/
inductive Chomping where
  | strip
  | clip
  | keep
deriving DecidableEq

/-- The chomping that a mark asks for. -/
def chomping? : Char → Option Chomping
  | '+' => some .keep
  | '-' => some .strip
  | _ => none

/-- What the head of a block says: the chomping, and by how much the lines are indented. -/
structure BlockHead where
  chomping : Chomping
  step : Option Nat

/-- Reads the head of a block behind its first mark; its two parts may come in either order. -/
def blockHead? (c : Cursor) : Option (BlockHead × Cursor) := do
  let chomping := c.rest.head?.bind chomping?
  let c := if chomping.isSome then c.next else c
  let step := c.rest.head?.bind (Number.digit? 10)
  let c := if step.isSome then c.next else c
  if step = some 0 then none
  else
    let late := if chomping.isSome || step.isNone then none else c.rest.head?.bind chomping?
    let c := if late.isSome then c.next else c
    some (⟨(chomping <|> late).getD .clip, step⟩, ← c.endLine?)

/-- The line breaks of blank lines and the indentation of the line that follows them. -/
structure BlockMargin where
  /-- The greatest column reached. -/
  width : Nat
  breaks : List Char
  length : Nat

/-- Reads blank lines and the spaces of an indentation of at most `limit` columns, or of any number
of columns if `limit` is zero; a tab there is refused. -/
def blockMargin? (limit : Nat) : (column : Nat) → BlockMargin → List Char → Option BlockMargin
  | _, m, [] => some m
  | column, m, c :: rest =>
    let inside := limit = 0 || column < limit
    if inside && c = ' ' then
      blockMargin? limit (column + 1) ⟨max m.width (column + 1), m.breaks, m.length + 1⟩ rest
    else if inside && c = '\t' then none
    else if isBreak c then
      blockMargin? limit 0 ⟨m.width, m.breaks ++ [c], m.length + 1⟩ rest
    else some m

/-- The margin at the start of a line, and the place behind it. -/
def blockMarginAt? (limit : Nat) (c : Cursor) : Option (BlockMargin × Cursor) := do
  let m ← blockMargin? limit c.column ⟨c.column, [], 0⟩ c.rest
  some (m, c.skip m.length)

/-- The text of a block up to its last line, the break that ends that line, and the breaks of the
blank lines behind it. -/
structure BlockText where
  text : List Char
  last : List Char
  blank : List Char

/-- The text between the last line and one that starts with a blank or not. -/
def BlockText.joint (b : BlockText) (folds : Bool) : List Char :=
  if folds && b.last = ['\n'] then
    (if b.blank.isEmpty then [' '] else b.blank)
  else b.last ++ b.blank

/-- The lines of a block, each of which starts at the column `indent`. `indented` tells that the
last line starts with a further blank: around such lines nothing is folded. -/
def blockLines (folded : Bool) (indent : Nat) :
    (fuel : Nat) → (indented : Bool) → BlockText → Cursor → Option (BlockText × Cursor)
  | 0, _, _, _ => none
  | fuel + 1, indented, b, c => do
    match c.rest with
    | [] => some (b, c)
    | x :: _ =>
      if c.column = indent then
        let (line, c) := c.run fun x => !isBreak x
        let last := c.rest.take 1
        let (margin, after) ← blockMarginAt? indent c.next
        let text := b.text ++ b.joint (folded && !indented && !isBlank x) ++ line
        blockLines folded indent fuel (isBlank x) ⟨text, last, margin.breaks⟩ after
      else some (b, c)

/-- The whole text of a block. -/
def BlockText.chomped (b : BlockText) : Chomping → List Char
  | .strip => b.text
  | .clip => b.text ++ b.last
  | .keep => b.text ++ b.last ++ b.blank

/-- A block behind its first mark. The lines of a block start to the right of the collection it
stands in, whose entries start at the column `parent` if there is one. -/
def block (folded : Bool) (parent : Option Nat) (c : Cursor) : Option (List Char × Cursor) := do
  let (head, c) ← blockHead? c
  let stated := (head.step.map fun n => parent.getD 0 + n).getD 0
  let (margin, c) ← blockMarginAt? stated c
  let least := max 1 ((parent.map (· + 1)).getD 0)
  let indent := if stated = 0 then max least margin.width else stated
  let (b, c) ← blockLines folded indent (c.rest.length + 1) false ⟨[], [], margin.breaks⟩ c
  some (b.chomped head.chomping, c)

end Ensemble.Yaml
