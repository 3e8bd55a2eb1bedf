import Ensemble.Json.Number

/-!
# The tokens of a JSON text

The text is taken apart character by character by a machine whose state says what is being read:
nothing, a bare word, or a quoted text with its escapes. `Token.scan` runs it over a whole text.
-/

namespace Ensemble.Json

/-- A punctuation mark or a value that is written in one piece. -/
inductive Token where
  | openObject
  | closeObject
  | openArray
  | closeArray
  | colon
  | comma
  | scalar (value : Json)

namespace Token

/-- What the machine is reading. Characters read so far stand in reverse. -/
inductive State where
  | between
  | word (read : List Char)
  | quoted (read : List Char)
  | escape (read : List Char)
  /-- A code unit of an escape, `left` digits still to come; `high` is a first half before it. -/
  | unit (read : List Char) (left value : Nat) (high : Option Nat)
  /-- After a first half: the mark of the escape with the second half. -/
  | secondMark (read : List Char) (high : Nat)
  | secondLetter (read : List Char) (high : Nat)

/-- A state and the tokens found so far, the last one first. -/
structure Machine where
  state : State
  found : List Token

/-- The characters that may stand between tokens. -/
def isBlank (c : Char) : Bool := c = ' ' || c = '\n' || c = '\t' || c = '\r'

/-- The characters of numbers and names. -/
def isWordChar (c : Char) : Bool :=
  c.isAlphanum || c = '-' || c = '+' || c = '.'

/-- The value of a bare word: a number or one of the three names. -/
def wordValue (cs : List Char) : Option Json :=
  if cs = ['n', 'u', 'l', 'l'] then some .null
  else if cs = ['t', 'r', 'u', 'e'] then some (.bool true)
  else if cs = ['f', 'a', 'l', 's', 'e'] then some (.bool false)
  else number? cs

/-- The character that a one-letter escape stands for. -/
def simpleEscape : Char → Option Char
  | '"' => some '"'
  | '\\' => some '\\'
  | '/' => some '/'
  | 'b' => some '\x08'
  | 'f' => some '\x0c'
  | 'n' => some '\n'
  | 'r' => some '\r'
  | 't' => some '\t'
  | _ => none

/-- One character where no token is being read. -/
def stepBetween (c : Char) (found : List Token) : Option Machine :=
  match c with
  | '{' => some ⟨.between, .openObject :: found⟩
  | '}' => some ⟨.between, .closeObject :: found⟩
  | '[' => some ⟨.between, .openArray :: found⟩
  | ']' => some ⟨.between, .closeArray :: found⟩
  | ':' => some ⟨.between, .colon :: found⟩
  | ',' => some ⟨.between, .comma :: found⟩
  | '"' => some ⟨.quoted [], found⟩
  | c =>
    if isBlank c then some ⟨.between, found⟩
    else if isWordChar c then some ⟨.word [c], found⟩
    else none

/-- A finished code unit: a first half waits for its second, and either half alone is refused. -/
def finishUnit (read : List Char) (value : Nat) (high : Option Nat) : Option State :=
  match high with
  | none =>
    if 0xd800 ≤ value ∧ value < 0xdc00 then some (.secondMark read value)
    else if 0xdc00 ≤ value ∧ value < 0xe000 then none
    else some (.quoted (Char.ofNat value :: read))
  | some h =>
    if 0xdc00 ≤ value ∧ value < 0xe000 then
      some (.quoted (Char.ofNat (0x10000 + (h - 0xd800) * 0x400 + (value - 0xdc00)) :: read))
    else none

/-- One character of the text; `none` if the text cannot be JSON. -/
def step (m : Machine) (c : Char) : Option Machine :=
  match m.state with
  | .between => stepBetween c m.found
  | .word read =>
    if isWordChar c then some ⟨.word (c :: read), m.found⟩
    else
      match wordValue read.reverse with
      | some v => stepBetween c (.scalar v :: m.found)
      | none => none
  | .quoted read =>
    if c = '"' then some ⟨.between, .scalar (.str (String.ofList read.reverse)) :: m.found⟩
    else if c = '\\' then some ⟨.escape read, m.found⟩
    else if c.toNat < 0x20 then none
    else some ⟨.quoted (c :: read), m.found⟩
  | .escape read =>
    if c = 'u' then some ⟨.unit read 4 0 none, m.found⟩
    else (simpleEscape c).map fun e => ⟨.quoted (e :: read), m.found⟩
  | .unit read left value high =>
    match Number.digit? 16 c with
    | none => none
    | some d =>
      let value := value * 16 + d
      if left ≤ 1 then (finishUnit read value high).map fun s => ⟨s, m.found⟩
      else some ⟨.unit read (left - 1) value high, m.found⟩
  | .secondMark read high =>
    if c = '\\' then some ⟨.secondLetter read high, m.found⟩ else none
  | .secondLetter read high =>
    if c = 'u' then some ⟨.unit read 4 0 (some high), m.found⟩ else none

/-- The tokens found when the text ends, in order. -/
def finish (m : Machine) : Option (List Token) :=
  match m.state with
  | .between => some m.found.reverse
  | .word read => (wordValue read.reverse).map fun v => (.scalar v :: m.found).reverse
  | _ => none

/-- The tokens of a text. -/
def scan (text : String) : Option (List Token) :=
  (text.toList.foldlM step ⟨.between, []⟩).bind finish

end Token

end Ensemble.Json
