import Ensemble.Settings.Value
import Ensemble.Timestamp

/-!
# TOML literals

The values that are written in one piece: texts in four kinds of quotes, numbers, truth values, and
dates and times, which settings treat as texts. Every reader here takes what it reads from the front
of a text and returns what follows.
-/

namespace Ensemble.Settings.Toml

/-- The space between the parts of a line. -/
def isBlank (c : Char) : Bool := c = ' ' || c = '\t'

/-- The text without blanks in front. -/
def skipBlanks (cs : List Char) : List Char := cs.dropWhile isBlank

/-- The characters that may not stand for themselves. -/
def isControl (c : Char) : Bool := (c.toNat < 0x20 && c ≠ '\t') || c = '\x7f'

/-- What follows a line break at the front. -/
def lineBreak? : List Char → Option (List Char)
  | '\n' :: rest => some rest
  | '\r' :: '\n' :: rest => some rest
  | _ => none

/-! ## Texts -/

/-- The character that a one-letter escape stands for. -/
def simpleEscape? : Char → Option Char
  | 'b' => some '\x08'
  | 't' => some '\t'
  | 'n' => some '\n'
  | 'f' => some '\x0c'
  | 'r' => some '\r'
  | '"' => some '"'
  | '\\' => some '\\'
  | _ => none

/-- The number of hexadecimal digits behind the letter of an escape. -/
def escapeLength? : Char → Option Nat
  | 'u' => some 4
  | 'U' => some 8
  | _ => none

/-- The character of an escape behind its backslash, and what follows. -/
def escape? : List Char → Option (Char × List Char)
  | [] => none
  | c :: rest =>
    match simpleEscape? c with
    | some e => some (e, rest)
    | none => do
      let length ← escapeLength? c
      let digits := rest.take length
      let n ← if digits.length = length then Number.natural? 16 digits else none
      if n.isValidChar then some (Char.ofNat n, rest.drop length) else none

/-- What follows a backslash at the end of a line: the text goes on behind all white space. -/
def continuation? (cs : List Char) : Option (List Char) :=
  (lineBreak? (skipBlanks cs)).map fun rest =>
    rest.dropWhile fun c => isBlank c || c = '\n' || c = '\r'

/-- The rest of a text on one line. In double quotes a backslash escapes. -/
def lineText? (quote : Char) : (fuel : Nat) → (read : List Char) → List Char →
    Option (String × List Char)
  | 0, _, _ => none
  | fuel + 1, read, cs =>
    match cs with
    | [] => none
    | c :: rest =>
      if c = quote then some (String.ofList read.reverse, rest)
      else if c = '\\' && quote = '"' then do
        let (e, rest) ← escape? rest
        lineText? quote fuel (e :: read) rest
      else if isControl c then none
      else lineText? quote fuel (c :: read) rest

/-- The rest of a text between three quotes on either side. One or two quotes inside are part of
it, also right before its end. -/
def blockText? (quote : Char) : (fuel : Nat) → (read : List Char) → List Char →
    Option (String × List Char)
  | 0, _, _ => none
  | fuel + 1, read, cs =>
    match cs with
    | [] => none
    | c :: rest =>
      if c = quote then
        let quotes := cs.takeWhile (· = quote)
        let rest := cs.dropWhile (· = quote)
        if quotes.length < 3 then blockText? quote fuel (quotes ++ read) rest
        else if quotes.length ≤ 5 then
          some (String.ofList (quotes.drop 3 ++ read).reverse, rest)
        else none
      else if c = '\\' && quote = '"' then
        match continuation? rest with
        | some rest => blockText? quote fuel read rest
        | none => do
          let (e, rest) ← escape? rest
          blockText? quote fuel (e :: read) rest
      else
        match lineBreak? cs with
        | some rest => blockText? quote fuel ('\n' :: read) rest
        | none => if isControl c then none else blockText? quote fuel (c :: read) rest

/-- A text behind its first quote, on one line or between three quotes; the line break right behind
three quotes is no part of it. -/
def text? (quote : Char) (cs : List Char) : Option (String × List Char) :=
  match cs with
  | a :: b :: rest =>
    if a = quote && b = quote then
      blockText? quote (cs.length + 1) [] ((lineBreak? rest).getD rest)
    else lineText? quote (cs.length + 1) [] cs
  | _ => lineText? quote (cs.length + 1) [] cs

/-! ## Numbers -/

/-- The digits of a number in which single underscores may stand between digits. -/
def withoutMarks? : List Char → Option (List Char)
  | [] => some []
  | ['_'] => none
  | '_' :: _ => none
  | c :: '_' :: d :: rest => if d = '_' then none else (withoutMarks? (d :: rest)).map (c :: ·)
  | c :: rest => (withoutMarks? rest).map (c :: ·)

/-- The digits of a decimal number that has no needless zero in front. -/
def decimalDigits? (cs : List Char) : Option (List Char) := do
  let digits ← withoutMarks? cs
  if digits.isEmpty || !digits.all Char.isDigit then none
  else if digits.head? = some '0' && 1 < digits.length then none
  else some digits

/-- An integer: decimal with a sign that may be missing, or in one of three other bases. -/
def integer? (cs : List Char) : Option Int :=
  let inBase (base : Nat) (rest : List Char) : Option Int :=
    ((withoutMarks? rest).bind (Number.natural? base)).map fun n => (n : Int)
  match cs with
  | '0' :: 'x' :: rest => inBase 16 rest
  | '0' :: 'o' :: rest => inBase 8 rest
  | '0' :: 'b' :: rest => inBase 2 rest
  | cs =>
    let (negative, digits) := Number.unsigned cs
    ((decimalDigits? digits).bind (Number.natural? 10)).map fun n =>
      if negative then -(n : Int) else (n : Int)

/-- The digits of a fraction or of an exponent. -/
def anyDigits? (cs : List Char) : Option (List Char) := do
  let digits ← withoutMarks? cs
  if digits.isEmpty || !digits.all Char.isDigit then none else some digits

/-- The letter before an exponent. -/
def isExponentMark (c : Char) : Bool := c = 'e' || c = 'E'

/-- A floating point number: decimal digits with a fraction, an exponent or both, or the name of
what is not finite. A positive number beyond the greatest finite one is refused. -/
def float? (cs : List Char) : Option Binary64 :=
  let (negative, rest) := Number.unsigned cs
  if rest = ['i', 'n', 'f'] then some (.infinity negative)
  else if rest = ['n', 'a', 'n'] then some .nan
  else do
    let mantissa := rest.takeWhile (!isExponentMark ·)
    let exponent := (rest.dropWhile (!isExponentMark ·)).drop 1
    let whole ← decimalDigits? (mantissa.takeWhile (· ≠ '.'))
    let fraction ←
      match mantissa.dropWhile (· ≠ '.') with
      | [] => if mantissa.length = rest.length then none else some []
      | _ :: fraction => anyDigits? fraction
    let e ←
      if mantissa.length = rest.length then some 0
      else
        let (negative, digits) := Number.unsigned exponent
        ((anyDigits? digits).bind (Number.natural? 10)).map fun n =>
          if negative then -(n : Int) else (n : Int)
    let digits ← Number.natural? 10 (whole ++ fraction)
    let x := Binary64.ofDecimal negative digits (e - fraction.length)
    if x.isInfinite && !negative then none else some x

/-! ## Dates and times -/

/-- A number of the width given. -/
def fixed? (width : Nat) (cs : List Char) : Option Nat :=
  if cs.length = width then Number.natural? 10 cs else none

/-- Whether a text is a date. -/
def isDate (cs : List Char) : Bool :=
  let month := (fixed? 2 ((cs.drop 5).take 2)).filter fun m => 1 ≤ m && m ≤ 12
  let day (y m : Nat) : Bool :=
    (fixed? 2 (cs.drop 8)).any fun d => 1 ≤ d && d ≤ Timestamp.daysInMonth y m
  cs[4]? = some '-' && cs[7]? = some '-' &&
    (fixed? 4 (cs.take 4)).any fun y => month.any fun m => day y m

/-- Whether a text is an hour and a minute. -/
def isHourAndMinute (cs : List Char) : Bool :=
  cs[2]? = some ':' && (fixed? 2 (cs.take 2)).any (· ≤ 23) && (fixed? 2 (cs.drop 3)).any (· ≤ 59)

/-- Whether a text is a time of day. -/
def isTime (cs : List Char) : Bool :=
  let fraction := match cs.drop 8 with
    | [] => true
    | '.' :: digits => !digits.isEmpty && digits.all Char.isDigit
    | _ => false
  isHourAndMinute (cs.take 5) && cs[5]? = some ':' &&
    (fixed? 2 ((cs.drop 6).take 2)).any (· ≤ 60) && fraction

/-- Whether a text is a time of day with or without an offset. -/
def isTimeWithOffset (cs : List Char) : Bool :=
  let isSign (c : Char) : Bool := c = '+' || c = '-'
  isTime cs ||
    (match cs.getLast? with
     | some 'Z' | some 'z' => isTime cs.dropLast
     | _ => false) ||
    (let time := cs.takeWhile (!isSign ·)
     let offset := cs.drop time.length
     isTime time && offset.head?.any isSign && isHourAndMinute (offset.drop 1))

/-- Whether a text is a date, a time of day or both. -/
def isMoment (cs : List Char) : Bool :=
  isDate cs || isTime cs ||
    (isDate (cs.take 10) && cs[10]?.any (fun c => c = 'T' || c = 't' || c = ' ') &&
      isTimeWithOffset (cs.drop 11))

/-! ## Bare words -/

/-- The characters of values without quotes. -/
def isWordChar (c : Char) : Bool := c.isAlphanum || c ∈ ['_', '-', '+', '.', ':']

/-- The word at the front; a date may be followed by one space and a time. -/
def word (cs : List Char) : List Char × List Char :=
  let first := cs.takeWhile isWordChar
  let rest := cs.drop first.length
  match rest with
  | ' ' :: more =>
    let time := more.takeWhile isWordChar
    if isDate first && isTimeWithOffset time then
      (first ++ ' ' :: time, more.drop time.length)
    else (first, rest)
  | _ => (first, rest)

/-- The value of a word. -/
def wordValue? (cs : List Char) : Option Value :=
  if cs = ['t', 'r', 'u', 'e'] then some (.bool true)
  else if cs = ['f', 'a', 'l', 's', 'e'] then some (.bool false)
  else
    match integer? cs with
    | some n => if Value.isShort n then some (.int n) else none
    | none =>
      match float? cs with
      | some x => some (.float x)
      | none => if isMoment cs then some (.text (String.ofList cs)) else none

end Ensemble.Settings.Toml
