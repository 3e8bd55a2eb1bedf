import Ensemble.Number.Digits
import Ensemble.Text.Blank

/-!
# Moments of civil time

A moment is a second of universal time since 1970 and a rest in nanoseconds; a rest of a second or
more stands for a leap second. It is written in the RFC 3339 form with `Z` and as many decimal
places, in threes, as it needs. It is read leniently: any offset, blanks between the parts, numbers
without leading zeros.
-/

namespace Ensemble

/-- A moment of universal time. -/
structure Timestamp where
  second : Int
  nanos : Nat
deriving DecidableEq

namespace Timestamp

instance : Inhabited Timestamp := ⟨⟨0, 0⟩⟩

/-- The number of days from the first of January 1970 to a day of the Gregorian calendar. -/
def daysOfCivil (year : Int) (month day : Nat) : Int :=
  let y := if month ≤ 2 then year - 1 else year
  let era := Int.fdiv y 400
  let yearOfEra := y - era * 400
  let monthFromMarch : Int := if month > 2 then (month : Int) - 3 else (month : Int) + 9
  let dayOfYear := Int.fdiv (153 * monthFromMarch + 2) 5 + (day : Int) - 1
  let dayOfEra := yearOfEra * 365 + Int.fdiv yearOfEra 4 - Int.fdiv yearOfEra 100 + dayOfYear
  era * 146097 + dayOfEra - 719468

/-- The year, month and day of a number of days from the first of January 1970. -/
def civilOfDays (days : Int) : Int × Nat × Nat :=
  let z := days + 719468
  let era := Int.fdiv z 146097
  let dayOfEra := z - era * 146097
  let yearOfEra := Int.fdiv (dayOfEra - Int.fdiv dayOfEra 1460 + Int.fdiv dayOfEra 36524
    - Int.fdiv dayOfEra 146096) 365
  let dayOfYear := dayOfEra - (365 * yearOfEra + Int.fdiv yearOfEra 4 - Int.fdiv yearOfEra 100)
  let monthFromMarch := Int.fdiv (5 * dayOfYear + 2) 153
  let day := dayOfYear - Int.fdiv (153 * monthFromMarch + 2) 5 + 1
  let month := if monthFromMarch < 10 then monthFromMarch + 3 else monthFromMarch - 9
  let year := yearOfEra + era * 400 + (if month ≤ 2 then 1 else 0)
  (year, month.toNat, day.toNat)

/-- Whether a year of the Gregorian calendar has a leap day. -/
def isLeapYear (year : Int) : Bool :=
  (year % 4 == 0 && year % 100 != 0) || year % 400 == 0

/-- The number of days of a month. -/
def daysInMonth (year : Int) (month : Nat) : Nat :=
  if month = 2 then (if isLeapYear year then 29 else 28)
  else if month = 4 ∨ month = 6 ∨ month = 9 ∨ month = 11 then 30 else 31

/-! ## Writing -/

/-- A number with zeros in front, up to a width. -/
def padded (width n : Nat) : String :=
  let ds := Nat.toDigits 10 n
  String.ofList (List.replicate (width - ds.length) '0' ++ ds)

/-- A year: four digits, behind a sign where that is not enough. -/
def yearText (year : Int) : String :=
  if 0 ≤ year ∧ year ≤ 9999 then padded 4 year.toNat
  else (if year < 0 then "-" else "+") ++ padded 4 year.natAbs

/-- The places behind the second, in threes; none if they are all zero. -/
def fractionText (nanos : Nat) : String :=
  if nanos = 0 then ""
  else if nanos % 1000000 = 0 then "." ++ padded 3 (nanos / 1000000)
  else if nanos % 1000 = 0 then "." ++ padded 6 (nanos / 1000)
  else "." ++ padded 9 nanos

/-- The moment in universal time. -/
def text (t : Timestamp) : String :=
  let (year, month, day) := civilOfDays (Int.fdiv t.second 86400)
  let inDay := (Int.fmod t.second 86400).toNat
  let second := inDay % 60 + t.nanos / 1000000000
  yearText year ++ "-" ++ padded 2 month ++ "-" ++ padded 2 day ++ "T" ++
    padded 2 (inDay / 3600) ++ ":" ++ padded 2 (inDay / 60 % 60) ++ ":" ++ padded 2 second ++
    fractionText (t.nanos % 1000000000) ++ "Z"

/-! ## Reading -/

/-- The text without white space in front. -/
def skipBlanks (cs : List Char) : List Char := cs.dropWhile Text.isBlank

/-- A number of at least one and at most `width` digits behind blanks. -/
def number? (width : Nat) (cs : List Char) : Option (Nat × List Char) :=
  let cs := skipBlanks cs
  match (Number.digitRun 10 (cs.take width)).1 with
  | [] => none
  | ds => some (Number.ofDigits 10 ds, cs.drop ds.length)

/-- A year: four digits at most, or any number of digits behind a sign. -/
def year? (cs : List Char) : Option (Int × List Char) :=
  match skipBlanks cs with
  | '-' :: rest => (unbounded rest).map fun p => (-(p.1 : Int), p.2)
  | '+' :: rest => (unbounded rest).map fun p => ((p.1 : Int), p.2)
  | cs => (number? 4 cs).map fun p => ((p.1 : Int), p.2)
where
  unbounded (cs : List Char) : Option (Nat × List Char) :=
    match Number.digitRun 10 cs with
    | ([], _) => none
    | (ds, rest) => some (Number.ofDigits 10 ds, rest)

/-- A mark behind blanks. -/
def mark? (c : Char) (cs : List Char) : Option (List Char) :=
  match skipBlanks cs with
  | d :: rest => if d = c then some rest else none
  | [] => none

/-- The nanoseconds behind a point; places after the ninth are dropped. -/
def fraction? (cs : List Char) : Option (Nat × List Char) :=
  match cs with
  | '.' :: rest =>
    match Number.digitRun 10 rest with
    | ([], _) => none
    | (ds, rest) =>
      let kept := ds.take 9
      some (Number.ofDigits 10 kept * Number.tenTo (9 - kept.length), rest)
  | _ => some (0, cs)

/-- The number that the first two characters are the digits of. -/
def twoDigits? (cs : List Char) : Option Nat :=
  if (cs.take 2).length = 2 then Number.natural? 10 (cs.take 2) else none

/-- An offset from universal time in seconds: `Z`, `UTC`, or a sign with hours and minutes. -/
def offset? (cs : List Char) : Option (Int × List Char) :=
  match cs with
  | 'z' :: rest | 'Z' :: rest => some (0, rest)
  | _ =>
    if (cs.take 3).map Char.toLower = ['u', 't', 'c'] then some (0, cs.drop 3)
    else
      match cs with
      | sign :: rest => do
        guard (sign = '+' ∨ sign = '-' ∨ sign = '−')
        let hours ← twoDigits? rest
        let rest := (rest.drop 2).dropWhile fun c => c = ':' || Text.isBlank c
        let minutes ← twoDigits? rest
        guard (minutes ≤ 59)
        let seconds : Int := (hours * 3600 + minutes * 60 : Nat)
        some (if sign = '+' then seconds else -seconds, rest.drop 2)
      | [] => none

/-- The years that a moment may fall in. -/
def isYear (year : Int) : Bool := -262143 ≤ year && year ≤ 262142

/-- The moment of a day, a time of day and an offset, if there is such a day and such a time. Both
the day and the moment have to fall in a year that is allowed. -/
def ofCivil? (year : Int) (month day hour minute second nanos : Nat) (offset : Int) :
    Option Timestamp :=
  if isYear year ∧ 1 ≤ month ∧ month ≤ 12 ∧ 1 ≤ day ∧ day ≤ daysInMonth year month ∧
      hour ≤ 23 ∧ minute ≤ 59 ∧ second ≤ 60 ∧ offset.natAbs < 86400 then
    let leap := if second = 60 then 1 else 0
    let inDay : Nat := hour * 3600 + minute * 60 + (second - leap)
    let moment := daysOfCivil year month day * 86400 + inDay - offset
    if isYear (civilOfDays (Int.fdiv moment 86400)).1 then
      some ⟨moment, nanos + leap * 1000000000⟩
    else none
  else none

/-- Reads a moment. -/
def parse? (s : String) : Option Timestamp := do
  let (year, cs) ← year? s.toList
  let cs ← mark? '-' cs
  let (month, cs) ← number? 2 cs
  let cs ← mark? '-' cs
  let (day, cs) ← number? 2 cs
  let cs ← match cs with
    | 't' :: rest | 'T' :: rest | ' ' :: rest => some rest
    | _ => none
  let (hour, cs) ← number? 2 cs
  let cs ← mark? ':' cs
  let (minute, cs) ← number? 2 cs
  let cs ← mark? ':' cs
  let (second, cs) ← number? 2 cs
  let (nanos, cs) ← fraction? cs
  let (offset, cs) ← offset? (skipBlanks cs)
  if (skipBlanks cs).isEmpty then ofCivil? year month day hour minute second nanos offset
  else none

end Timestamp

end Ensemble
