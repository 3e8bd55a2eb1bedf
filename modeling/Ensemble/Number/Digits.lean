import Ensemble.Number.Binary64

/-!
# Digits

The values of digits and of numbers written with them, in every base up to sixteen, and the usual
notation of floating point numbers. A reader here takes a whole text or refuses it.

* `digitRun` takes a text apart into a run of digits and the rest.
* `natural?`, `integer?` and `float?` read numbers.
-/

namespace Ensemble.Number

/-- The value of a digit; a letter may have either case. -/
def digit? (base : Nat) (c : Char) : Option Nat :=
  let value :=
    if '0' ≤ c ∧ c ≤ '9' then some (c.toNat - '0'.toNat)
    else if 'a' ≤ c ∧ c ≤ 'f' then some (c.toNat - 'a'.toNat + 10)
    else if 'A' ≤ c ∧ c ≤ 'F' then some (c.toNat - 'A'.toNat + 10)
    else none
  value.filter (· < base)

/-- The number with the digits given, the most significant one first. -/
def ofDigits (base : Nat) (ds : List Nat) : Nat := ds.foldl (fun n d => n * base + d) 0

/-- The longest run of digits at the front, as their values, and what follows it. -/
def digitRun (base : Nat) : List Char → List Nat × List Char
  | [] => ([], [])
  | c :: rest =>
    match digit? base c with
    | some d => let (ds, tail) := digitRun base rest; (d :: ds, tail)
    | none => ([], c :: rest)

/-- A number of at least one digit. -/
def natural? (base : Nat) (cs : List Char) : Option Nat :=
  match digitRun base cs with
  | (d :: ds, []) => some (ofDigits base (d :: ds))
  | _ => none

/-- Whether a number has a minus sign, and the number without its sign. -/
def unsigned : List Char → Bool × List Char
  | '-' :: rest => (true, rest)
  | '+' :: rest => (false, rest)
  | cs => (false, cs)

/-- A number of at least one digit that may have a sign. -/
def integer? (base : Nat) (cs : List Char) : Option Int :=
  let (negative, cs) := unsigned cs
  (natural? base cs).map fun n => if negative then -(n : Int) else (n : Int)

/-- An exponent part, with its mark; without one the exponent is zero. -/
def exponent? : List Char → Option Int
  | [] => some 0
  | c :: rest => if c = 'e' ∨ c = 'E' then integer? 10 rest else none

/-- Digits with a point among them, before them or behind them, or without one, and an exponent
part that may be missing. -/
def decimal? (negative : Bool) (cs : List Char) : Option Binary64 :=
  let (whole, cs) := digitRun 10 cs
  let (fraction, cs) : List Nat × List Char := match cs with
    | '.' :: rest => digitRun 10 rest
    | _ => ([], cs)
  if whole.isEmpty && fraction.isEmpty then none
  else
    (exponent? cs).map fun e =>
      Binary64.ofDecimal negative (ofDigits 10 (whole ++ fraction)) (e - fraction.length)

/-- A floating point number: a sign that may be missing, then digits, or the name of what is not
finite in letters of either case. -/
def float? (cs : List Char) : Option Binary64 :=
  let (negative, cs) := unsigned cs
  let name := String.ofList (cs.map Char.toLower)
  if name = "inf" ∨ name = "infinity" then some (.infinity negative)
  else if name = "nan" then some .nan
  else decimal? negative cs

end Ensemble.Number
