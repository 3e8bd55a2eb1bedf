import Ensemble.Json.Basic
import Ensemble.Number.Digits
import Ensemble.Number.Shortest

/-!
# JSON numbers

Reading: a number without fraction and exponent is an integer when it fits 64 bits, signed or
unsigned, and `-0` is the negative zero. Everything else becomes a floating point number: the
digits are taken up as long as they fit 64 unsigned bits, that significand is rounded, and the power
of ten is applied with one more rounding. Writing: the fewest digits that read back, positionally
where the leading digit stands between `10 ^ -5` and `10 ^ 15`.
-/

namespace Ensemble.Json

open Number (digitRun ofDigits)

/-- The greatest significand that is taken up digit by digit. -/
def significandLimit : Nat := UInt64.size - 1

/-- Takes up the digits of the integer part; those that no longer fit raise the exponent. -/
def takeInteger : List Nat → Nat → Nat × Nat
  | [], s => (s, 0)
  | d :: ds, s =>
    if s * 10 + d ≤ significandLimit then takeInteger ds (s * 10 + d) else (s, ds.length + 1)

/-- Takes up the digits of the fraction; from the first that does not fit on they are ignored. -/
def takeFraction : List Nat → Nat → Int → Nat × Int
  | [], s, e => (s, e)
  | d :: ds, s, e =>
    if s * 10 + d ≤ significandLimit then takeFraction ds (s * 10 + d) (e - 1) else (s, e)

/-- A power of ten, rounded. -/
def powerOfTen (e : Nat) : Binary64 := Binary64.ofNat (Number.tenTo e)

/-- Divides by `10 ^ 308` until the exponent is within reach of one division. -/
def divideDown : Nat → Binary64 → Int → Binary64 × Int
  | 0, x, e => (x, e)
  | n + 1, x, e =>
    if -308 ≤ e ∨ x.isZero then (x, e) else divideDown n (x.divMagnitude (powerOfTen 308)) (e + 308)

/-- The rounded significand times the power of ten, rounded again; a number beyond the greatest
finite one is refused. -/
def scale (significand : Nat) (e : Int) : Option Binary64 :=
  let x := Binary64.ofNat significand
  if x.isZero then some x
  else if 308 < e then none
  else if 0 ≤ e then
    let y := x.mulMagnitude (powerOfTen e.toNat)
    if y.isFinite then some y else none
  else
    let (y, e) := divideDown 4 x e
    if y.isZero then some y else some (y.divMagnitude (powerOfTen (-e).toNat))

/-- The exponent part after its mark: a sign and at least one digit. -/
def exponentPart (cs : List Char) : Option (Int × List Char) :=
  let (negative, cs) : Bool × List Char := match cs with
    | '-' :: rest => (true, rest)
    | '+' :: rest => (false, rest)
    | _ => (false, cs)
  match digitRun 10 cs with
  | ([], _) => none
  | (ds, rest) => some (if negative then -(ofDigits 10 ds : Int) else (ofDigits 10 ds : Int), rest)

/-- Applies an exponent part; one that leaves 32 bits makes the number zero or refuses it. -/
def withExponent (significand : Nat) (start e : Int) : Option Binary64 :=
  if e.natAbs ≤ 0x7fffffff then
    scale significand (max (-0x80000000) (min 0x7fffffff (start + e)))
  else if significand ≠ 0 ∧ 0 < e then none
  else some (Binary64.ofNat 0)

/-- A number taken apart: the significand of its integer part, how many integer digits did not
fit, and the digits of the fraction and the exponent if they are written. -/
structure Parts where
  significand : Nat
  dropped : Nat
  fraction : Option (List Nat)
  exponent : Option Int

/-- Takes apart a number without its sign. The integer part is `0` or starts with another digit. -/
def parts? (cs : List Char) : Option Parts :=
  match digitRun 10 cs with
  | ([], _) => none
  | (ds, rest) =>
    if ds.head? = some 0 ∧ ds.length ≠ 1 then none
    else
      let (s, dropped) := takeInteger ds 0
      let fraction : Option (Option (List Nat) × List Char) := match rest with
        | '.' :: rest =>
          match digitRun 10 rest with
          | ([], _) => none
          | (fs, rest) => some (some fs, rest)
        | _ => some (none, rest)
      match fraction with
      | none => none
      | some (fs, []) => some ⟨s, dropped, fs, none⟩
      | some (fs, c :: rest) =>
        if c = 'e' ∨ c = 'E' then
          match exponentPart rest with
          | some (e, []) => some ⟨s, dropped, fs, some e⟩
          | _ => none
        else none

/-- The number as a floating point value. -/
def Parts.toFloat? (p : Parts) : Option Binary64 :=
  let (s, start) := takeFraction (p.fraction.getD []) p.significand p.dropped
  match p.exponent with
  | some e => withExponent s start e
  | none => scale s start

/-- Reads a number that spans the whole text. -/
def number? (cs : List Char) : Option Json :=
  let (negative, cs) : Bool × List Char := match cs with
    | '-' :: rest => (true, rest)
    | _ => (false, cs)
  match parts? cs with
  | none => none
  | some ⟨s, 0, none, none⟩ =>
    if negative then
      if s = 0 ∨ 0x8000000000000000 < s then some (float ((Binary64.ofNat s).withSign true))
      else some (int (-(s : Int)))
    else some (int s)
  | some p => p.toFloat?.map fun x => float (x.withSign negative)

/-! ## Writing -/

/-- The digits of a positive decimal, laid out: positional with a point when the leading digit
stands between `10 ^ -5` and `10 ^ 15`, else one digit, the rest behind a point, and the
exponent. -/
def layOut (d : Decimal) : String :=
  let ds := Nat.toDigits 10 d.digits
  let point : Int := ds.length + d.exponent
  if 0 ≤ d.exponent ∧ point ≤ 16 then
    String.ofList (ds ++ List.replicate d.exponent.toNat '0') ++ ".0"
  else if 0 < point ∧ point ≤ 16 then
    String.ofList (ds.take point.toNat) ++ "." ++ String.ofList (ds.drop point.toNat)
  else if -5 < point ∧ point ≤ 0 then
    "0." ++ String.ofList (List.replicate (-point).toNat '0' ++ ds)
  else
    let mark := "e" ++ toString (point - 1)
    match ds with
    | [c] => String.ofList [c] ++ mark
    | c :: rest => String.ofList (c :: '.' :: rest) ++ mark
    | [] => mark

/-- The text of a floating point number; what is not finite has none and is written `null`. -/
def floatText (x : Binary64) : String :=
  if !x.isFinite then "null"
  else
    let sign := if x.isNegative then "-" else ""
    if x.isZero then sign ++ "0.0" else sign ++ layOut (x.withSign false).shortest

end Ensemble.Json
