import Ensemble.Number.Binary64

/-!
# The shortest decimal that reads back

Many decimals round to one binary number; `Binary64.shortest` picks, among those with the fewest
digits, one nearest to the number. Grids of one digit, two digits and so on are searched in turn,
in exact arithmetic: on each grid only the two neighbours of the number have to be tried.
-/

namespace Ensemble

/-- The positive decimal `digits * 10 ^ exponent`. -/
structure Decimal where
  digits : Nat
  exponent : Int
deriving DecidableEq

namespace Decimal

/-- The decimal as a fraction. -/
def toFraction (d : Decimal) : Nat × Nat :=
  if 0 ≤ d.exponent then (d.digits * Number.tenTo d.exponent.toNat, 1)
  else (d.digits, Number.tenTo (-d.exponent).toNat)

/-- Takes up to so many zeros from the end of the digits. -/
def stripStep : Nat → Decimal → Decimal
  | 0, d => d
  | n + 1, d =>
    if d.digits ≠ 0 ∧ d.digits % 10 = 0 then stripStep n ⟨d.digits / 10, d.exponent + 1⟩ else d

/-- The same decimal without zeros at the end of its digits. -/
def strip (d : Decimal) : Decimal := stripStep 20 d

end Decimal

namespace Binary64

/-- Whether a decimal rounds to the finite positive number `x`: it lies between the midpoints to
the neighbours of `x`, a midpoint itself counting when the mantissa of `x` is even. -/
def readsBack (x : Binary64) (d : Decimal) : Bool :=
  let m := x.mantissa
  let q := x.exponent - 2
  let low := if m = Number.twoTo 52 ∧ -1074 < x.exponent then 4 * m - 1 else 4 * m - 2
  let high := 4 * m + 2
  let (num, den) := d.toFraction
  let scale (k : Nat) : Nat := if 0 ≤ q then k * Number.twoTo q.toNat * den else k * den
  let value := if 0 ≤ q then num else num * Number.twoTo (-q).toNat
  if m % 2 = 0 then scale low ≤ value && value ≤ scale high
  else scale low < value && value < scale high

/-- Twice the numerator of the distance between a decimal and `x`, over a common denominator of
both and of every other decimal with the same exponent. -/
def distance (x : Binary64) (d : Decimal) : Nat :=
  let (a, b) := x.toFraction
  let (c, e) := d.toFraction
  (a * e - c * b) + (c * b - a * e)

/-- The position of the leading decimal digit of a finite positive number. -/
def leadingExponent (x : Binary64) : Int :=
  let (num, den) := x.toFraction
  ((Nat.toDigits 10 (num * Number.tenTo 330 / den)).length : Int) - 331

/-- The better of the two neighbours of `x` among the decimals whose last digit stands at
`10 ^ e`, if one of them reads back. -/
def onGrid (x : Binary64) (e : Int) : Option Decimal :=
  let (num, den) := x.toFraction
  let below :=
    if 0 ≤ e then num / (den * Number.tenTo e.toNat) else num * Number.tenTo (-e).toNat / den
  let lo : Decimal := ⟨below, e⟩
  let hi : Decimal := ⟨below + 1, e⟩
  match below ≠ 0 && x.readsBack lo, x.readsBack hi with
  | true, true =>
    if x.distance lo < x.distance hi then some lo
    else if x.distance hi < x.distance lo then some hi
    else if below % 2 = 0 then some lo else some hi
  | true, false => some lo
  | false, true => some hi
  | false, false => none

/-- The decimal with the fewest digits that reads back as the finite positive number `x`. -/
def shortest (x : Binary64) : Decimal :=
  let lead := x.leadingExponent
  let found := (List.range 17).findSome? fun (k : Nat) => x.onGrid (lead - (k : Int))
  (found.getD ⟨x.mantissa, x.exponent⟩).strip

end Binary64

end Ensemble
