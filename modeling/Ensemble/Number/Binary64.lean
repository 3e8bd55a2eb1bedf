import Ensemble.Number.Power

/-!
# Binary floating point numbers of 64 bits

A `Binary64` is a bit pattern. Finite patterns stand for `mantissa * 2 ^ exponent`; every operation
here computes with that exact value in the natural numbers and rounds once, to the nearest pattern
and to the even one of two equally near ones.
-/

namespace Ensemble

/-- A binary floating point number, as its sign bit, eleven exponent bits and fraction. -/
structure Binary64 where
  bits : UInt64
deriving DecidableEq

namespace Binary64

/-- The pattern of the least magnitude that is not finite. -/
def infinityBits : Nat := 0x7ff0000000000000

/-- The bit of the sign. -/
def signBit : Nat := 0x8000000000000000

instance : Inhabited Binary64 := ⟨⟨0⟩⟩

/-- The pattern without its sign. -/
def magnitudeBits (x : Binary64) : Nat := x.bits.toNat % signBit

/-- Whether the sign is set. -/
def isNegative (x : Binary64) : Bool := signBit ≤ x.bits.toNat

/-- Whether the pattern stands for no number. -/
def isNaN (x : Binary64) : Bool := infinityBits < x.magnitudeBits

/-- Whether the pattern stands for an infinity. -/
def isInfinite (x : Binary64) : Bool := x.magnitudeBits = infinityBits

/-- Whether the pattern stands for a number. -/
def isFinite (x : Binary64) : Bool := x.magnitudeBits < infinityBits

/-- Whether the pattern stands for zero, of either sign. -/
def isZero (x : Binary64) : Bool := x.magnitudeBits = 0

/-- The number with the sign and the unsigned pattern given. -/
def ofMagnitude (negative : Bool) (magnitude : Nat) : Binary64 :=
  ⟨UInt64.ofNat (if negative then signBit + magnitude else magnitude)⟩

/-- The infinity with a sign. -/
def infinity (negative : Bool) : Binary64 := ofMagnitude negative infinityBits

/-- The pattern for no number. -/
def nan : Binary64 := ofMagnitude false (infinityBits + Number.twoTo 51)

/-- The integer `m` of the magnitude `m * 2 ^ q` of a finite number. -/
def mantissa (x : Binary64) : Nat :=
  let fraction := x.magnitudeBits % Number.twoTo 52
  if x.magnitudeBits < Number.twoTo 52 then fraction else Number.twoTo 52 + fraction

/-- The integer `q` of the magnitude `m * 2 ^ q` of a finite number. -/
def exponent (x : Binary64) : Int :=
  let field : Nat := x.magnitudeBits / Number.twoTo 52
  if field = 0 then (-1074 : Int) else (field : Int) - (1075 : Int)

/-- The magnitude of a finite number as a fraction. -/
def toFraction (x : Binary64) : Nat × Nat :=
  if 0 ≤ x.exponent then (x.mantissa * Number.twoTo x.exponent.toNat, 1)
  else (x.mantissa, Number.twoTo (-x.exponent).toNat)

/-- The quotient rounded to the nearest integer, a half to the even neighbour. -/
def roundQuotient (num den : Nat) : Nat :=
  let q := num / den
  let twice := 2 * (num % den)
  if den < twice ∨ (twice = den ∧ q % 2 = 1) then q + 1 else q

/-- `num / den` in units of `2 ^ q`, rounded. -/
def unitsOf (num den : Nat) (q : Int) : Nat :=
  if 0 ≤ q then roundQuotient num (den * Number.twoTo q.toNat)
  else roundQuotient (num * Number.twoTo (-q).toNat) den

/-- The exponent of the unit in which `num / den` is rounded: the integer part of the quotient in
that unit has 53 binary digits, unless the value lies below the least such number. -/
def unitExponent (num den : Nat) : Int :=
  let guess : Int := (Nat.log2 num : Int) - (Nat.log2 den : Int) - 52
  let q :=
    if 0 ≤ guess then
      if num / (den * Number.twoTo guess.toNat) < Number.twoTo 52 then guess - 1 else guess
    else if num * Number.twoTo (-guess).toNat / den < Number.twoTo 52 then guess - 1 else guess
  max q (-1074)

/-- The number nearest to `num / den`, infinite from the midpoint above the greatest finite one. -/
def ofFraction (negative : Bool) (num den : Nat) : Binary64 :=
  if num = 0 then ofMagnitude negative 0
  else
    let q := unitExponent num den
    let magnitude := (q + 1074).toNat * Number.twoTo 52 + unitsOf num den q
    ofMagnitude negative (min magnitude infinityBits)

/-- The number nearest to a natural number. -/
def ofNat (n : Nat) : Binary64 := ofFraction false n 1

/-- The number nearest to an integer. -/
def ofInt (n : Int) : Binary64 := ofFraction (n < 0) n.natAbs 1

/-- The number nearest to `digits * 10 ^ e`. The far ends of the scale are decided without
computing the power, which could be out of all proportion. -/
def ofDecimal (negative : Bool) (digits : Nat) (e : Int) : Binary64 :=
  if digits = 0 then ofMagnitude negative 0
  else
    let length := (Nat.toDigits 10 digits).length
    if (length : Int) + e > 400 then infinity negative
    else if (length : Int) + e < -400 then ofMagnitude negative 0
    else if 0 ≤ e then ofFraction negative (digits * Number.tenTo e.toNat) 1
    else ofFraction negative digits (Number.tenTo (-e).toNat)

/-- The product of the magnitudes, rounded. -/
def mulMagnitude (x y : Binary64) : Binary64 :=
  let (a, b) := x.toFraction
  let (c, d) := y.toFraction
  ofFraction false (a * c) (b * d)

/-- The quotient of the magnitudes, rounded; the divisor is not zero. -/
def divMagnitude (x y : Binary64) : Binary64 :=
  let (a, b) := x.toFraction
  let (c, d) := y.toFraction
  ofFraction false (a * d) (b * c)

/-- The same magnitude with the sign given. -/
def withSign (negative : Bool) (x : Binary64) : Binary64 :=
  ofMagnitude negative x.magnitudeBits

/-- The nearest integer to a finite number's magnitude, a half away from zero. -/
def roundMagnitude (x : Binary64) : Nat :=
  let (a, b) := x.toFraction
  (2 * a + b) / (2 * b)

end Binary64

end Ensemble
