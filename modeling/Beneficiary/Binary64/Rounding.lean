import Beneficiary.Binary64.Basic

/-!
# Rounding to binary64

A ratio of natural numbers is rounded to the nearest binary64 number, a tie to the even
magnitude, by exact integer arithmetic. Integers, decimals, products and quotients are read
through that one rounding.
-/

namespace Beneficiary.Binary64

/-- The quotient rounded to the nearest natural number, a half to the even neighbour. -/
def roundDiv (num den : Nat) : Nat :=
  let quotient := num / den
  let twice := 2 * (num % den)
  if twice < den then quotient
  else if den < twice then quotient + 1
  else if quotient % 2 = 0 then quotient else quotient + 1

/-- A ratio multiplied by a power of two, as numerator and denominator. -/
def scaled (num den : Nat) (exponent : Int) : Nat × Nat :=
  let power := Nat.pow 2 exponent.natAbs
  if exponent < 0 then (num, den * power) else (num * power, den)

/-- The exponent of the greatest power of two that is at most a positive ratio. -/
def binaryExponent (num den : Nat) : Int :=
  let estimate : Int := (num.log2 : Int) - (den.log2 : Int)
  let ratio := scaled num den (-estimate)
  if ratio.1 < ratio.2 then estimate - 1 else estimate

/-- The exponent of the last place of the number nearest to a positive ratio: fifty-two below
its leading bit, and never below that of the least magnitude. -/
def lastPlace (num den : Nat) : Int := max (binaryExponent num den - 52) (-1074)

/-- The binary64 number nearest to a ratio, a tie to the even magnitude, of a given sign. -/
def ofRatio (negative : Bool) (num den : Nat) : Binary64 :=
  if num = 0 then zero negative
  else
    let last := lastPlace num den
    let ratio := scaled num den (-last)
    ofMagnitude negative ((last + 1074).toNat * fractionCount + roundDiv ratio.1 ratio.2)

/-- The binary64 number nearest to `digits` times ten to the `exponent`. Exponents that alone
settle overflow or underflow are answered without computing the power. -/
def ofDecimal (negative : Bool) (digits : Nat) (exponent : Int) : Binary64 :=
  if digits = 0 then zero negative
  else if 400 < exponent then infinity negative
  else if 0 ≤ exponent then ofRatio negative (digits * Nat.pow 10 exponent.natAbs) 1
  else if (digits.log2 : Int) + 1 + 3 * exponent < -1100 then zero negative
  else ofRatio negative digits (Nat.pow 10 exponent.natAbs)

/-- The binary64 number nearest to an integer. -/
def ofInt (z : Int) : Binary64 := ofRatio (z < 0) z.natAbs 1

/-- The value of a finite magnitude as a whole number of units in the last place and the
exponent of that place. -/
def unitsOf (magnitude : Nat) : Nat × Int :=
  let field : Nat := magnitude / fractionCount
  let fraction : Nat := magnitude % fractionCount
  if field = 0 then (fraction, -1074) else (fractionCount + fraction, (field : Int) - 1075)

/-- The absolute value of a finite number as a ratio. -/
def toRatio (x : Binary64) : Nat × Nat :=
  let units := unitsOf x.magnitude
  scaled units.1 1 units.2

/-- The product of two finite numbers, rounded once. -/
def mul (x y : Binary64) : Binary64 :=
  let p := x.toRatio
  let q := y.toRatio
  ofRatio (x.negative != y.negative) (p.1 * q.1) (p.2 * q.2)

/-- The quotient of two finite numbers, the second not zero, rounded once. -/
def div (x y : Binary64) : Binary64 :=
  let p := x.toRatio
  let q := y.toRatio
  ofRatio (x.negative != y.negative) (p.1 * q.2) (p.2 * q.1)

end Beneficiary.Binary64
