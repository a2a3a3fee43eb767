import Beneficiary.Binary64.Rounding
import Beneficiary.Text.Numeral

/-!
# Shortest decimals of binary64 numbers

The reals that round to a binary64 number form an interval, its ends included exactly when the
last bit is even. The shortest decimal is the point of the coarsest decimal grid inside the
interval, the one nearer to the number when two neighbours are inside. A layout record then
decides how digits and exponent are written.
-/

namespace Beneficiary.Binary64

open Text

/-- A positive decimal: `digits` times ten to the `exponent`. -/
structure Decimal where
  digits : Nat
  exponent : Int
deriving DecidableEq, Repr

/-- The interval of reals that round to a finite positive magnitude, with the magnitude's own
value, over one denominator. -/
structure Interval where
  low : Nat
  value : Nat
  high : Nat
  den : Nat
  closed : Bool

/-- The rounding interval of a magnitude. Below a power of two the gap is half as wide. -/
def intervalOf (magnitude : Nat) : Interval :=
  let units := unitsOf magnitude
  let below := if magnitude % fractionCount = 0 ∧ fractionCount < magnitude then 1 else 2
  let unit := scaled 1 1 (units.2 - 2)
  { low := (4 * units.1 - below) * unit.1
    value := 4 * units.1 * unit.1
    high := (4 * units.1 + 2) * unit.1
    den := unit.2
    closed := units.1 % 2 = 0 }

/-- Whether `digits` times ten to the `exponent` lies in the interval. -/
def Interval.holds (i : Interval) (digits : Nat) (exponent : Int) : Bool :=
  let point := if exponent < 0 then (digits, Nat.pow 10 exponent.natAbs)
    else (digits * Nat.pow 10 exponent.natAbs, 1)
  let lower := i.low * point.2
  let upper := i.high * point.2
  let middle := point.1 * i.den
  if i.closed then lower ≤ middle && middle ≤ upper else lower < middle && middle < upper

/-- The point of one decimal grid nearest to the value among the two neighbours that lie in the
interval; a tie goes to the even digit. -/
def Interval.onGrid? (i : Interval) (exponent : Int) : Option Nat :=
  let grid := if exponent < 0 then (i.value * Nat.pow 10 exponent.natAbs, i.den)
    else (i.value, i.den * Nat.pow 10 exponent.natAbs)
  let floor := grid.1 / grid.2
  match i.holds floor exponent, i.holds (floor + 1) exponent with
  | true, true => some (roundDiv grid.1 grid.2)
  | true, false => some floor
  | false, true => some (floor + 1)
  | false, false => none

/-- The first grid, from coarse to fine, with a point in the interval. -/
def Interval.search (i : Interval) : Nat → Int → Option Decimal
  | 0, _ => none
  | steps + 1, exponent =>
    match i.onGrid? exponent with
    | some digits => some { digits, exponent }
    | none => i.search steps (exponent - 1)

/-- An exponent at which a power of ten exceeds the magnitude, by the binary exponent and a
rational just below the logarithm of two. -/
def coarsestExponent (magnitude : Nat) : Int :=
  let units := unitsOf magnitude
  let top : Int := (units.1.log2 : Int) + 1 + units.2
  if 0 ≤ top then top * 1233 / 4096 + 1 else -(-top * 1233 / 4096) + 1

/-- The shortest decimal that rounds to a finite positive magnitude. Twenty grids are enough:
seventeen digits tell any two magnitudes apart. -/
def shortest (magnitude : Nat) : Decimal :=
  ((intervalOf magnitude).search 24 (coarsestExponent magnitude)).getD
    { digits := 0, exponent := 0 }

/-- The decisions of a number format: the decimal exponents written with a plain point, and the
texts around an exponent. -/
structure Layout where
  leastPlain : Int
  greatestPlain : Int
  exponentMark : Char
  plusSign : Bool

/-- The digits of a decimal with the point placed, at least one digit on each side of it. -/
def plainText (digits : List Char) (exponent : Int) : List Char :=
  let places := (digits.length : Int) + exponent
  if 0 ≤ exponent then digits ++ List.replicate exponent.natAbs '0' ++ ['.', '0']
  else if 0 < places then
    digits.take places.toNat ++ '.' :: digits.drop places.toNat
  else '0' :: '.' :: List.replicate places.natAbs '0' ++ digits

/-- The digits of a decimal with a point after the first and an exponent. -/
def scientificText (layout : Layout) (digits : List Char) (exponent : Int) : List Char :=
  let scientific := (digits.length : Int) + exponent - 1
  let mantissa := match digits with
    | [] => []
    | [d] => [d]
    | d :: others => d :: '.' :: others
  let sign := if scientific < 0 then ['-'] else if layout.plusSign then ['+'] else []
  mantissa ++ layout.exponentMark :: sign ++ decimal scientific.natAbs

/-- The text of a finite number in a layout, with its sign. -/
def render (layout : Layout) (x : Binary64) : List Char :=
  let body :=
    if x.magnitude = 0 then ['0', '.', '0']
    else
      let short := shortest x.magnitude
      let digits := decimal short.digits
      let scientific := (digits.length : Int) + short.exponent - 1
      if layout.leastPlain ≤ scientific ∧ scientific ≤ layout.greatestPlain then
        plainText digits short.exponent
      else scientificText layout digits short.exponent
  if x.negative then '-' :: body else body

end Beneficiary.Binary64
