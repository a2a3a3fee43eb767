/-!
# Binary64 numbers

A binary64 number is a sign and a magnitude, the lower sixty-three bits of its pattern.
Magnitudes ascend with the absolute value, so the order of numbers is the order of signed
magnitudes: the two zeros are one point, and the patterns above infinity are no numbers and
take part in no comparison.
-/

namespace Beneficiary

/-- A binary64 number by sign and magnitude pattern. -/
structure Binary64 where
  negative : Bool
  magnitude : Nat
  magnitude_lt : magnitude < 9223372036854775808
deriving DecidableEq, Repr

namespace Binary64

/-- The magnitude pattern of infinity: eleven exponent bits set and an empty fraction. -/
def infinityMagnitude : Nat := 0x7FF0000000000000

/-- The number of magnitudes that share an exponent. -/
def fractionCount : Nat := 4503599627370496

/-- The zero of a sign. -/
def zero (negative : Bool) : Binary64 := ⟨negative, 0, by decide⟩

/-- The infinity of a sign. -/
def infinity (negative : Bool) : Binary64 := ⟨negative, infinityMagnitude, by decide⟩

/-- The pattern that stands for no number, by sign. -/
def notANumber (negative : Bool) : Binary64 := ⟨negative, 0x7FF8000000000000, by decide⟩

/-- The number of a sign and a magnitude, infinity when the magnitude passes it. -/
def ofMagnitude (negative : Bool) (magnitude : Nat) : Binary64 :=
  if h : magnitude < infinityMagnitude then
    ⟨negative, magnitude, Nat.lt_trans h (by decide)⟩
  else infinity negative

/-- Whether the pattern stands for no number. -/
def isNaN (x : Binary64) : Bool := infinityMagnitude < x.magnitude

/-- Whether the number is neither infinite nor without value. -/
def isFinite (x : Binary64) : Bool := x.magnitude < infinityMagnitude

/-- The place of a number in the order of all numbers: its magnitude with its sign. -/
def place (x : Binary64) : Int := if x.negative then -(x.magnitude : Int) else x.magnitude

/-- The order of two numbers, absent when one pattern is no number. -/
def compare? (x y : Binary64) : Option Ordering :=
  if x.isNaN || y.isNaN then none else some (compare x.place y.place)

/-- Numeric equality: zeros of both signs are equal, and a pattern without value equals
nothing. -/
def equal (x y : Binary64) : Bool := !x.isNaN && !y.isNaN && x.place == y.place

/-- The bit pattern of the number. -/
def bits (x : Binary64) : Nat :=
  (if x.negative then 9223372036854775808 else 0) + x.magnitude

end Binary64

end Beneficiary
