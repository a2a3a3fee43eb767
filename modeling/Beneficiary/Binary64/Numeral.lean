import Beneficiary.Binary64.Rounding
import Beneficiary.Text.Numeral
import Beneficiary.Text.Blank

/-!
# Decimal numerals of binary64 numbers

A numeral is an optional sign, then a word for infinity or for no number, or digits with an
optional point on either side and an optional exponent. It denotes the binary64 number nearest
to the decimal written.
-/

namespace Beneficiary.Binary64

open Text

/-- The exponent part of a numeral that ends the text: absent, or a letter `e`, an optional sign
and at least one digit. -/
def exponentPart? : List Char → Option Int
  | [] => some 0
  | c :: rest =>
    if c = 'e' ∨ c = 'E' then
      let (negative, digits) := match rest with
        | '-' :: ds => (true, ds)
        | '+' :: ds => (false, ds)
        | ds => (false, ds)
      if digits.isEmpty || !digits.all isDigit then none
      else some (if negative then -(digitsValue digits : Int) else digitsValue digits)
    else none

/-- An unsigned numeral: digits around an optional point, at least one of them, then the
exponent. -/
def unsignedNumeral? (negative : Bool) (cs : List Char) : Option Binary64 :=
  let (whole, afterWhole) := takeDigits none cs
  let (fraction, afterFraction) := match afterWhole with
    | '.' :: rest => takeDigits none rest
    | rest => ([], rest)
  if whole.isEmpty && fraction.isEmpty then none
  else (exponentPart? afterFraction).map fun exponent =>
    ofDecimal negative (digitsValue (whole ++ fraction)) (exponent - fraction.length)

/-- A word for infinity or for no number, in any case. -/
def word? (negative : Bool) (cs : List Char) : Option Binary64 :=
  match lowerAscii (String.ofList cs) with
  | "inf" => some (infinity negative)
  | "infinity" => some (infinity negative)
  | "nan" => some (notANumber negative)
  | _ => none

/-- The number that a whole text denotes. -/
def numeral? (cs : List Char) : Option Binary64 :=
  let (negative, body) := match cs with
    | '-' :: rest => (true, rest)
    | '+' :: rest => (false, rest)
    | rest => (false, rest)
  match word? negative body with
  | some x => some x
  | none => unsignedNumeral? negative body

end Beneficiary.Binary64
