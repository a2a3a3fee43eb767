/-!
# Numerals

Writing natural numbers in a base and reading runs of decimal digits. A numeral read by
`takeDigits` is the value of the digits it consumed.
-/

namespace Beneficiary.Text

/-- The digit of a value below thirty-six, letters in lower case. -/
def digit (n : Nat) : Char :=
  if n < 10 then Char.ofNat (48 + n) else Char.ofNat (87 + n)

/-- The decimal numeral of a natural number, without leading zeros. -/
def decimal (n : Nat) : List Char :=
  if n < 10 then [digit n] else decimal (n / 10) ++ [digit (n % 10)]

/-- The decimal numeral as a string. -/
def decimalText (n : Nat) : String := String.ofList (decimal n)

/-- The decimal numeral of an integer, with a minus sign when it is negative. -/
def integerText (z : Int) : String :=
  if z < 0 then String.ofList ('-' :: decimal z.natAbs) else decimalText z.natAbs

/-- The text filled on the left with zeros up to a width. -/
def zeroPadded (width : Nat) (cs : List Char) : List Char :=
  List.replicate (width - cs.length) '0' ++ cs

/-- The lowest `width` hexadecimal digits of a natural number. -/
def hexadecimal : Nat → Nat → List Char
  | 0, _ => []
  | width + 1, n => hexadecimal width (n / 16) ++ [digit (n % 16)]

/-- The value of a decimal digit. -/
def digitValue? (c : Char) : Option Nat :=
  if '0' ≤ c ∧ c ≤ '9' then some (c.toNat - 48) else none

/-- Whether a character is one of the digits `0` to `9`. -/
def isDigit (c : Char) : Bool := (digitValue? c).isSome

/-- The value of a hexadecimal digit in either case. -/
def hexValue? (c : Char) : Option Nat :=
  if '0' ≤ c ∧ c ≤ '9' then some (c.toNat - 48)
  else if 'a' ≤ c ∧ c ≤ 'f' then some (c.toNat - 87)
  else if 'A' ≤ c ∧ c ≤ 'F' then some (c.toNat - 55)
  else none

/-- The number that a run of decimal digits denotes; other characters count as zero. -/
def digitsValue (cs : List Char) : Nat :=
  cs.foldl (fun value c => 10 * value + (digitValue? c).getD 0) 0

/-- The digits at the start of a text, at most `limit` of them when a limit is given, and the
rest of the text. -/
def takeDigits (limit : Option Nat) (cs : List Char) : List Char × List Char :=
  let run := cs.takeWhile isDigit
  let taken := match limit with
    | some most => run.take most
    | none => run
  (taken, cs.drop taken.length)

/-- A whole text read as an unsigned decimal number, after an optional plus sign. -/
def unsigned? (cs : List Char) : Option Nat :=
  let digits := match cs with
    | '+' :: rest => rest
    | _ => cs
  if digits.isEmpty || !digits.all isDigit then none else some (digitsValue digits)

end Beneficiary.Text
