import Beneficiary.Text.Numeral
import Beneficiary.Text.Blank

/-!
# Universally unique identifiers

An identifier is a number, written with its thirty-two lowest hexadecimal digits in lower case and
hyphens after the eighth, twelfth, sixteenth and twentieth digit. It is read in that form, without
hyphens, in braces, or after a resource name, in either case of the letters, so a number read has
no further digits.
-/

namespace Beneficiary

open Text

/-- An identifier by its number. -/
structure Uuid where
  value : Nat
deriving DecidableEq, Repr, Inhabited

namespace Uuid

/-- The identifier whose digits are all zero. -/
def nil : Uuid := ⟨0⟩

/-- The hyphenated form. -/
def text (id : Uuid) : String :=
  let digits := hexadecimal 32 id.value
  String.ofList <|
    digits.take 8 ++ '-' :: (digits.drop 8).take 4 ++ '-' :: (digits.drop 12).take 4
      ++ '-' :: (digits.drop 16).take 4 ++ '-' :: digits.drop 20

/-- The number of thirty-two hexadecimal digits. -/
def ofDigits? (cs : List Char) : Option Uuid :=
  if cs.length = 32 then
    (cs.mapM hexValue?).map fun values => ⟨values.foldl (fun n v => 16 * n + v) 0⟩
  else none

/-- The number of the hyphenated form. -/
def ofHyphenated? (cs : List Char) : Option Uuid :=
  match pieces (· == '-') cs with
  | [a, b, c, d, e] =>
    if a.length = 8 ∧ b.length = 4 ∧ c.length = 4 ∧ d.length = 4 ∧ e.length = 12 then
      ofDigits? (a ++ b ++ c ++ d ++ e)
    else none
  | _ => none

/-- What stands before an identifier that is written as a resource name. -/
def resourceName : List Char := "urn:uuid:".toList

/-- The text after `urn:uuid:`, if it starts so in any case of the letters. -/
def afterResourceName? (cs : List Char) : Option (List Char) :=
  if (cs.take resourceName.length).map Char.toLower == resourceName then
    some (cs.drop resourceName.length)
  else none

/-- The text within braces, if it stands in them. -/
def withinBraces? : List Char → Option (List Char)
  | '{' :: rest => if rest.getLast? = some '}' then some rest.dropLast else none
  | _ => none

/-- The identifier that a whole text denotes. Braces and a resource name enclose the hyphenated
form; digits without hyphens stand alone. -/
def ofText? (s : String) : Option Uuid :=
  let cs := s.toList
  match afterResourceName? cs with
  | some inner => ofHyphenated? inner
  | none =>
    match withinBraces? cs with
    | some inner => ofHyphenated? inner
    | none => if cs.length = 32 then ofDigits? cs else ofHyphenated? cs

end Uuid

end Beneficiary
