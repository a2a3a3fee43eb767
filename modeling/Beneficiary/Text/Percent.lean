import Beneficiary.Text.Numeral

/-!
# Percent encoding

A percent sign with two hexadecimal digits stands for a byte; any other percent sign stands for
itself, and every other character for its bytes in UTF-8.
-/

namespace Beneficiary.Text

/-- The bytes that a percent-encoded text stands for. -/
def percentDecoded : List Char → List UInt8
  | [] => []
  | '%' :: a :: b :: rest =>
    match hexValue? a, hexValue? b with
    | some high, some low => UInt8.ofNat (16 * high + low) :: percentDecoded rest
    | _, _ => String.utf8EncodeChar '%' ++ percentDecoded (a :: b :: rest)
  | c :: rest => String.utf8EncodeChar c ++ percentDecoded rest

end Beneficiary.Text
