import Mathlib
import Beneficiary.Text.Numeral

/-!
# Decimal numerals

The digits of a decimal numeral denote the number that was written, so different numbers have
different numerals.
-/

namespace Beneficiary.Text

/-- The value of a run of digits with one more. -/
theorem digitsValue_concat (cs : List Char) (c : Char) :
    digitsValue (cs ++ [c]) = 10 * digitsValue cs + (digitValue? c).getD 0 := by
  rw [digitsValue, digitsValue, List.foldl_append]
  rfl

/-- A decimal digit has the value that it was written for. -/
theorem digitValue?_digit {n : Nat} (h : n < 10) : digitValue? (digit n) = some n := by
  revert h
  revert n
  decide

/-- The digits of a numeral denote the number. -/
theorem digitsValue_decimal (n : Nat) : digitsValue (decimal n) = n := by
  induction n using Nat.strong_induction_on with
  | _ n ih =>
    rw [decimal]
    by_cases h : n < 10
    · rw [if_pos h, ← List.nil_append [digit n], digitsValue_concat, digitValue?_digit h]
      simp [digitsValue]
    · have hlast : n % 10 < 10 := Nat.mod_lt n (by omega)
      rw [if_neg h, digitsValue_concat, ih (n / 10) (by omega), digitValue?_digit hlast,
        Option.getD_some]
      exact Nat.div_add_mod n 10

/-- Different numbers have different numerals. -/
theorem decimalText_injective : Function.Injective decimalText := by
  intro a b h
  have h : decimal a = decimal b := String.ofList_injective h
  rw [← digitsValue_decimal a, h, digitsValue_decimal]

end Beneficiary.Text
