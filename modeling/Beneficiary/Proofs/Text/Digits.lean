import Mathlib
import Beneficiary.Proofs.Text.Occurrence

/-!
# Runs of digits

The digits of a numeral are read up to where they end, be it filled with zeros or not, so a numeral
is read back from the start of a text that goes on with something else.
-/

namespace Beneficiary.Text

/-- A text that does not go on with a digit. -/
def endsDigits : List Char → Bool
  | [] => true
  | c :: _ => !isDigit c

private theorem takeWhile_of_endsDigits {rest : List Char} (h : endsDigits rest = true) :
    rest.takeWhile isDigit = [] := by
  cases rest with
  | nil => rfl
  | cons c cs =>
    rw [endsDigits, Bool.not_eq_true'] at h
    rw [List.takeWhile_cons, h]
    rfl

/-- The digits at the start of a text are the same when a text follows that starts with none. -/
theorem takeDigits_append (cs : List Char) {rest : List Char} (h : endsDigits rest = true) :
    takeDigits none (cs ++ rest) = ((takeDigits none cs).1, (takeDigits none cs).2 ++ rest) := by
  have hrun : (cs ++ rest).takeWhile isDigit = cs.takeWhile isDigit := by
    rw [List.takeWhile_append, takeWhile_of_endsDigits h, List.append_nil]
    split
    · next hlength =>
      exact ((List.takeWhile_prefix isDigit).eq_of_length hlength).symm
    · rfl
  have hlength : (cs.takeWhile isDigit).length ≤ cs.length :=
    (List.takeWhile_prefix isDigit).length_le
  simp only [takeDigits, hrun, List.drop_append_of_le_length hlength]

/-- A run of digits is read whole before a text that starts with none, when it is not longer than
what is read. -/
theorem takeDigits_of_digits {limit : Option Nat} {ds rest : List Char}
    (hds : ∀ c ∈ ds, isDigit c = true) (hrest : endsDigits rest = true)
    (hlimit : ∀ most ∈ limit, ds.length ≤ most) :
    takeDigits limit (ds ++ rest) = (ds, rest) := by
  have hrun : (ds ++ rest).takeWhile isDigit = ds := by
    rw [List.takeWhile_append_of_pos hds, takeWhile_of_endsDigits hrest, List.append_nil]
  cases limit with
  | none => simp only [takeDigits, hrun, List.drop_left]
  | some most =>
    have htake : ds.take most = ds := List.take_of_length_le (hlimit most rfl)
    simp only [takeDigits, hrun, htake, List.drop_left]

/-- A numeral is read whole. -/
theorem takeDigits_decimal (n : Nat) : takeDigits none (decimal n) = (decimal n, []) := by
  have hlimit : ∀ most ∈ (none : Option Nat), (decimal n).length ≤ most := by simp
  have h := takeDigits_of_digits (fun c => isDigit_of_mem_decimal (c := c))
    (rfl : endsDigits [] = true) hlimit
  rwa [List.append_nil] at h

/-- A numeral has a first digit. -/
theorem decimal_ne_nil (n : Nat) : decimal n ≠ [] := by
  rw [decimal]
  split <;> simp

/-- Only the numeral of zero starts with a zero. -/
theorem decimal_head_ne_zero {n : Nat} (h : n ≠ 0) : (decimal n).head? ≠ some '0' := by
  induction n using Nat.strong_induction_on with
  | _ n ih =>
    have hdigit : ∀ k < 10, k ≠ 0 → digit k ≠ '0' := by decide
    rw [decimal]
    by_cases hn : n < 10
    · rw [if_pos hn, List.head?_cons]
      exact fun hzero => hdigit n hn h (Option.some.inj hzero)
    · rw [if_neg hn, List.head?_append_of_ne_nil _ (decimal_ne_nil _)]
      exact ih (n / 10) (by omega) (by omega)

/-- An integer is written like a natural number just where it is that number. -/
theorem integerText_eq_decimalText_iff {z : Int} {n : Nat} :
    integerText z = decimalText n ↔ z = n := by
  unfold integerText
  split
  · have hhyphen : '-' :: decimal z.natAbs ≠ decimal n := by
      intro h
      have hdigit : isDigit '-' = true := isDigit_of_mem_decimal (h ▸ List.mem_cons_self)
      exact absurd hdigit (by decide)
    rw [decimalText, String.ofList_inj]
    constructor
    · exact fun h => absurd h hhyphen
    · omega
  · rw [decimalText_injective.eq_iff]
    omega

/-- A hexadecimal digit has the value that it was written for. -/
theorem hexValue?_digit {n : Nat} (h : n < 16) : hexValue? (digit n) = some n := by
  revert h
  revert n
  decide

/-- A number below a power of ten has no more digits than the power has zeros. -/
theorem length_decimal_le {n k : Nat} (h : n < 10 ^ (k + 1)) : (decimal n).length ≤ k + 1 := by
  induction k generalizing n with
  | zero =>
    rw [decimal, if_pos (by simpa using h)]
    simp
  | succ k ih =>
    rw [decimal]
    by_cases hn : n < 10
    · rw [if_pos hn]
      simp
    · have hquotient : n / 10 < 10 ^ (k + 1) := by
        rw [Nat.div_lt_iff_lt_mul (by decide)]
        rwa [pow_succ] at h
      rw [if_neg hn, List.length_append, List.length_singleton]
      exact Nat.succ_le_succ (ih hquotient)

/-- A run of digits denotes a number below the power of ten with as many zeros. -/
theorem digitsValue_lt (cs : List Char) : digitsValue cs < 10 ^ cs.length := by
  have hdigit (c : Char) : (digitValue? c).getD 0 < 10 := by
    unfold digitValue?
    split
    · next hc =>
      have hle : c.toNat ≤ 57 := hc.2
      rw [Option.getD_some]
      omega
    · decide
  induction cs using List.reverseRecOn with
  | nil => decide
  | append_singleton cs c ih =>
    have hc := hdigit c
    rw [digitsValue_concat, List.length_append, List.length_singleton, pow_succ]
    omega

/-- The digits of a filled numeral are digits. -/
theorem isDigit_of_mem_zeroPadded {width n : Nat} {c : Char}
    (h : c ∈ zeroPadded width (decimal n)) : isDigit c = true := by
  rw [zeroPadded, List.mem_append, List.mem_replicate] at h
  rcases h with ⟨-, rfl⟩ | h
  · rfl
  · exact isDigit_of_mem_decimal h

/-- Zeros before a numeral do not change the number. -/
theorem digitsValue_zeroPadded (width n : Nat) : digitsValue (zeroPadded width (decimal n)) = n := by
  have hzeros (count : Nat) :
      digitsValue (List.replicate count '0' ++ decimal n) = digitsValue (decimal n) := by
    induction count with
    | zero => rfl
    | succ count ih =>
      rw [← ih, List.replicate_succ, List.cons_append, digitsValue, List.foldl_cons]
      rfl
  rw [zeroPadded, hzeros, digitsValue_decimal]

/-- A numeral is filled to its width when it has no more digits. -/
theorem length_zeroPadded {width n : Nat} (h : n < 10 ^ (width + 1)) :
    (zeroPadded (width + 1) (decimal n)).length = width + 1 := by
  have hle := length_decimal_le h
  rw [zeroPadded, List.length_append, List.length_replicate]
  omega

end Beneficiary.Text
