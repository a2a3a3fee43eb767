import Beneficiary.Proofs.Json.Numerals

/-!
# Integers as binary64 numbers

An integer is turned into a binary64 number by conversion, and its text is read as one by decimal
reading. Both round the same ratio. An integer of sixty-four bits has a leading bit low enough for
the rounded number to be finite.
-/

namespace Beneficiary

open Text

namespace Binary64

/-- A numeral is no word for infinity or for no number. -/
theorem word?_eq_none {negative : Bool} {cs : List Char} (h : IsNumeral cs) :
    word? negative cs = none := by
  have hlower : lowerAscii (String.ofList cs) = String.ofList cs :=
    lowerAscii_of_free (by rw [String.toList_ofList]; exact h.toLower_eq)
  rw [← String.toList_ofList (l := cs)] at h
  unfold word?
  rw [hlower]
  split
  · next heq => exact absurd heq (h.ne_word (by simp; decide))
  · next heq => exact absurd heq (h.ne_word (by simp; decide))
  · next heq => exact absurd heq (h.ne_word (by simp; decide))
  · rfl

/-- A decimal without exponent is rounded as the ratio of its digits to one. -/
theorem ofDecimal_zero (negative : Bool) (n : Nat) :
    ofDecimal negative n 0 = ofRatio negative n 1 := by
  unfold ofDecimal
  by_cases hn : n = 0
  · simp [hn, ofRatio]
  · simp [hn]

/-- The digits of a natural number are read as the number nearest to it. -/
theorem unsignedNumeral?_decimal (negative : Bool) (n : Nat) :
    unsignedNumeral? negative (decimal n) = some (ofRatio negative n 1) := by
  simp [unsignedNumeral?, takeDigits_decimal, decimal_ne_nil, exponentPart?, digitsValue_decimal,
    ofDecimal_zero]

/-- The text of an integer is read as the number nearest to it. -/
theorem numeral?_integerText (z : Int) : numeral? (integerText z).toList = some (ofInt z) := by
  have hword (negative : Bool) : word? negative (decimal z.natAbs) = none :=
    word?_eq_none ⟨_, isUnsigned_decimal _, .inl rfl⟩
  unfold integerText
  by_cases hz : z < 0
  · rw [if_pos hz, String.toList_ofList, numeral?]
    simp [hword, unsignedNumeral?_decimal, ofInt, hz]
  · have hmark {mark : Char} (hmark : isDigit mark = false) (rest : List Char)
        (htext : decimal z.natAbs = mark :: rest) : False := by
      have hdigit := isDigit_of_mem_decimal (htext ▸ List.mem_cons_self)
      rw [hmark] at hdigit
      cases hdigit
    rw [if_neg hz, decimalText, String.toList_ofList, numeral?]
    · simp [hword, unsignedNumeral?_decimal, ofInt, hz]
    · exact hmark (by decide)
    · exact hmark (by decide)

/-- A rounded quotient exceeds the quotient by one at most. -/
theorem roundDiv_le (num den : Nat) : roundDiv num den ≤ num / den + 1 := by
  unfold roundDiv
  dsimp only
  split
  · omega
  split
  · omega
  split <;> omega

/-- The leading bit of an integer is the one of its binary logarithm, or is taken for the one
below. -/
theorem binaryExponent_one (n : Nat) :
    (n.log2 : Int) - 1 ≤ binaryExponent n 1 ∧ binaryExponent n 1 ≤ n.log2 := by
  have hone : Nat.log2 1 = 0 := by decide
  unfold binaryExponent
  rw [hone]
  dsimp only
  split <;> omega

/-- In units of its last place an integer has no more than fifty-four bits. -/
theorem scaled_lastPlace_lt (n : Nat) :
    (scaled n 1 (-lastPlace n 1)).1 / (scaled n 1 (-lastPlace n 1)).2 < 2 ^ 54 := by
  have hplace : (n.log2 : Int) - 53 ≤ lastPlace n 1 := by
    have hlow := (binaryExponent_one n).1
    unfold lastPlace
    omega
  have hbits : n < 2 ^ (n.log2 + 1) := Nat.lt_log2_self
  unfold scaled
  dsimp only [Nat.pow_eq]
  split
  · have hexponent : n.log2 + 1 ≤ (-lastPlace n 1).natAbs + 54 := by omega
    apply Nat.div_lt_of_lt_mul
    calc
      n < 2 ^ (n.log2 + 1) := hbits
      _ ≤ 2 ^ ((-lastPlace n 1).natAbs + 54) := Nat.pow_le_pow_right (by decide) hexponent
      _ = 1 * 2 ^ (-lastPlace n 1).natAbs * 2 ^ 54 := by rw [pow_add, one_mul]
  · have hexponent : n.log2 + 1 + (-lastPlace n 1).natAbs ≤ 54 := by omega
    rw [Nat.div_one]
    calc
      n * 2 ^ (-lastPlace n 1).natAbs < 2 ^ (n.log2 + 1) * 2 ^ (-lastPlace n 1).natAbs :=
        Nat.mul_lt_mul_of_pos_right hbits (Nat.two_pow_pos _)
      _ = 2 ^ (n.log2 + 1 + (-lastPlace n 1).natAbs) := (pow_add _ _ _).symm
      _ ≤ 2 ^ 54 := Nat.pow_le_pow_right (by decide) hexponent

/-- A magnitude below infinity is that of a finite number. -/
theorem isFinite_ofMagnitude {magnitude : Nat} (h : magnitude < infinityMagnitude)
    (negative : Bool) : (ofMagnitude negative magnitude).isFinite = true := by
  rw [ofMagnitude, dif_pos h]
  exact decide_eq_true h

/-- An integer of sixty-four bits is a finite number. -/
theorem isFinite_ofInt {z : Int} (h : z.natAbs < 2 ^ 64) : (ofInt z).isFinite = true := by
  unfold ofInt ofRatio
  by_cases hzero : z.natAbs = 0
  · rw [if_pos hzero]
    rfl
  · rw [if_neg hzero]
    apply isFinite_ofMagnitude
    have hbits : z.natAbs.log2 < 64 := (Nat.log2_lt hzero).mpr h
    have hplace : (lastPlace z.natAbs 1 + 1074).toNat ≤ 1085 := by
      have hhigh := (binaryExponent_one z.natAbs).2
      unfold lastPlace
      omega
    have hunits := scaled_lastPlace_lt z.natAbs
    have hround := roundDiv_le (scaled z.natAbs 1 (-lastPlace z.natAbs 1)).1
      (scaled z.natAbs 1 (-lastPlace z.natAbs 1)).2
    unfold fractionCount infinityMagnitude
    omega

end Binary64

end Beneficiary
