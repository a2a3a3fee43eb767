import Beneficiary.Json.Basic
import Beneficiary.Proofs.Calendar.Hyphens
import Beneficiary.Proofs.Text.Blank
import Beneficiary.Proofs.Text.Digits

/-!
# The form of numerals

A number is written as digits with at most a point among them, after a sign where it is negative and
before an exponent where it is large or small. So its text starts with a digit or a hyphen, no white
space stands in it, and a hyphen stands at its start or after the exponent mark, never after a
digit. A number that is no integer has a point or an exponent.
-/

namespace Beneficiary

open Text

namespace Text

/-- A digit, and after it digits and points. -/
def IsMantissa (cs : List Char) : Prop :=
  ∃ first others, cs = first :: others ∧ isDigit first = true ∧
    ∀ c ∈ others, isDigit c = true ∨ c = '.'

/-- A numeral without its sign: a mantissa, with an exponent or without. -/
inductive IsUnsigned : List Char → Prop
  | plain {mantissa : List Char} (written : IsMantissa mantissa) : IsUnsigned mantissa
  | scientific {mantissa digits : List Char} {sign : Char} (written : IsMantissa mantissa)
      (signed : sign = '-' ∨ sign = '+') (numeral : ∀ c ∈ digits, isDigit c = true) :
      IsUnsigned (mantissa ++ 'e' :: sign :: digits)

/-- A numeral, after a hyphen where it is negative. -/
def IsNumeral (cs : List Char) : Prop :=
  ∃ body, IsUnsigned body ∧ (cs = body ∨ cs = '-' :: body)

variable {cs others : List Char} {c : Char}

/-- A mantissa goes on with digits and points. -/
theorem IsMantissa.append (h : IsMantissa cs) (hothers : ∀ c ∈ others, isDigit c = true ∨ c = '.') :
    IsMantissa (cs ++ others) := by
  obtain ⟨first, rest, rfl, hfirst, hrest⟩ := h
  exact ⟨first, rest ++ others, rfl, hfirst, List.forall_mem_append.mpr ⟨hrest, hothers⟩⟩

/-- Digits are a mantissa. -/
theorem isMantissa_of_digits (hne : cs ≠ []) (h : ∀ c ∈ cs, isDigit c = true) : IsMantissa cs := by
  obtain ⟨first, rest, rfl⟩ := List.exists_cons_of_ne_nil hne
  obtain ⟨hfirst, hrest⟩ := List.forall_mem_cons.mp h
  exact ⟨first, rest, rfl, hfirst, fun c hc => .inl (hrest c hc)⟩

/-- The digits of a natural number are a numeral without sign. -/
theorem isUnsigned_decimal (n : Nat) : IsUnsigned (decimal n) :=
  .plain (isMantissa_of_digits (decimal_ne_nil n) fun _ => isDigit_of_mem_decimal)

/-- A mantissa holds digits and points. -/
theorem IsMantissa.mem (h : IsMantissa cs) (hc : c ∈ cs) : isDigit c = true ∨ c = '.' := by
  obtain ⟨first, rest, rfl, hfirst, hrest⟩ := h
  rcases List.mem_cons.mp hc with rfl | hc
  · exact .inl hfirst
  · exact hrest c hc

/-- A numeral without sign starts with a digit. -/
theorem IsUnsigned.head (h : IsUnsigned cs) : ∃ c rest, cs = c :: rest ∧ isDigit c = true := by
  cases h with
  | plain written =>
    obtain ⟨first, rest, rfl, hfirst, -⟩ := written
    exact ⟨first, rest, rfl, hfirst⟩
  | scientific written =>
    obtain ⟨first, rest, rfl, hfirst, -⟩ := written
    exact ⟨first, _, rfl, hfirst⟩

/-- A numeral without sign holds digits and the marks of numerals. -/
theorem IsUnsigned.mem (h : IsUnsigned cs) (hc : c ∈ cs) :
    isDigit c = true ∨ c ∈ ['.', 'e', '-', '+'] := by
  cases h with
  | plain written => exact (written.mem hc).imp_right (by simp +contextual)
  | scientific written signed numeral =>
    simp only [List.mem_append, List.mem_cons] at hc
    rcases hc with hc | rfl | rfl | hc
    · exact (written.mem hc).imp_right (by simp +contextual)
    · simp
    · rcases signed with rfl | rfl <;> simp
    · exact .inl (numeral c hc)

/-- A numeral starts with a digit or a hyphen. -/
theorem IsNumeral.head (h : IsNumeral cs) :
    ∃ c rest, cs = c :: rest ∧ (isDigit c = true ∨ c = '-') := by
  obtain ⟨body, hbody, rfl | rfl⟩ := h
  · obtain ⟨c, rest, rfl, hc⟩ := hbody.head
    exact ⟨c, rest, rfl, .inl hc⟩
  · exact ⟨'-', body, rfl, .inr rfl⟩

/-- A numeral holds digits and the marks of numerals. -/
theorem IsNumeral.mem (h : IsNumeral cs) (hc : c ∈ cs) :
    isDigit c = true ∨ c ∈ ['.', 'e', '-', '+'] := by
  obtain ⟨body, hbody, rfl | rfl⟩ := h
  · exact hbody.mem hc
  · rcases List.mem_cons.mp hc with rfl | hc
    · simp
    · exact hbody.mem hc

/-- No white space stands in a numeral. -/
theorem IsNumeral.isBlank_eq_false (h : IsNumeral cs) : ∀ c ∈ cs, isBlank c = false := by
  have hmark : ∀ c ∈ ['.', 'e', '-', '+'], isBlank c = false := by
    simp [isBlank, blankRanges]
  exact fun c hc => (h.mem hc).elim isBlank_of_isDigit (hmark c)

/-- A numeral has no capital letters. -/
theorem IsNumeral.toLower_eq (h : IsNumeral cs) : ∀ c ∈ cs, c.toLower = c := by
  have hmark : ∀ c ∈ ['.', 'e', '-', '+'], c.toLower = c := by simp [Char.toLower]
  exact fun c hc => (h.mem hc).elim toLower_of_isDigit (hmark c)

/-- A numeral is no word. -/
theorem IsNumeral.ne_word {text word : String} (h : IsNumeral text.toList)
    (hword : ∀ c ∈ word.toList.head?, isDigit c = false ∧ c ≠ '-') : text ≠ word := by
  rintro rfl
  obtain ⟨c, rest, htext, hc⟩ := h.head
  rw [htext] at hword
  obtain ⟨hdigit, hhyphen⟩ := hword c rfl
  rcases hc with hc | rfl
  · rw [hdigit] at hc
    cases hc
  · exact hhyphen rfl

/-- No hyphen stands after a digit of a numeral. -/
theorem IsNumeral.noHyphenAfterDigit (h : IsNumeral cs) : NoHyphenAfterDigit cs := by
  have hhyphen : isDigit '-' = false := by decide
  have hmantissa {cs : List Char} (h : IsMantissa cs) : NoHyphenAfterDigit cs := by
    refine .of_free fun hmem => ?_
    simpa [hhyphen] using h.mem hmem
  have hunsigned {cs : List Char} (h : IsUnsigned cs) : NoHyphenAfterDigit cs := by
    cases h with
    | plain written => exact hmantissa written
    | @scientific mantissa digits sign written signed numeral =>
      have hdigits : NoHyphenAfterDigit digits := .of_free fun hmem => by
        simpa [hhyphen] using numeral _ hmem
      have hsign : isDigit sign = false := by
        rcases signed with rfl | rfl <;> decide
      exact (hmantissa written).append ((hdigits.cons hsign).cons (by decide)) (by simp)
  obtain ⟨body, hbody, rfl | rfl⟩ := h
  · exact hunsigned hbody
  · exact (hunsigned hbody).cons hhyphen

end Text

namespace Binary64

variable {digits : List Char}

/-- Digits with the point placed are a mantissa with a point. -/
theorem isMantissa_plainText (hne : digits ≠ []) (h : ∀ c ∈ digits, isDigit c = true)
    (exponent : Int) :
    IsMantissa (plainText digits exponent) ∧ '.' ∈ plainText digits exponent := by
  have hzeros (count : Nat) : ∀ c ∈ List.replicate count '0', isDigit c = true ∨ c = '.' :=
    fun c hc => .inl ((List.eq_of_mem_replicate hc) ▸ by decide)
  unfold plainText
  dsimp only
  split
  · refine ⟨?_, by simp⟩
    exact ((isMantissa_of_digits hne h).append (hzeros _)).append (by simp; decide)
  split
  · next hplaces =>
    refine ⟨?_, by simp⟩
    have htake : IsMantissa (digits.take (digits.length + exponent).toNat) := by
      refine isMantissa_of_digits ?_ fun c hc => h c (List.mem_of_mem_take hc)
      rw [Ne, List.take_eq_nil_iff]
      exact not_or.mpr ⟨by omega, hne⟩
    exact htake.append (List.forall_mem_cons.mpr
      ⟨.inr rfl, fun c hc => .inl (h c (List.mem_of_mem_drop hc))⟩)
  · refine ⟨⟨'0', _, rfl, by decide, ?_⟩, by simp⟩
    refine List.forall_mem_cons.mpr ⟨.inr rfl, List.forall_mem_append.mpr ⟨hzeros _, ?_⟩⟩
    exact fun c hc => .inl (h c hc)

/-- Digits with an exponent are a numeral with an exponent, where the layout writes its sign. -/
theorem isUnsigned_scientificText (layout : Layout) (hmark : layout.exponentMark = 'e')
    (hplus : layout.plusSign = true) (hne : digits ≠ []) (h : ∀ c ∈ digits, isDigit c = true)
    (exponent : Int) :
    IsUnsigned (scientificText layout digits exponent) ∧
      'e' ∈ scientificText layout digits exponent := by
  have hexponent {mantissa : List Char} (hmantissa : IsMantissa mantissa) (scientific : Int) :
      IsUnsigned (mantissa ++ 'e' :: (if scientific < 0 then ['-'] else ['+']) ++
        decimal scientific.natAbs) := by
    have hnumeral : ∀ c ∈ decimal scientific.natAbs, isDigit c = true :=
      fun c => isDigit_of_mem_decimal
    by_cases hnegative : scientific < 0
    · simpa [hnegative] using IsUnsigned.scientific hmantissa (.inl rfl) hnumeral
    · simpa [hnegative] using IsUnsigned.scientific hmantissa (.inr rfl) hnumeral
  obtain ⟨first, others, rfl⟩ := List.exists_cons_of_ne_nil hne
  obtain ⟨hfirst, hothers⟩ := List.forall_mem_cons.mp h
  unfold scientificText
  rw [hmark, hplus]
  refine ⟨?_, by simp⟩
  cases others with
  | nil => exact hexponent (isMantissa_of_digits (List.cons_ne_nil _ _) h) _
  | cons second others =>
    refine hexponent ⟨first, _, rfl, hfirst, ?_⟩ _
    exact List.forall_mem_cons.mpr ⟨.inr rfl, fun c hc => .inl (hothers c hc)⟩

/-- A number is written as a numeral with a point or an exponent. -/
theorem isNumeral_render (x : Binary64) :
    IsNumeral (render Json.numberLayout x) ∧
      ('.' ∈ render Json.numberLayout x ∨ 'e' ∈ render Json.numberLayout x) := by
  have hdigits : ∀ c ∈ decimal (shortest x.magnitude).digits, isDigit c = true :=
    fun c => isDigit_of_mem_decimal
  obtain ⟨body, ⟨hunsigned, hmarked⟩, hrender⟩ : ∃ body,
      (IsUnsigned body ∧ ('.' ∈ body ∨ 'e' ∈ body)) ∧
        render Json.numberLayout x = if x.negative then '-' :: body else body := by
    refine ⟨_, ?_, rfl⟩
    dsimp only
    split
    · exact ⟨.plain ⟨'0', _, rfl, by decide, by simp; decide⟩, by simp⟩
    split
    · obtain ⟨hmantissa, hpoint⟩ := isMantissa_plainText (decimal_ne_nil _) hdigits
        (shortest x.magnitude).exponent
      exact ⟨.plain hmantissa, .inl hpoint⟩
    · obtain ⟨hunsigned, hmark⟩ := isUnsigned_scientificText Json.numberLayout rfl rfl
        (decimal_ne_nil _) hdigits (shortest x.magnitude).exponent
      exact ⟨hunsigned, .inr hmark⟩
  rw [hrender]
  split
  · exact ⟨⟨body, hunsigned, .inr rfl⟩, hmarked.imp (List.mem_cons_of_mem _)
      (List.mem_cons_of_mem _)⟩
  · exact ⟨⟨body, hunsigned, .inl rfl⟩, hmarked⟩

end Binary64

/-- An integer is written as a numeral. -/
theorem Text.isNumeral_integerText (z : Int) : IsNumeral (integerText z).toList := by
  unfold integerText
  split
  · exact ⟨_, isUnsigned_decimal _, .inr String.toList_ofList⟩
  · exact ⟨_, isUnsigned_decimal _, .inl String.toList_ofList⟩

/-- The text of a number is a numeral. -/
theorem Json.Number.isNumeral_text (n : Json.Number) : IsNumeral n.text.toList := by
  cases n with
  | integer z => exact isNumeral_integerText z
  | float x =>
    rw [Number.text, String.toList_ofList]
    exact (Binary64.isNumeral_render x).1

end Beneficiary
