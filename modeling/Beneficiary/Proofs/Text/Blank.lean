import Mathlib
import Beneficiary.Text.Blank
import Beneficiary.Text.Numeral

/-!
# White space and letter case

Trimming leaves a text whole when no white space stands in it, and lower case leaves it whole when
no capital letter does. Neither stands in a run of digits.
-/

namespace Beneficiary.Text

private theorem toNat_of_isDigit {c : Char} (h : isDigit c = true) :
    48 ≤ c.toNat ∧ c.toNat ≤ 57 := by
  unfold isDigit digitValue? at h
  split at h
  · next hc => exact hc
  · cases h

/-- No digit is white space. -/
theorem isBlank_of_isDigit {c : Char} (h : isDigit c = true) : isBlank c = false := by
  have hrange := toNat_of_isDigit h
  simp only [isBlank, blankRanges, List.any_cons, List.any_nil, Bool.or_eq_false_iff,
    Bool.and_eq_false_iff, decide_eq_false_iff_not, not_le, and_true]
  omega

/-- A text that does not start with white space is left as it is at its start. -/
theorem trimStart_cons {c : Char} (h : isBlank c = false) (cs : List Char) :
    trimStart (c :: cs) = c :: cs := by
  rw [trimStart, List.dropWhile_cons, h]
  rfl

private theorem dropWhile_blanks_append {blanks rest : List Char}
    (hblanks : ∀ c ∈ blanks, isBlank c = true) (hrest : ∀ c ∈ rest.head?, isBlank c = false) :
    (blanks ++ rest).dropWhile isBlank = rest := by
  rw [List.dropWhile_append_of_pos hblanks]
  cases rest with
  | nil => rfl
  | cons c others => exact trimStart_cons (hrest c rfl) others

/-- White space around a text is trimmed away, and no more than that, when the text neither starts
nor ends with white space. -/
theorem trim_surrounded (before cs after : List Char) (hbefore : ∀ c ∈ before, isBlank c = true)
    (hafter : ∀ c ∈ after, isBlank c = true) (hfirst : ∀ c ∈ cs.head?, isBlank c = false)
    (hlast : ∀ c ∈ cs.getLast?, isBlank c = false) : trim (before ++ cs ++ after) = cs := by
  rcases eq_or_ne cs [] with rfl | hne
  · have hblanks : ∀ c ∈ before ++ after, isBlank c = true :=
      List.forall_mem_append.mpr ⟨hbefore, hafter⟩
    rw [List.append_nil, trim, trimStart, List.dropWhile_eq_nil_iff.mpr hblanks]
    rfl
  · have hstart : trimStart (before ++ (cs ++ after)) = cs ++ after :=
      dropWhile_blanks_append hbefore (by rwa [List.head?_append_of_ne_nil _ hne])
    have hend : (after.reverse ++ cs.reverse).dropWhile isBlank = cs.reverse :=
      dropWhile_blanks_append (by simpa using hafter) (by rwa [List.head?_reverse])
    rw [trim, List.append_assoc, hstart, trimEnd, List.reverse_append, hend, List.reverse_reverse]

/-- A text without white space is left whole by trimming. -/
theorem trim_of_free {cs : List Char} (h : ∀ c ∈ cs, isBlank c = false) : trim cs = cs := by
  have hkept := trim_surrounded [] cs [] (by simp) (by simp)
    (fun c hc => h c (List.mem_of_mem_head? hc)) fun c hc => h c (List.mem_of_mem_getLast? hc)
  rwa [List.nil_append, List.append_nil] at hkept

/-- A string without white space is left whole by trimming. -/
theorem trimmed_of_free {s : String} (h : ∀ c ∈ s.toList, isBlank c = false) : trimmed s = s := by
  rw [trimmed, trim_of_free h, String.ofList_toList]

/-- A digit is its own lower case. -/
theorem toLower_of_isDigit {c : Char} (h : isDigit c = true) : c.toLower = c := by
  have hsmall : ¬ (65 ≤ c.toNat ∧ c.toNat ≤ 90) := by
    have := toNat_of_isDigit h
    omega
  exact dif_neg hsmall

/-- A string without capital letters is its own lower case. -/
theorem lowerAscii_of_free {s : String} (h : ∀ c ∈ s.toList, c.toLower = c) : lowerAscii s = s := by
  rw [lowerAscii, List.map_congr_left h, List.map_id', String.ofList_toList]

end Beneficiary.Text
