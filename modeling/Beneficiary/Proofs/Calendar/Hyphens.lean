import Mathlib
import Beneficiary.Calendar.Reading

/-!
# Texts that are no dates

A date is written with a hyphen right after the last digit of its year, in the plain form and in a
timestamp. So a text in which no digit has a hyphen after it denotes no date.
-/

namespace Beneficiary

open Text

/-- No digit has a hyphen after it. -/
def Text.NoHyphenAfterDigit (cs : List Char) : Prop :=
  cs.IsChain fun c next => isDigit c = true → next ≠ '-'

namespace Text.NoHyphenAfterDigit

variable {cs others : List Char} {c : Char}

/-- Where no hyphen stands, none stands after a digit. -/
theorem of_free (h : '-' ∉ cs) : NoHyphenAfterDigit cs := by
  refine List.isChain_iff_forall_rel_of_append_cons_cons.mpr ?_
  rintro c next before after rfl - rfl
  exact h (by simp)

/-- What is no digit may stand before anything. -/
theorem cons (h : NoHyphenAfterDigit cs) (hc : isDigit c = false) :
    NoHyphenAfterDigit (c :: cs) := by
  refine List.isChain_cons.mpr ⟨fun _ _ hdigit => ?_, h⟩
  rw [hc] at hdigit
  cases hdigit

/-- A text may go on with one that does not start with a hyphen. -/
theorem append (h : NoHyphenAfterDigit cs) (hothers : NoHyphenAfterDigit others)
    (hhead : others.head? ≠ some '-') : NoHyphenAfterDigit (cs ++ others) := by
  refine List.isChain_append.mpr ⟨h, hothers, fun _ _ next hnext _ => ?_⟩
  rintro rfl
  exact hhead hnext

/-- A digit with a hyphen after it is nowhere in the text. -/
theorem not_digit {before after : List Char}
    (h : NoHyphenAfterDigit (before ++ c :: '-' :: after)) : isDigit c = false := by
  by_contra hc
  exact List.isChain_iff_forall_rel_of_append_cons_cons.mp h rfl (by simpa using hc) rfl

end Text.NoHyphenAfterDigit

namespace Reader

variable {cs rest : List Char} {n : Nat} {y : Int}

private theorem exists_last_digit {limit : Option Nat} (h : (takeDigits limit cs).1 ≠ []) :
    ∃ before c, cs = before ++ c :: (takeDigits limit cs).2 ∧ isDigit c = true := by
  have hdigits : (takeDigits limit cs).1 <+: cs.takeWhile isDigit := by
    unfold takeDigits
    cases limit with
    | none => exact List.prefix_rfl
    | some most => exact List.take_prefix most _
  have hsplit : (takeDigits limit cs).1 ++ (takeDigits limit cs).2 = cs := by
    obtain ⟨after, hafter⟩ := hdigits.trans (List.takeWhile_prefix isDigit)
    have hrest : (takeDigits limit cs).2 = cs.drop (takeDigits limit cs).1.length := rfl
    rw [hrest]
    nth_rewrite 3 [← hafter]
    rw [List.drop_left, hafter]
  refine ⟨(takeDigits limit cs).1.dropLast, (takeDigits limit cs).1.getLast h, ?_,
    List.mem_takeWhile_imp (hdigits.subset (List.getLast_mem h))⟩
  rw [← List.singleton_append, ← List.append_assoc, List.dropLast_append_getLast, hsplit]

/-- A number is read up to a digit. -/
theorem exists_digit_of_number {most : Option Nat} (h : number most cs = some (n, rest)) :
    ∃ before c, cs = before ++ c :: rest ∧ isDigit c = true := by
  unfold number at h
  dsimp only at h
  split at h
  · cases h
  · next hne =>
    obtain ⟨-, rfl⟩ := Prod.mk.inj (Option.some.inj h)
    exact exists_last_digit (by simpa using hne)

/-- A number of a fixed width is read up to a digit. -/
theorem exists_digit_of_fixedNumber {count : Nat} (hcount : count ≠ 0)
    (h : fixedNumber count cs = some (n, rest)) :
    ∃ before c, cs = before ++ c :: rest ∧ isDigit c = true := by
  unfold fixedNumber at h
  dsimp only at h
  split at h
  · next hlength =>
    obtain ⟨-, rfl⟩ := Prod.mk.inj (Option.some.inj h)
    refine exists_last_digit fun hnil => hcount ?_
    rw [← hlength, hnil, List.length_nil]
  · cases h

/-- A year is read up to a digit. -/
theorem exists_digit_of_year (h : year cs = some (y, rest)) :
    ∃ before c, cs = before ++ c :: rest ∧ isDigit c = true := by
  -- White space and a sign may come before the digits.
  have hdigits (sign : List Char) {unsigned : List Char} {most : Option Nat}
      {found : Nat × List Char} (htext : trimStart cs = sign ++ unsigned)
      (hnumber : number most unsigned = some found) (hrest : found.2 = rest) :
      ∃ before c, cs = before ++ c :: rest ∧ isDigit c = true := by
    have hblanks : cs.takeWhile isBlank ++ trimStart cs = cs := List.takeWhile_append_dropWhile
    obtain ⟨before, c, rfl, hc⟩ := exists_digit_of_number hnumber
    refine ⟨cs.takeWhile isBlank ++ sign ++ before, c, ?_, hc⟩
    rw [← hrest, List.append_assoc, List.append_assoc, ← htext, hblanks]
  unfold year at h
  split at h
  · next htext =>
    obtain ⟨found, hnumber, hfound⟩ := Option.map_eq_some_iff.mp h
    exact hdigits ['-'] htext hnumber (Prod.mk.inj hfound).2
  · next htext =>
    obtain ⟨found, hnumber, hfound⟩ := Option.map_eq_some_iff.mp h
    exact hdigits ['+'] htext hnumber (Prod.mk.inj hfound).2
  · obtain ⟨found, hnumber, hfound⟩ := Option.map_eq_some_iff.mp h
    exact hdigits [] rfl hnumber (Prod.mk.inj hfound).2

/-- A character is read where the text starts with it. -/
theorem eq_cons_of_char {c : Char} {found : Unit × List Char} (h : char c cs = some found) :
    cs = c :: found.2 := by
  cases cs with
  | nil => cases h
  | cons d rest =>
    rw [char] at h
    split at h
    · next heq =>
      subst heq
      rw [← Option.some.inj h]
    · cases h

end Reader

namespace Date

variable {cs : List Char}

/-- A text in which no digit has a hyphen after it is no plain date. -/
theorem ofPlain?_eq_none (h : NoHyphenAfterDigit cs) : ofPlain? cs = none := by
  refine Option.eq_none_iff_forall_ne_some.mpr fun date hdate => ?_
  obtain ⟨_, hread, -⟩ := Option.bind_eq_some_iff.mp hdate
  obtain ⟨_, hyear, hread⟩ := Option.bind_eq_some_iff.mp hread
  obtain ⟨_, hseparator, -⟩ := Option.bind_eq_some_iff.mp hread
  obtain ⟨before, c, rfl, hc⟩ := Reader.exists_digit_of_year hyear
  have hhyphen := Reader.eq_cons_of_char hseparator
  rw [if_neg (by decide)] at hhyphen
  rw [hhyphen] at h
  exact absurd hc (by simp [h.not_digit])

/-- A text in which no digit has a hyphen after it is no timestamp. -/
theorem ofTimestamp?_eq_none (h : NoHyphenAfterDigit cs) : ofTimestamp? cs = none := by
  refine Option.eq_none_iff_forall_ne_some.mpr fun date hdate => ?_
  obtain ⟨_, hyear, hread⟩ := Option.bind_eq_some_iff.mp hdate
  obtain ⟨_, hhyphen, -⟩ := Option.bind_eq_some_iff.mp hread
  obtain ⟨before, c, rfl, hc⟩ := Reader.exists_digit_of_fixedNumber (by decide) hyear
  rw [Reader.eq_cons_of_char hhyphen] at h
  exact absurd hc (by simp [h.not_digit])

end Date

end Beneficiary
