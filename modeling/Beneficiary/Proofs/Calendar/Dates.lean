import Mathlib
import Beneficiary.Calendar.Reading
import Beneficiary.Proofs.Calendar.Order
import Beneficiary.Proofs.Text.Blank
import Beneficiary.Proofs.Text.Digits

/-!
# Dates read back

Every supported date is read back from its own text: the year up to the first hyphen, with its sign
where it has one, then two digits for the month and two for the day.
-/

namespace Beneficiary

open Text

namespace Reader

variable {most : Option Nat} {width n : Nat} {rest : List Char}

/-- A filled numeral is read as its number. -/
theorem number_zeroPadded (hrest : endsDigits rest = true)
    (hlimit : ∀ limit ∈ most, width < limit ∧ n < 10 ^ (width + 1)) :
    number most (zeroPadded (width + 1) (decimal n) ++ rest) = some (n, rest) := by
  have hdigits : ∀ c ∈ zeroPadded (width + 1) (decimal n), isDigit c = true := fun c hc =>
    isDigit_of_mem_zeroPadded hc
  have hlength : ∀ limit ∈ most, (zeroPadded (width + 1) (decimal n)).length ≤ limit := by
    intro limit hmost
    rw [length_zeroPadded (hlimit limit hmost).2]
    exact (hlimit limit hmost).1
  have hne : (zeroPadded (width + 1) (decimal n)).isEmpty = false := by
    rw [zeroPadded]
    simp [decimal_ne_nil]
  simp only [number, takeDigits_of_digits hdigits hrest hlength, hne, digitsValue_zeroPadded]
  rfl

/-- A numeral filled to a width is read where that width is asked for. -/
theorem fixedNumber_zeroPadded (hn : n < 10 ^ (width + 1)) (hrest : endsDigits rest = true) :
    fixedNumber (width + 1) (zeroPadded (width + 1) (decimal n) ++ rest) = some (n, rest) := by
  have hdigits : ∀ c ∈ zeroPadded (width + 1) (decimal n), isDigit c = true := fun c hc =>
    isDigit_of_mem_zeroPadded hc
  have hlength := length_zeroPadded hn
  have hlimit : ∀ most ∈ some (width + 1), (zeroPadded (width + 1) (decimal n)).length ≤ most := by
    rintro most ⟨⟩
    exact hlength.le
  simp only [fixedNumber, takeDigits_of_digits hdigits hrest hlimit, hlength, if_true,
    digitsValue_zeroPadded]

private theorem zeroPadded_head (width n : Nat) :
    ∃ c ds, zeroPadded width (decimal n) = c :: ds ∧ isDigit c = true := by
  cases h : zeroPadded width (decimal n) with
  | nil => simp [zeroPadded, decimal_ne_nil] at h
  | cons c ds => exact ⟨c, ds, rfl, isDigit_of_mem_zeroPadded (h ▸ List.mem_cons_self)⟩

/-- A number of two digits is read as it is written. -/
theorem twoDigits_zeroPadded (h : n < 100) (hrest : endsDigits rest = true) :
    twoDigits (zeroPadded 2 (decimal n) ++ rest) = some (n, rest) := by
  obtain ⟨c, ds, htext, hdigit⟩ := zeroPadded_head 2 n
  have hnumber : number (some 2) (zeroPadded 2 (decimal n) ++ rest) = some (n, rest) :=
    number_zeroPadded hrest (by simpa using h)
  rw [htext, List.cons_append] at hnumber ⊢
  rw [twoDigits, trimStart_cons (isBlank_of_isDigit hdigit), hnumber]

/-- A year is read as it is written. -/
theorem year_yearText (y : Int) (hrest : endsDigits rest = true) :
    year (Date.yearText y ++ rest) = some (y, rest) := by
  unfold Date.yearText
  by_cases hneg : y < 0
  · have hy : -(y.natAbs : Int) = y := by omega
    have hnumber : number none (zeroPadded 4 (decimal y.natAbs) ++ rest) = some (y.natAbs, rest) :=
      number_zeroPadded hrest (by simp)
    rw [if_pos hneg, List.cons_append, year, trimStart_cons rfl]
    simp only [hnumber, Option.map_some, hy]
  have hy : (y.natAbs : Int) = y := by omega
  rw [if_neg hneg]
  by_cases hlarge : 9999 < y
  · have hnumber : number none (zeroPadded 4 (decimal y.natAbs) ++ rest) = some (y.natAbs, rest) :=
      number_zeroPadded hrest (by simp)
    rw [if_pos hlarge, List.cons_append, year, trimStart_cons rfl]
    simp only [hnumber, Option.map_some, hy]
  · have hnumber : number (some 4) (zeroPadded 4 (decimal y.natAbs) ++ rest) =
        some (y.natAbs, rest) := by
      refine number_zeroPadded hrest fun limit hlimit => ?_
      obtain rfl := Option.mem_some.mp hlimit
      omega
    obtain ⟨c, ds, htext, hdigit⟩ := zeroPadded_head 4 y.natAbs
    rw [if_neg hlarge, year]
    rw [htext, List.cons_append] at hnumber ⊢
    rw [trimStart_cons (isBlank_of_isDigit hdigit)]
    split
    · next heq => cases (List.cons.inj heq).1; cases hdigit
    · next heq => cases (List.cons.inj heq).1; cases hdigit
    · simp only [hnumber, Option.map_some, hy]

/-- A character is read where it stands. -/
theorem char_cons (c : Char) (rest : List Char) : char c (c :: rest) = some ((), rest) :=
  if_pos rfl

/-- A separator is read where it stands. -/
theorem separator_cons (spaced : Bool) {c : Char} (h : isBlank c = false) (cs : List Char) :
    separator spaced c (c :: cs) = some ((), cs) := by
  rw [separator, trimStart_cons h, ite_self, char_cons]

end Reader

namespace Date

/-- A month and a day have at most two digits. -/
theorem month_day_lt (d : Date) : d.month < 100 ∧ d.day < 100 := by
  obtain ⟨-, ⟨-, hmonth⟩, -, -, hday⟩ := d.bounds
  omega

/-- Year, month and day are read off the start of a text, in the plain and in the spaced form. -/
theorem yearMonthDay_toChars (spaced : Bool) (d : Date) {rest : List Char}
    (hrest : endsDigits rest = true) :
    Reader.yearMonthDay spaced (d.toChars ++ rest) = some ((d.year, d.month, d.day), rest) := by
  obtain ⟨hmonth, hday⟩ := d.month_day_lt
  have hhyphen (cs : List Char) : endsDigits ('-' :: cs) = true := rfl
  have hseparator := Reader.separator_cons spaced (rfl : isBlank '-' = false)
  simp only [toChars, List.append_assoc, List.cons_append]
  simp only [Reader.yearMonthDay, Option.bind_eq_bind, Reader.year_yearText d.year (hhyphen _),
    Option.bind_some, hseparator,
    Reader.twoDigits_zeroPadded hmonth (hhyphen _), Reader.twoDigits_zeroPadded hday hrest]

/-- A date is read back from its text. -/
theorem ofPlain?_toChars (d : Date) : ofPlain? d.toChars = some d := by
  have hread := d.yearMonthDay_toChars false (rfl : endsDigits [] = true)
  rw [List.append_nil] at hread
  rw [ofPlain?, hread]
  exact dif_pos d.valid

/-- A date is read back from its text where white space may stand between the parts. -/
theorem ofSpaced?_toChars (d : Date) : ofSpaced? d.toChars = some d := by
  have hread := d.yearMonthDay_toChars true (rfl : endsDigits [] = true)
  rw [List.append_nil] at hread
  rw [ofSpaced?, hread]
  exact dif_pos d.valid

end Date

end Beneficiary
