import Mathlib
import Beneficiary.Calendar.Moment
import Beneficiary.Proofs.Calendar.Dates

/-!
# Moments read back

Every moment is read back from its own timestamp: the date, the hour, minute and second, then the
fraction in as many digits as it needs. A leap second is written as the sixtieth second and read as
the fifty-ninth, prolonged.
-/

namespace Beneficiary

open Text

namespace Reader

variable {rest : List Char}

/-- A fraction of up to nine digits is read as its nanoseconds. -/
theorem nanoseconds_zeroPadded {width n : Nat} (hwidth : width < 9) (hn : n < 10 ^ (width + 1))
    (hrest : endsDigits rest = true) :
    nanoseconds (zeroPadded (width + 1) (decimal n) ++ rest) =
      some (n * 10 ^ (9 - (width + 1)), rest) := by
  have hdigits : ∀ c ∈ zeroPadded (width + 1) (decimal n), isDigit c = true := fun c hc =>
    isDigit_of_mem_zeroPadded hc
  have hlength := length_zeroPadded hn
  have hlimit : ∀ limit ∈ (none : Option Nat),
      (zeroPadded (width + 1) (decimal n)).length ≤ limit := by simp
  have hne : (zeroPadded (width + 1) (decimal n)).isEmpty = false := by
    simp [zeroPadded, decimal_ne_nil]
  have hkept : (zeroPadded (width + 1) (decimal n)).take 9 = zeroPadded (width + 1) (decimal n) :=
    List.take_of_length_le (by omega)
  simp only [nanoseconds, takeDigits_of_digits hdigits hrest hlimit, hne, hkept, hlength,
    digitsValue_zeroPadded]
  rfl

private theorem fraction_digits {width m n : Nat} (hwidth : width < 9) (hm : m < 10 ^ (width + 1))
    (hvalue : m * 10 ^ (9 - (width + 1)) = n) :
    fraction ('.' :: zeroPadded (width + 1) (decimal m) ++ ['Z']) = some (n, ['Z']) := by
  rw [List.cons_append, fraction, nanoseconds_zeroPadded hwidth hm rfl, hvalue]

/-- The fraction of a second is read as it is written. -/
theorem fraction_fractionText {n : Nat} (h : n < 1000000000) :
    fraction (Moment.fractionText n ++ ['Z']) = some (n, ['Z']) := by
  unfold Moment.fractionText
  by_cases hzero : n = 0
  · subst hzero
    rfl
  · rw [if_neg hzero]
    by_cases hmilli : n % 1000000 = 0
    · rw [if_pos hmilli]
      exact fraction_digits (by decide) (by omega) (by omega)
    · rw [if_neg hmilli]
      by_cases hmicro : n % 1000 = 0
      · rw [if_pos hmicro]
        exact fraction_digits (by decide) (by omega) (by omega)
      · rw [if_neg hmicro]
        exact fraction_digits (by decide) (by omega) (by omega)

/-- The fraction does not start with a digit. -/
theorem endsDigits_fractionText (n : Nat) :
    endsDigits (Moment.fractionText n ++ ['Z']) = true := by
  unfold Moment.fractionText
  split
  · rfl
  · split
    · rfl
    · split <;> rfl

end Reader

namespace ClockTime

/-- The second of a minute as written: the sixtieth for a leap second. -/
def writtenSecond (time : ClockTime) : Nat :=
  time.second % 60 + if 1000000000 ≤ time.nanosecond then 1 else 0

/-- The nanosecond of a second as written. -/
def writtenNanosecond (time : ClockTime) : Nat :=
  if 1000000000 ≤ time.nanosecond then time.nanosecond - 1000000000 else time.nanosecond

private theorem bounds (time : ClockTime) :
    time.second < 86400 ∧ time.nanosecond < 2000000000 ∧
      (time.nanosecond < 1000000000 ∨ time.second % 60 = 59) := by
  have hvalid := time.valid
  simp only [isClockTime, Bool.and_eq_true, Bool.or_eq_true, decide_eq_true_eq, beq_iff_eq]
    at hvalid
  exact ⟨hvalid.1.1, hvalid.1.2, hvalid.2⟩

private theorem ofSecond?_eq (time : ClockTime) {second nanosecond : Nat}
    (hsecond : second = time.second) (hnanosecond : nanosecond = time.nanosecond) :
    ofSecond? second nanosecond = some time := by
  subst hsecond hnanosecond
  exact dif_pos time.valid

/-- A time of day is made of its hour, minute, second and nanosecond as written. -/
theorem of?_written (time : ClockTime) :
    of? (time.second / 3600) (time.second / 60 % 60) time.writtenSecond time.writtenNanosecond =
      some time := by
  obtain ⟨hsecond, hnanosecond, hleap⟩ := time.bounds
  unfold of? writtenSecond writtenNanosecond
  by_cases h : 1000000000 ≤ time.nanosecond
  · rw [if_pos h, if_pos h, if_pos ⟨by omega, by omega, by omega⟩, if_neg (by omega),
      if_pos (by omega)]
    exact ofSecond?_eq time (by omega) (by omega)
  · rw [if_neg h, if_neg h, if_pos ⟨by omega, by omega, by omega⟩, if_pos (by omega)]
    exact ofSecond?_eq time (by omega) rfl

/-- The written second and nanosecond have two and nine digits at most. -/
theorem written_lt (time : ClockTime) :
    time.writtenSecond < 100 ∧ time.writtenNanosecond < 1000000000 := by
  obtain ⟨-, hnanosecond, -⟩ := time.bounds
  unfold writtenSecond writtenNanosecond
  split <;> omega

/-- A time is the same no minutes later. -/
theorem later_zero (time : ClockTime) : time.later 0 = time := by
  obtain ⟨hsecond, -, -⟩ := time.bounds
  have hsame : (((time.second : Int) + 60 * 0) % 86400).toNat = time.second := by omega
  simp only [later, hsame]

end ClockTime

/-- A date and time at the zero offset stay as they are. -/
theorem shiftToZero_zero (date : Date) (time : ClockTime) :
    shiftToZero date time 0 = some (date, time) := by
  obtain ⟨hsecond, -, -⟩ := time.bounds
  simp only [shiftToZero]
  rw [if_neg (by omega), if_neg (by omega), Int.neg_zero, time.later_zero]
  rfl

namespace Moment

/-- The timestamp of a moment, part after part. -/
theorem toList_text (m : Moment) :
    m.text.toList =
      m.date.toChars ++ 'T' :: (zeroPadded 2 (decimal (m.time.second / 3600)) ++
        ':' :: (zeroPadded 2 (decimal (m.time.second / 60 % 60)) ++
          ':' :: (zeroPadded 2 (decimal m.time.writtenSecond) ++
            (fractionText m.time.writtenNanosecond ++ ['Z'])))) := by
  simp only [text, String.toList_ofList, List.append_assoc, List.cons_append]
  rfl

/-- A moment is read back from its text. -/
theorem ofLoose?_text (m : Moment) : ofLoose? m.text.toList = some m := by
  obtain ⟨hsecond, hnanosecond⟩ := m.time.written_lt
  obtain ⟨hday, -, -⟩ := m.time.bounds
  have hcolon (cs : List Char) : endsDigits (':' :: cs) = true := rfl
  have hdate (cs : List Char) :=
    m.date.yearMonthDay_toChars true (rfl : endsDigits ('T' :: cs) = true)
  have hmark (cs : List Char) : Reader.timeMark ('T' :: cs) = some ((), cs) := rfl
  have hseparator := Reader.separator_cons true (rfl : isBlank ':' = false)
  have hhour : m.time.second / 3600 < 100 := by omega
  have hminute : m.time.second / 60 % 60 < 100 := by omega
  have hoffset : looseOffset (trimStart ['Z']) = some (0, []) := rfl
  have hvalid : Date.of? m.date.year m.date.month m.date.day = some m.date := dif_pos m.date.valid
  simp only [ofLoose?, toList_text, Option.bind_eq_bind, hdate, hmark, Option.bind_some,
    Reader.twoDigits_zeroPadded hhour (hcolon _), hseparator,
    Reader.twoDigits_zeroPadded hminute (hcolon _),
    Reader.twoDigits_zeroPadded hsecond (Reader.endsDigits_fractionText _),
    Reader.fraction_fractionText hnanosecond, hoffset, hvalid, ClockTime.of?_written,
    shiftToZero_zero]
  rfl

end Moment

end Beneficiary
