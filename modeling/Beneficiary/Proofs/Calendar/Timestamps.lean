import Beneficiary.Proofs.Calendar.Dates
import Beneficiary.Proofs.Calendar.Order

/-!
# Timestamps

A timestamp is written as a date of four digits for the year, a mark, the time of day with any digits
of a fraction, and the offset of the clock it was taken from. Whatever these are, it denotes a moment,
and its date is read as it is written: neither the time nor the offset moves it, also where the moment
is on the day before or after at the zero offset. No timestamp is a plain date.
-/

namespace Beneficiary

open Text

/-- An offset as written: the letter `Z`, or a sign with hours and minutes. -/
inductive WrittenOffset where
  | zero (letter : Char) (isLetter : letter = 'Z' ∨ letter = 'z')
  | away (sign : Char) (hours minutes : Nat) (isSign : sign = '+' ∨ sign = '-' ∨ sign = '−')
    (hours_lt : hours < 24) (minutes_lt : minutes < 60)

/-- The offset as text. -/
def WrittenOffset.toChars : WrittenOffset → List Char
  | zero letter _ => [letter]
  | away sign hours minutes _ _ _ =>
    sign :: (zeroPadded 2 (decimal hours) ++ ':' :: zeroPadded 2 (decimal minutes))

/-- A timestamp by the parts that are written. The sixtieth second is a leap second, and a fraction
without digits is left out. -/
structure Timestamp where
  date : Date
  mark : Char
  hour : Nat
  minute : Nat
  second : Nat
  fraction : List Char
  offset : WrittenOffset
  year_range : 0 ≤ date.year ∧ date.year ≤ 9999
  isMark : mark = 'T' ∨ mark = 't' ∨ mark = ' '
  hour_lt : hour < 24
  minute_lt : minute < 60
  second_le : second ≤ 60
  isDigit_fraction : ∀ c ∈ fraction, isDigit c = true

namespace Timestamp

/-- The fraction of a second as text. -/
def fractionChars (fraction : List Char) : List Char :=
  if fraction.isEmpty then [] else '.' :: fraction

/-- The timestamp as text. -/
def toChars (t : Timestamp) : List Char :=
  t.date.toChars ++ t.mark :: (zeroPadded 2 (decimal t.hour) ++
    ':' :: (zeroPadded 2 (decimal t.minute) ++ ':' :: (zeroPadded 2 (decimal t.second) ++
      (fractionChars t.fraction ++ t.offset.toChars))))

/-- The timestamp as a string. -/
def text (t : Timestamp) : String := String.ofList t.toChars

end Timestamp

namespace Reader

/-- Two digits are read as the number below a hundred that they are written for. -/
theorem fixedNumber_two {n : Nat} {rest : List Char} (hn : n < 100)
    (hrest : endsDigits rest = true) :
    fixedNumber 2 (zeroPadded 2 (decimal n) ++ rest) = some (n, rest) :=
  fixedNumber_zeroPadded hn hrest

/-- The digits of a fraction are read as less than a second. -/
theorem exists_nanoseconds {digits rest : List Char} (hne : digits ≠ [])
    (hdigits : ∀ c ∈ digits, isDigit c = true) (hrest : endsDigits rest = true) :
    ∃ n, n < 1000000000 ∧ nanoseconds (digits ++ rest) = some (n, rest) := by
  have hlimit : ∀ most ∈ (none : Option Nat), digits.length ≤ most := by simp
  refine ⟨digitsValue (digits.take 9) * 10 ^ (9 - (digits.take 9).length), ?_, ?_⟩
  · have hlength : (digits.take 9).length ≤ 9 := List.length_take_le 9 digits
    calc
      _ < 10 ^ (digits.take 9).length * 10 ^ (9 - (digits.take 9).length) :=
        Nat.mul_lt_mul_of_pos_right (digitsValue_lt _) (Nat.pow_pos (by decide))
      _ = 1000000000 := by rw [← pow_add, Nat.add_sub_cancel' hlength]; rfl
  · simp only [nanoseconds, takeDigits_of_digits hdigits hrest hlimit, List.isEmpty_iff, hne,
      if_false]
    rfl

/-- An offset with a sign is read by its hours and minutes. -/
theorem offset_signed {between : List Char → Option (List Char)} {sign : Char} {hours minutes : Nat}
    {cs afterHours middle rest : List Char} (hsign : sign = '+' ∨ sign = '-' ∨ sign = '−')
    (hhours : fixedNumber 2 cs = some (hours, afterHours)) (hbetween : between afterHours = some middle)
    (hminutes : fixedNumber 2 middle = some (minutes, rest)) (hlt : minutes < 60) :
    offset between (sign :: cs) =
      some (if sign = '+' then (hours * 60 + minutes : Int) else -(hours * 60 + minutes : Int),
        rest) := by
  have hparts : offset between (sign :: cs) =
      (fixedNumber 2 cs).bind fun readHours => (between readHours.2).bind fun middle =>
        (fixedNumber 2 middle).bind fun readMinutes =>
          if readMinutes.1 < 60 then
            some (if sign = '+' then (readHours.1 * 60 + readMinutes.1 : Int)
              else -(readHours.1 * 60 + readMinutes.1 : Int), readMinutes.2)
          else none := by
    rcases hsign with rfl | rfl | rfl <;> rfl
  simp only [hparts, hhours, hbetween, hminutes, Option.bind_some, if_pos hlt]

end Reader

namespace WrittenOffset

variable (offset : WrittenOffset)

/-- An offset does not go on with a digit or with a fraction. -/
theorem toChars_head : endsDigits offset.toChars = true ∧ offset.toChars.head? ≠ some '.' := by
  cases offset with
  | zero letter isLetter => rcases isLetter with rfl | rfl <;> exact ⟨rfl, by simp [toChars]⟩
  | away sign hours minutes isSign =>
    rcases isSign with rfl | rfl | rfl <;> exact ⟨rfl, by simp [toChars]⟩

/-- An offset is read to its end, as less than a day. -/
theorem exists_strictOffset :
    ∃ minutes, isOffset minutes = true ∧ Reader.strictOffset offset.toChars = some (minutes, []) := by
  cases offset with
  | zero letter isLetter => rcases isLetter with rfl | rfl <;> exact ⟨0, rfl, rfl⟩
  | away sign hours minutes isSign hours_lt minutes_lt =>
    have hhours := Reader.fixedNumber_two (Nat.lt_trans hours_lt (by decide))
      (rfl : endsDigits (':' :: zeroPadded 2 (decimal minutes)) = true)
    have hminutes := Reader.fixedNumber_two (Nat.lt_trans minutes_lt (by decide))
      (rfl : endsDigits [] = true)
    rw [List.append_nil] at hminutes
    refine ⟨_, ?_, Reader.offset_signed isSign hhours ?_ hminutes minutes_lt⟩
    · rw [isOffset, decide_eq_true_eq]
      split <;> omega
    · rw [Reader.char_cons, Option.map_some]

end WrittenOffset

/-- A time within the bounds of a clock is a time of day; the sixtieth second is a leap second. -/
theorem ClockTime.exists_of? {hour minute second nanosecond : Nat} (hhour : hour < 24)
    (hminute : minute < 60) (hsecond : second ≤ 60) (hnanosecond : nanosecond < 1000000000) :
    ∃ time, of? hour minute second nanosecond = some time := by
  have hvalid {s n : Nat} (h : isClockTime s n = true) : ∃ time, ofSecond? s n = some time :=
    ⟨⟨s, n, h⟩, dif_pos h⟩
  unfold of?
  rw [if_pos ⟨hhour, hminute, hnanosecond⟩]
  by_cases hleap : second = 60
  · rw [if_neg (by omega), if_pos hleap]
    apply hvalid
    simp only [isClockTime, Bool.and_eq_true, Bool.or_eq_true, decide_eq_true_eq, beq_iff_eq]
    omega
  · rw [if_pos (by omega)]
    apply hvalid
    simp only [isClockTime, Bool.and_eq_true, Bool.or_eq_true, decide_eq_true_eq, beq_iff_eq]
    omega

/-- A date that is neither in the first nor in the last supported year has a day on either side, so
every time on it denotes a moment. -/
theorem exists_shiftToZero {date : Date} (hfirst : firstYear < date.year)
    (hlast : date.year < lastYear) (time : ClockTime) (offset : Int) :
    ∃ moment, shiftToZero date time offset = some moment := by
  obtain ⟨before, hbefore⟩ := Date.exists_previous? (.inl hfirst)
  obtain ⟨after, hafter⟩ := Date.exists_next? (.inl hlast)
  simp only [shiftToZero, hbefore, hafter]
  split
  · exact ⟨_, rfl⟩
  split
  · exact ⟨_, rfl⟩
  · exact ⟨_, rfl⟩

namespace Timestamp

variable (t : Timestamp)

/-- A mark stands between the date and the time. -/
theorem mark_cons (rest : List Char) :
    Reader.timeMark (t.mark :: rest) = some ((), rest) ∧ endsDigits (t.mark :: rest) = true := by
  rcases t.isMark with h | h | h <;> rw [h] <;> exact ⟨rfl, rfl⟩

/-- What follows the seconds does not go on with a digit. -/
theorem endsDigits_fraction_offset :
    endsDigits (fractionChars t.fraction ++ t.offset.toChars) = true := by
  unfold fractionChars
  split
  · exact t.offset.toChars_head.1
  · rfl

/-- The fraction is read up to the offset, as less than a second. -/
theorem exists_fraction :
    ∃ n, n < 1000000000 ∧
      Reader.fraction (fractionChars t.fraction ++ t.offset.toChars) =
        some (n, t.offset.toChars) := by
  obtain ⟨hends, hpoint⟩ := t.offset.toChars_head
  unfold fractionChars
  split
  · refine ⟨0, by decide, ?_⟩
    rw [List.nil_append]
    unfold Reader.fraction
    split
    · next heq => rw [heq] at hpoint; exact absurd rfl hpoint
    · rfl
  · next hne =>
    rw [List.isEmpty_iff] at hne
    exact Reader.exists_nanoseconds hne t.isDigit_fraction hends

/-- The date of a timestamp is read as it is written. -/
theorem ofTimestamp?_toChars : Date.ofTimestamp? t.toChars = some t.date := by
  obtain ⟨hmonth, hday⟩ := t.date.month_day_lt
  obtain ⟨hyear, hyear'⟩ := t.year_range
  have hhour : t.hour < 100 := Nat.lt_trans t.hour_lt (by decide)
  have hminute : t.minute < 100 := Nat.lt_trans t.minute_lt (by decide)
  have hsecond : t.second < 100 := Nat.lt_of_le_of_lt t.second_le (by decide)
  obtain ⟨nanosecond, hnanosecond, hfraction⟩ := t.exists_fraction
  obtain ⟨minutes, hoffset, hstrict⟩ := t.offset.exists_strictOffset
  obtain ⟨time, htime⟩ :=
    ClockTime.exists_of? t.hour_lt t.minute_lt t.second_le hnanosecond
  obtain ⟨moment, hmoment⟩ := exists_shiftToZero (Int.lt_of_lt_of_le (by decide) hyear)
    (Int.lt_of_le_of_lt hyear' (by decide)) time minutes
  have hyearText : Date.yearText t.date.year = zeroPadded 4 (decimal t.date.year.natAbs) := by
    rw [Date.yearText, if_neg (by omega), if_neg (by omega)]
  have hvalid : Date.of? (t.date.year.natAbs : Int) t.date.month t.date.day = some t.date := by
    rw [Int.natAbs_of_nonneg hyear]
    exact dif_pos t.date.valid
  have hyearRead (cs : List Char) :
      Reader.fixedNumber 4 (zeroPadded 4 (decimal t.date.year.natAbs) ++ '-' :: cs) =
        some (t.date.year.natAbs, '-' :: cs) :=
    Reader.fixedNumber_zeroPadded (by omega) rfl
  rw [toChars, Date.toChars, hyearText]
  simp only [List.append_assoc, List.cons_append]
  -- The parts are read in the order in which they are written, then put together.
  refine Option.bind_eq_some_iff.mpr ⟨_, hyearRead _, ?_⟩
  refine Option.bind_eq_some_iff.mpr ⟨_, Reader.char_cons _ _, ?_⟩
  refine Option.bind_eq_some_iff.mpr ⟨_, Reader.fixedNumber_two hmonth rfl, ?_⟩
  refine Option.bind_eq_some_iff.mpr ⟨_, Reader.char_cons _ _, ?_⟩
  refine Option.bind_eq_some_iff.mpr ⟨_, Reader.fixedNumber_two hday (t.mark_cons _).2, ?_⟩
  refine Option.bind_eq_some_iff.mpr ⟨_, (t.mark_cons _).1, ?_⟩
  refine Option.bind_eq_some_iff.mpr ⟨_, Reader.fixedNumber_two hhour rfl, ?_⟩
  refine Option.bind_eq_some_iff.mpr ⟨_, Reader.char_cons _ _, ?_⟩
  refine Option.bind_eq_some_iff.mpr ⟨_, Reader.fixedNumber_two hminute rfl, ?_⟩
  refine Option.bind_eq_some_iff.mpr ⟨_, Reader.char_cons _ _, ?_⟩
  refine Option.bind_eq_some_iff.mpr
    ⟨_, Reader.fixedNumber_two hsecond t.endsDigits_fraction_offset, ?_⟩
  refine Option.bind_eq_some_iff.mpr ⟨_, hfraction, ?_⟩
  refine Option.bind_eq_some_iff.mpr ⟨_, hstrict, ?_⟩
  refine Option.bind_eq_some_iff.mpr ⟨_, hvalid, ?_⟩
  refine Option.bind_eq_some_iff.mpr ⟨_, htime, ?_⟩
  simp only [hoffset, hmoment]
  rfl

/-- A timestamp is no plain date: more stands after its day. -/
theorem ofPlain?_toChars : Date.ofPlain? t.toChars = none := by
  rw [Date.ofPlain?, toChars, t.date.yearMonthDay_toChars false (t.mark_cons _).2]
  rfl

end Timestamp

end Beneficiary
