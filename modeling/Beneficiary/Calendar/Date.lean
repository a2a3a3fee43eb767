import Beneficiary.Text.Numeral

/-!
# Calendar dates

Dates of the proleptic Gregorian calendar within a fixed range of years, ordered by year, month
and day. An age counts the anniversaries reached; a birthday on 29 February is reached on
1 March of a common year.
-/

namespace Beneficiary

open Text

/-- Whether a year has a 29 February. -/
def isLeapYear (year : Int) : Bool := year % 4 = 0 && (year % 100 ≠ 0 || year % 400 = 0)

/-- The number of days of a month, zero when there is no such month. -/
def daysInMonth (year : Int) (month : Nat) : Nat :=
  match month with
  | 1 => 31
  | 2 => if isLeapYear year then 29 else 28
  | 3 => 31
  | 4 => 30
  | 5 => 31
  | 6 => 30
  | 7 => 31
  | 8 => 31
  | 9 => 30
  | 10 => 31
  | 11 => 30
  | 12 => 31
  | _ => 0

/-- The first supported year. -/
def firstYear : Int := -262143

/-- The last supported year. -/
def lastYear : Int := 262142

/-- Whether year, month and day name a supported date. -/
def isDate (year : Int) (month day : Nat) : Bool :=
  firstYear ≤ year && year ≤ lastYear && 1 ≤ day && day ≤ daysInMonth year month

/-- A calendar date. -/
structure Date where
  year : Int
  month : Nat
  day : Nat
  valid : isDate year month day = true
deriving DecidableEq, Repr

namespace Date

/-- The date of a year, month and day, if there is one. -/
def of? (year : Int) (month day : Nat) : Option Date :=
  if h : isDate year month day = true then some ⟨year, month, day, h⟩ else none

/-- Dates are ordered by year, then month, then day. -/
def compare (a b : Date) : Ordering :=
  (Ord.compare a.year b.year).then ((Ord.compare a.month b.month).then (Ord.compare a.day b.day))

instance : Ord Date := ⟨Date.compare⟩

/-- Whether the first date is earlier. -/
def isBefore (a b : Date) : Bool := a.compare b == .lt

/-- Whether the first date's month and day come earlier in a year. -/
def isEarlierInYear (a b : Date) : Bool :=
  a.month < b.month || (a.month == b.month && a.day < b.day)

/-- The full years of age on a date, absent before birth. -/
def ageOn (birth day : Date) : Option Int :=
  if day.isBefore birth then none
  else if day.isEarlierInYear birth then some (day.year - birth.year - 1)
  else some (day.year - birth.year)

/-- The year as written: four digits, with a sign outside the years 0 to 9999. -/
def yearText (year : Int) : List Char :=
  let digits := zeroPadded 4 (decimal year.natAbs)
  if year < 0 then '-' :: digits else if 9999 < year then '+' :: digits else digits

/-- The date as year, month and day with hyphens. -/
def toChars (d : Date) : List Char :=
  yearText d.year ++ '-' :: zeroPadded 2 (decimal d.month) ++ '-' :: zeroPadded 2 (decimal d.day)

/-- The date's text as a string. -/
def text (d : Date) : String := String.ofList d.toChars

/-- The following day, if it is supported. -/
def next? (d : Date) : Option Date :=
  if d.day < daysInMonth d.year d.month then of? d.year d.month (d.day + 1)
  else if d.month < 12 then of? d.year (d.month + 1) 1
  else of? (d.year + 1) 1 1

/-- The preceding day, if it is supported. -/
def previous? (d : Date) : Option Date :=
  if 1 < d.day then of? d.year d.month (d.day - 1)
  else if 1 < d.month then of? d.year (d.month - 1) (daysInMonth d.year (d.month - 1))
  else of? (d.year - 1) 12 31

end Date

end Beneficiary
