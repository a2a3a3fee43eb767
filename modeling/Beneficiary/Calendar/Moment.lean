import Beneficiary.Calendar.Reading

/-!
# Moments

A moment is a date and a time of day at the zero offset. It is written as a timestamp that ends
in `Z`, with three, six or nine digits of a second only where they are needed, and read from a
timestamp with any offset in which white space may stand between the parts.
-/

namespace Beneficiary

open Text

/-- A moment, by its date and time at the zero offset. -/
structure Moment where
  date : Date
  time : ClockTime
deriving DecidableEq, Repr

namespace Moment

/-- The fraction of a second as written: none, or as many groups of three digits as are
needed. -/
def fractionText (nanosecond : Nat) : List Char :=
  if nanosecond = 0 then []
  else if nanosecond % 1000000 = 0 then
    '.' :: zeroPadded 3 (decimal (nanosecond / 1000000))
  else if nanosecond % 1000 = 0 then '.' :: zeroPadded 6 (decimal (nanosecond / 1000))
  else '.' :: zeroPadded 9 (decimal nanosecond)

/-- The moment as a timestamp. -/
def text (moment : Moment) : String :=
  let leap := 1000000000 ≤ moment.time.nanosecond
  let nanosecond := if leap then moment.time.nanosecond - 1000000000 else moment.time.nanosecond
  let second := moment.time.second % 60 + (if leap then 1 else 0)
  let two := fun n => zeroPadded 2 (decimal n)
  String.ofList <|
    moment.date.toChars ++ 'T' :: two (moment.time.second / 3600)
      ++ ':' :: two (moment.time.second / 60 % 60) ++ ':' :: two second
      ++ fractionText nanosecond ++ ['Z']

/-- The offset of the loose form: `UTC` in any case, or an offset whose parts are separated by
any colons and white space. -/
def looseOffset : Reader Int := fun cs =>
  match cs with
  | u :: t :: c :: rest =>
    if u.toLower = 'u' ∧ t.toLower = 't' ∧ c.toLower = 'c' then some (0, rest)
    else Reader.offset (fun cs => some (cs.dropWhile fun c => c = ':' || isBlank c)) cs
  | _ => Reader.offset (fun cs => some (cs.dropWhile fun c => c = ':' || isBlank c)) cs

/-- The moment of a whole text in the loose form. -/
def ofLoose? (cs : List Char) : Option Moment := do
  let ((y, m, d), cs) ← Reader.yearMonthDay true cs
  let (_, cs) ← Reader.timeMark cs
  let (hour, cs) ← Reader.twoDigits cs
  let (_, cs) ← Reader.separator true ':' cs
  let (minute, cs) ← Reader.twoDigits cs
  let (_, cs) ← Reader.separator true ':' cs
  let (second, cs) ← Reader.twoDigits cs
  let (nanosecond, cs) ← Reader.fraction cs
  let (offset, rest) ← looseOffset (trimStart cs)
  let date ← Date.of? y m d
  let time ← ClockTime.of? hour minute second nanosecond
  if (trimStart rest).isEmpty && isOffset offset then
    (shiftToZero date time offset).map fun (date, time) => { date, time }
  else none

end Moment

end Beneficiary
