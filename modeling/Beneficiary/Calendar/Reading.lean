import Beneficiary.Calendar.Date
import Beneficiary.Text.Blank

/-!
# Reading dates

Three texts denote a date. The plain form is year, month and day with hyphens, white space
allowed before each number; the spaced form also allows it before each hyphen and at the end. A
timestamp is a four-digit date, a time of day and an offset, and its date is the one written.
A year has at most four digits, or any number of them after a sign.
-/

namespace Beneficiary

open Text

/-- Reads a part of a text: the value and the rest, if the text starts as required. -/
abbrev Reader (α : Type) := List Char → Option (α × List Char)

namespace Reader

/-- Between one and `most` digits. -/
def number (most : Option Nat) : Reader Nat := fun cs =>
  let (digits, rest) := takeDigits most cs
  if digits.isEmpty then none else some (digitsValue digits, rest)

/-- Exactly `count` digits. -/
def fixedNumber (count : Nat) : Reader Nat := fun cs =>
  let (digits, rest) := takeDigits (some count) cs
  if digits.length = count then some (digitsValue digits, rest) else none

/-- One given character. -/
def char (c : Char) : Reader Unit
  | [] => none
  | d :: rest => if d = c then some ((), rest) else none

/-- A year after white space: at most four digits, or any number of digits after a sign. -/
def year : Reader Int := fun cs =>
  match trimStart cs with
  | '-' :: rest => (number none rest).map fun (n, after) => (-(n : Int), after)
  | '+' :: rest => (number none rest).map fun (n, after) => ((n : Int), after)
  | rest => (number (some 4) rest).map fun (n, after) => ((n : Int), after)

/-- A number of at most two digits after white space. -/
def twoDigits : Reader Nat := fun cs => number (some 2) (trimStart cs)

/-- A separator, after white space where the form is spaced. -/
def separator (spaced : Bool) (c : Char) : Reader Unit := fun cs =>
  char c (if spaced then trimStart cs else cs)

/-- Year, month and day with hyphens. -/
def yearMonthDay (spaced : Bool) : Reader (Int × Nat × Nat) := fun cs => do
  let (y, cs) ← year cs
  let (_, cs) ← separator spaced '-' cs
  let (m, cs) ← twoDigits cs
  let (_, cs) ← separator spaced '-' cs
  let (d, cs) ← twoDigits cs
  some ((y, m, d), cs)

end Reader

namespace Date

/-- The date of a whole text in the plain form. -/
def ofPlain? (cs : List Char) : Option Date := do
  let ((y, m, d), rest) ← Reader.yearMonthDay false cs
  if rest.isEmpty then of? y m d else none

/-- The date of a whole text in the spaced form. -/
def ofSpaced? (cs : List Char) : Option Date := do
  let ((y, m, d), rest) ← Reader.yearMonthDay true cs
  if (trimStart rest).isEmpty then of? y m d else none

end Date

/-- Whether a second of the day and a nanosecond name a time. The nanosecond reaches two thousand
million in the last second of a minute, which a leap second prolongs. -/
def isClockTime (second nanosecond : Nat) : Bool :=
  second < 86400 && nanosecond < 2000000000 && (nanosecond < 1000000000 || second % 60 == 59)

/-- A time of day: the second of the day and the nanosecond. -/
structure ClockTime where
  second : Nat
  nanosecond : Nat
  valid : isClockTime second nanosecond = true
deriving DecidableEq, Repr

namespace ClockTime

/-- The time of a second of the day and a nanosecond, if there is one. -/
def ofSecond? (second nanosecond : Nat) : Option ClockTime :=
  if h : isClockTime second nanosecond = true then some ⟨second, nanosecond, h⟩ else none

/-- The time of an hour, minute, second and nanosecond; a sixtieth second is the leap second
after the fifty-ninth. -/
def of? (hour minute second nanosecond : Nat) : Option ClockTime :=
  if hour < 24 ∧ minute < 60 ∧ nanosecond < 1000000000 then
    if second < 60 then ofSecond? (hour * 3600 + minute * 60 + second) nanosecond
    else if second = 60 then
      ofSecond? (hour * 3600 + minute * 60 + 59) (nanosecond + 1000000000)
    else none
  else none

/-- The time that is `minutes` later on the clock, which starts again after a day. -/
def later (time : ClockTime) (minutes : Int) : ClockTime where
  second := (((time.second : Int) + 60 * minutes) % 86400).toNat
  nanosecond := time.nanosecond
  valid := by
    have valid := time.valid
    simp only [isClockTime, Bool.and_eq_true, Bool.or_eq_true, decide_eq_true_eq,
      beq_iff_eq] at valid ⊢
    omega

end ClockTime

namespace Reader

/-- A fraction of a second in nanoseconds, after its point: digits past the ninth do not
count. -/
def nanoseconds : Reader Nat := fun cs =>
  let (digits, rest) := takeDigits none cs
  if digits.isEmpty then none
  else
    let kept := digits.take 9
    some (digitsValue kept * Nat.pow 10 (9 - kept.length), rest)

/-- The fraction of a second when a point follows, else zero. -/
def fraction : Reader Nat
  | '.' :: rest => nanoseconds rest
  | cs => some (0, cs)

/-- The minutes east of an offset: the letter `Z`, or a sign, two digits of hours, whatever
`betweenParts` accepts, and two digits of minutes. The sign may be the minus sign of
typography. -/
def offset (betweenParts : List Char → Option (List Char)) : Reader Int
  | 'Z' :: rest => some (0, rest)
  | 'z' :: rest => some (0, rest)
  | [] => none
  | sign :: rest =>
    if sign = '+' ∨ sign = '-' ∨ sign = '−' then do
      let (hours, rest) ← fixedNumber 2 rest
      let rest ← betweenParts rest
      let (minutes, rest) ← fixedNumber 2 rest
      if minutes < 60 then
        let total : Int := hours * 60 + minutes
        some (if sign = '+' then total else -total, rest)
      else none
    else none

/-- The offset of the strict form: a colon between hours and minutes. -/
def strictOffset : Reader Int := offset fun cs => (char ':' cs).map fun (_, rest) => rest

/-- The mark between date and time: the letter `T` or a space. -/
def timeMark : Reader Unit
  | 'T' :: rest => some ((), rest)
  | 't' :: rest => some ((), rest)
  | ' ' :: rest => some ((), rest)
  | _ => none

end Reader

/-- Whether an offset in minutes stays within a day. -/
def isOffset (minutes : Int) : Bool := minutes.natAbs < 1440

/-- Moves a local date and time to the zero offset; the date changes by at most one day. -/
def shiftToZero (date : Date) (time : ClockTime) (offset : Int) : Option (Date × ClockTime) :=
  let second := (time.second : Int) - 60 * offset
  let day :=
    if second < 0 then date.previous?
    else if 86400 ≤ second then date.next?
    else some date
  day.map fun d => (d, time.later (-offset))

namespace Date

/-- The date written in a whole timestamp text of the strict form. The timestamp must denote a
moment: its time and offset are checked, then set aside. -/
def ofTimestamp? (cs : List Char) : Option Date := do
  let (y, cs) ← Reader.fixedNumber 4 cs
  let (_, cs) ← Reader.char '-' cs
  let (m, cs) ← Reader.fixedNumber 2 cs
  let (_, cs) ← Reader.char '-' cs
  let (d, cs) ← Reader.fixedNumber 2 cs
  let (_, cs) ← Reader.timeMark cs
  let (hour, cs) ← Reader.fixedNumber 2 cs
  let (_, cs) ← Reader.char ':' cs
  let (minute, cs) ← Reader.fixedNumber 2 cs
  let (_, cs) ← Reader.char ':' cs
  let (second, cs) ← Reader.fixedNumber 2 cs
  let (nanosecond, cs) ← Reader.fraction cs
  let (offset, rest) ← Reader.strictOffset cs
  let date ← of? y m d
  let time ← ClockTime.of? hour minute second nanosecond
  if rest.isEmpty && isOffset offset then
    (shiftToZero date time offset).map fun _ => date
  else none

end Date

end Beneficiary
