import Beneficiary.Calendar.Reading
import Beneficiary.Field.Kind
import Beneficiary.Json.Basic

/-!
# Typed values

Rule arguments are texts and stored values are JSON. Both are read as values of a field's declared
type before anything is compared. A stored value that cannot be read as its type is missing.
-/

namespace Beneficiary

open Text

/-- A value of some field type. -/
inductive Value where
  | number (value : Binary64)
  | string (value : String)
  | bool (value : Bool)
  | date (value : Date)
  | list (options : List String)
deriving DecidableEq, Repr

namespace Value

/-- The finite number that a text denotes, white space at its ends aside. -/
def readNumber? (text : String) : Option Binary64 :=
  (Binary64.numeral? (trim text.toList)).filter Binary64.isFinite

/-- The date that a text denotes, white space at its ends aside: a plain date, or the date written
in a timestamp. -/
def readDate? (text : String) : Option Date :=
  let cs := trim text.toList
  (Date.ofPlain? cs).orElse fun _ => Date.ofTimestamp? cs

/-- The truth value that a text denotes, white space at its ends and the case of its letters
aside. -/
def readBool? (text : String) : Option Bool :=
  match lowerAscii (trimmed text) with
  | "true" => some true
  | "yes" => some true
  | "y" => some true
  | "1" => some true
  | "false" => some false
  | "no" => some false
  | "n" => some false
  | "0" => some false
  | _ => none

/-- Whether a character separates the options of a selection kept as one text. -/
def separatesOptions (c : Char) : Bool := c = ',' || isBlank c

/-- The text of a JSON string, number or truth value. -/
def scalarText? : Json → Option String
  | .string s => some s
  | .number n => some n.text
  | .bool b => some (if b then "true" else "false")
  | _ => none

/-- A rule argument read as one value of a type. Arguments of choice types name options and are
kept as they are. -/
def ofArgument? (type : ValueType) (text : String) : Option Value :=
  match type with
  | .number => (readNumber? text).map number
  | .date => (readDate? text).map date
  | .boolean => (readBool? text).map bool
  | .string => some (string text)
  | .enum => some (string text)
  | .list => some (string text)

/-- A stored number, or a text that denotes one. -/
def storedNumber? : Json → Option Value
  | .number n => some (number n.toBinary64)
  | .string s => (readNumber? s).map number
  | _ => none

/-- A stored truth value, a text that denotes one, or one of the integers zero and one. -/
def storedBool? : Json → Option Value
  | .bool b => some (bool b)
  | .string s => (readBool? s).map bool
  | .number (.integer z) =>
    if z = 0 then some (bool false) else if z = 1 then some (bool true) else none
  | _ => none

/-- A stored text that denotes a date. -/
def storedDate? : Json → Option Value
  | .string s => (readDate? s).map date
  | _ => none

/-- A stored selection: the texts of an array's scalars, or the options of one text. -/
def storedList? : Json → Option Value
  | .array items => some (list (items.filterMap scalarText?))
  | .string s => some (list (runsOf separatesOptions s))
  | _ => none

/-- A stored JSON value read as a value of a type. -/
def ofStored? (type : ValueType) (stored : Json) : Option Value :=
  match type with
  | .number => storedNumber? stored
  | .boolean => storedBool? stored
  | .date => storedDate? stored
  | .string => (scalarText? stored).map string
  | .enum => (scalarText? stored).map string
  | .list => storedList? stored

/-- The order of two numbers or of two dates. -/
def compare? : Value → Value → Option Ordering
  | number a, number b => a.compare? b
  | date a, date b => some (a.compare b)
  | _, _ => none

/-- Whether two values are equal, numbers by their numeric value. -/
def equal : Value → Value → Bool
  | number a, number b => a.equal b
  | string a, string b => a == b
  | bool a, bool b => a == b
  | date a, date b => a == b
  | list a, list b => a == b
  | _, _ => false

/-- The options of a selection; a text is a selection of one option. -/
def options : Value → List String
  | list items => items
  | string s => [s]
  | _ => []

end Value

end Beneficiary
