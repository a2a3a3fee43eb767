import Beneficiary.Binary64.Numeral
import Beneficiary.Binary64.Shortest

/-!
# JSON values

A JSON number is an integer of at most sixty-four bits or a binary64 number, and keeps which of
the two it is. An object is a list of named values as they were written.
-/

namespace Beneficiary

open Text

/-- A JSON number, by the form of its literal. -/
inductive Json.Number where
  | integer (value : Int)
  | float (value : Binary64)
deriving DecidableEq, Repr

/-- A JSON value. -/
inductive Json where
  | null
  | bool (value : Bool)
  | number (value : Json.Number)
  | string (value : String)
  | array (items : List Json)
  | object (fields : List (String × Json))
deriving Inhabited

namespace Json

/-- The least and greatest integers that a literal without point and exponent denotes. -/
def leastInteger : Int := -9223372036854775808

/-- The greatest integer that a literal without point and exponent denotes. -/
def greatestInteger : Int := 18446744073709551615

/-- Numbers are written with the fewest digits that identify them, with a point between the
fifth decimal place and the sixteenth digit, otherwise with a signed exponent. -/
def numberLayout : Binary64.Layout :=
  { leastPlain := -5, greatestPlain := 15, exponentMark := 'e', plusSign := true }

namespace Number

/-- The number as written. -/
def text : Number → String
  | .integer z => integerText z
  | .float x => String.ofList (Binary64.render numberLayout x)

/-- The number as a binary64 number. -/
def toBinary64 : Number → Binary64
  | .integer z => Binary64.ofInt z
  | .float x => x

end Number

/-- The integer as a JSON number. -/
def ofInt (z : Int) : Json := .number (.integer z)

/-- The natural number as a JSON number. -/
def ofNat (n : Nat) : Json := ofInt n

/-- The value or `null`. -/
def ofOption {α : Type} (encode : α → Json) : Option α → Json
  | some a => encode a
  | none => .null

/-- The list of strings as an array. -/
def ofStrings (items : List String) : Json := .array (items.map .string)

/-- The value of a name in an object. -/
def field? (name : String) : Json → Option Json
  | .object fields => fields.lookup name
  | _ => none

end Json

end Beneficiary
