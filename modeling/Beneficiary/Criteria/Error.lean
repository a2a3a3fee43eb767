import Beneficiary.Criteria.Condition
import Beneficiary.Text.Blank
import Beneficiary.Text.Numeral

/-!
# Errors in criteria

A condition can be wrong in eight ways, each with a code and a message. An error in criteria names
the place of the first wrong condition and carries that condition.
-/

namespace Beneficiary

open Text

/-- How many arguments a comparison takes. -/
inductive Arity where
  | exactly (count : Nat)
  | atLeast (count : Nat)
deriving DecidableEq, Repr

namespace Arity

/-- Whether a number of arguments is acceptable. -/
def accepts : Arity → Nat → Bool
  | exactly count, given => given == count
  | atLeast count, given => count ≤ given

/-- The arity in words. -/
def text : Arity → String
  | exactly count => "exactly " ++ decimalText count
  | atLeast count => "at least " ++ decimalText count

end Arity

/-- What is wrong with one condition. -/
inductive ConditionError where
  /-- No field has the name. -/
  | unknownField (field : String)
  /-- The field has another classification than the condition declares. -/
  | classificationMismatch (field : String) (declared actual : FieldClassification)
  /-- A periodic field needs a round. -/
  | missingRound (field : String)
  /-- The field has no such round. -/
  | roundOutOfRange (field : String) (round numberOfRounds : UInt32)
  /-- The comparison takes another number of arguments. -/
  | argumentCount (method : ComparisonMethod) (expected : Arity) (actual : Nat)
  /-- An argument is no value of the field. -/
  | argumentType (field : String) (valueType : ValueType) (argument : String)
  /-- The field describes the other entity. -/
  | crossEntity (field : String) (owner context : EntityKind)
  /-- The comparison is not defined for the type of the field. -/
  | unsupportedComparison (field : String) (method : ComparisonMethod) (valueType : ValueType)
deriving DecidableEq, Repr

namespace ConditionError

/-- The stable code of the error. -/
def code : ConditionError → String
  | unknownField _ => "UnknownFieldError"
  | classificationMismatch _ _ _ => "ClassificationMismatchError"
  | missingRound _ => "MissingRoundNumberError"
  | roundOutOfRange _ _ _ => "RoundNumberOutOfRangeError"
  | argumentCount _ _ _ => "InvalidArgumentCountError"
  | argumentType _ _ _ => "InvalidArgumentTypeError"
  | crossEntity _ _ _ => "CrossEntityFieldError"
  | unsupportedComparison _ _ _ => "UnsupportedComparisonError"

/-- A name between backquotes. -/
def named (name : String) : String := "`" ++ name ++ "`"

/-- The error in words. -/
def message : ConditionError → String
  | unknownField field => "unknown field " ++ named field
  | classificationMismatch field declared actual =>
    "field " ++ named field ++ " is classified " ++ actual.text
      ++ ", but the condition declares " ++ declared.text
  | missingRound field => "periodic field " ++ named field ++ " requires a round number"
  | roundOutOfRange field round numberOfRounds =>
    "round " ++ decimalText round.toNat ++ " is out of range for " ++ named field
      ++ ", which has " ++ decimalText numberOfRounds.toNat ++ " round(s)"
  | argumentCount method expected actual =>
    method.text ++ " expects " ++ expected.text ++ " argument(s), got " ++ decimalText actual
  | argumentType field valueType argument =>
    "argument " ++ named argument ++ " is not a valid " ++ valueType.text ++ " value for "
      ++ named field
  | crossEntity field owner context =>
    owner.text ++ " field " ++ named field ++ " cannot be used in " ++ context.text ++ " filters"
  | unsupportedComparison field method valueType =>
    method.text ++ " is not supported for " ++ valueType.text ++ " field " ++ named field

end ConditionError

/-- The place of a condition in criteria; conditions on the household stand in no block. -/
structure Location where
  rule : Nat
  block : Option Nat
  filter : Nat
deriving DecidableEq, Repr

/-- The place in words. -/
def Location.text (location : Location) : String :=
  match location.block with
  | some block =>
    "rule " ++ decimalText location.rule ++ ", individual block " ++ decimalText block
      ++ ", filter " ++ decimalText location.filter
  | none =>
    "rule " ++ decimalText location.rule ++ ", household filter " ++ decimalText location.filter

/-- Criteria that are wrong, by their first wrong condition. -/
structure CompileError where
  cause : ConditionError
  location : Location
  condition : Condition
deriving DecidableEq, Repr

namespace CompileError

/-- The code of the cause. -/
def code (e : CompileError) : String := e.cause.code

/-- The cause in words, with its place. -/
def message (e : CompileError) : String := e.cause.message ++ " (" ++ e.location.text ++ ")"

end CompileError

end Beneficiary
