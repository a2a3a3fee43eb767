import Beneficiary.Criteria.Error
import Beneficiary.Registry.Program

/-!
# Failures of store operations

Why an operation is refused, each cause with its message. A store whose tables were never made
refuses every operation by the first table that it asks for.
-/

namespace Beneficiary

open Text

/-- The tables of a store. -/
inductive Table where
  | programs
  | flexAttributes
  | periodicFields
  | households
  | individuals
deriving DecidableEq, Repr

/-- The name of a table. -/
def Table.text : Table → String
  | programs => "programs"
  | flexAttributes => "flex_attributes"
  | periodicFields => "periodic_fields"
  | households => "households"
  | individuals => "individuals"

/-- Why an operation is refused. -/
inductive Failure where
  /-- The tables were never made. -/
  | missingTable (table : Table)
  | blankProgramName
  | unknownProgram
  | blankFieldName
  /-- A core field has the name. -/
  | coreFieldName (name : String)
  /-- Choices were given for a type that is not chosen from options. -/
  | choicesNotAllowed
  | noRounds
  /-- Rounds cannot hold selections. -/
  | roundsOfChoices
  | tooManyRoundNames
  | fieldNameTaken (name : String)
  | blankHouseholdId
  | noMembers
  /-- A value is none of a core field's choices. -/
  | notAChoice (field : String) (choices : List String)
  | blankIndividualId
  /-- A program of persons registers one member in each household. -/
  | notOnePerson
  | notOneHead (heads : Nat)
  | householdIdTaken (id : String)
  | individualIdTaken (id : String)
  | unknownPeriodicField (name : String)
  /-- The periodic field describes households. -/
  | notIndividualField (name : String)
  | noSuchRound (round numberOfRounds : UInt32)
  /-- Exclusions were stated for programs of the other mode. -/
  | otherExclusionMode (mode : ProgramMode)
  /-- The criteria do not compile. -/
  | criteria (error : CompileError)
deriving DecidableEq, Repr

namespace Failure

/-- The failure in words. -/
def message : Failure → String
  | missingTable table => "no such table: " ++ table.text
  | blankProgramName => "Program name must not be empty"
  | unknownProgram => "Program not found"
  | blankFieldName => "Field name must not be empty"
  | coreFieldName name => "Field name `" ++ name ++ "` must not shadow a core field"
  | choicesNotAllowed => "Choices must only be set on ENUM or LIST fields"
  | noRounds => "Periodic fields must have at least one round"
  | roundsOfChoices => "Periodic field subtype must be STRING, NUMBER, BOOLEAN or DATE"
  | tooManyRoundNames => "Round names must not outnumber rounds"
  | fieldNameTaken name => "Field `" ++ name ++ "` is already defined for this program"
  | blankHouseholdId => "Household unicef_id must not be empty"
  | noMembers => "Households must have at least one member"
  | notAChoice field choices => "`" ++ field ++ "` must be one of " ++ joined ", " choices
  | blankIndividualId => "Individual unicef_id must not be empty"
  | notOnePerson => "Person programs must register exactly one member per household"
  | notOneHead heads => "Households must have exactly one head, got " ++ decimalText heads
  | householdIdTaken id => "Household " ++ id ++ " already exists"
  | individualIdTaken id => "Individual " ++ id ++ " already exists"
  | unknownPeriodicField name => "Periodic field `" ++ name ++ "` not found"
  | notIndividualField name => "Periodic field `" ++ name ++ "` must be an INDIVIDUAL field"
  | noSuchRound round numberOfRounds =>
    "Round " ++ decimalText round.toNat ++ " must be between 1 and "
      ++ decimalText numberOfRounds.toNat
  | otherExclusionMode mode =>
    "Exclusion programMode must match the program mode (" ++ mode.text ++ ")"
  | criteria error => error.message

end Failure

/-- Fails unless a condition holds. -/
def require (condition : Bool) (failure : Failure) : Except Failure Unit :=
  if condition then .ok () else .error failure

end Beneficiary
