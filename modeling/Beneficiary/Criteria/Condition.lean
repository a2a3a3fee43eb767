import Beneficiary.Field.Kind

/-!
# Criteria

Criteria qualify a household when one of their rules does. A rule asks that all its household
filters hold and that each of its blocks is met by one member alone, who satisfies every filter of
the block. A filter is a condition on one field: a comparison with arguments, given as texts.
-/

namespace Beneficiary

/-- How a field's value is compared with the arguments of a condition. -/
inductive ComparisonMethod where
  | equals
  | notEquals
  | contains
  | range
  | greaterThan
  | lessThan
deriving DecidableEq, Repr

namespace ComparisonMethod

/-- The written name. -/
def text : ComparisonMethod → String
  | equals => "EQUALS"
  | notEquals => "NOT_EQUALS"
  | contains => "CONTAINS"
  | range => "RANGE"
  | greaterThan => "GREATER_THAN"
  | lessThan => "LESS_THAN"

/-- The method of a written name. -/
def ofText? : String → Option ComparisonMethod
  | "EQUALS" => some equals
  | "NOT_EQUALS" => some notEquals
  | "CONTAINS" => some contains
  | "RANGE" => some range
  | "GREATER_THAN" => some greaterThan
  | "LESS_THAN" => some lessThan
  | _ => none

end ComparisonMethod

/-- One comparison on one field. A round is given for periodic fields only. -/
structure Condition where
  field : String
  classification : FieldClassification
  round : Option UInt32
  method : ComparisonMethod
  arguments : List String
deriving DecidableEq, Repr

namespace Condition

/-- A condition on a core field. -/
def core (field : String) (method : ComparisonMethod) (arguments : List String) : Condition :=
  { field, classification := .core, round := none, method, arguments }

/-- A condition on a flex attribute. -/
def flex (field : String) (method : ComparisonMethod) (arguments : List String) : Condition :=
  { core field method arguments with classification := .flex }

/-- A condition on one round of a periodic field. -/
def periodic (field : String) (round : Option UInt32) (method : ComparisonMethod)
    (arguments : List String) : Condition :=
  { core field method arguments with classification := .periodic, round }

end Condition

/-- Conditions that one and the same member must satisfy, the head alone where stated. -/
structure Block where
  headOnly : Bool
  filters : List Condition
deriving DecidableEq, Repr

/-- Conditions on the household, and blocks for its members. -/
structure Rule where
  householdFilters : List Condition
  blocks : List Block
deriving DecidableEq, Repr

/-- Rules, any of which qualifies a household. -/
structure Criteria where
  rules : List Rule
deriving DecidableEq, Repr

end Beneficiary
