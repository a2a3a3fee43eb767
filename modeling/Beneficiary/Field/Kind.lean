/-!
# Kinds of fields

Three classifications of a field: the entity it describes, the type of its values, and where it is
defined. Each has one written name; value types have further accepted spellings.
-/

namespace Beneficiary

/-- The entity that a field describes. -/
inductive EntityKind where
  | household
  | individual
deriving DecidableEq, Repr

namespace EntityKind

/-- The written name. -/
def text : EntityKind → String
  | household => "HOUSEHOLD"
  | individual => "INDIVIDUAL"

/-- The kind of a written name. -/
def ofText? : String → Option EntityKind
  | "HOUSEHOLD" => some household
  | "INDIVIDUAL" => some individual
  | _ => none

end EntityKind

/-- The declared type of a field's values. -/
inductive ValueType where
  | string
  | number
  | boolean
  | date
  | enum
  | list
deriving DecidableEq, Repr

namespace ValueType

/-- The written name. -/
def text : ValueType → String
  | string => "STRING"
  | number => "NUMBER"
  | boolean => "BOOLEAN"
  | date => "DATE"
  | enum => "ENUM"
  | list => "LIST"

/-- The type of a written name; decimals and integers are numbers, a single selection is an
enumeration and a multiple selection a list. -/
def ofText? : String → Option ValueType
  | "STRING" => some string
  | "NUMBER" => some number
  | "DECIMAL" => some number
  | "INTEGER" => some number
  | "BOOLEAN" => some boolean
  | "BOOL" => some boolean
  | "DATE" => some date
  | "ENUM" => some enum
  | "SELECT_ONE" => some enum
  | "LIST" => some list
  | "SELECT_MANY" => some list
  | _ => none

/-- Whether values of the type have an order. -/
def isOrdered : ValueType → Bool
  | number => true
  | date => true
  | _ => false

/-- Whether values of the type are chosen from options. -/
def hasChoices : ValueType → Bool
  | enum => true
  | list => true
  | _ => false

end ValueType

/-- Where a field is defined: for all programs, by one program, or by one program with one value
for each round of collection. -/
inductive FieldClassification where
  | core
  | flex
  | periodic
deriving DecidableEq, Repr

namespace FieldClassification

/-- The written name. -/
def text : FieldClassification → String
  | core => "NOT_FLEX_FIELD"
  | flex => "FLEX_FIELD_BASIC"
  | periodic => "FLEX_FIELD_PDU"

/-- The classification of a written name. -/
def ofText? : String → Option FieldClassification
  | "NOT_FLEX_FIELD" => some core
  | "FLEX_FIELD_BASIC" => some flex
  | "FLEX_FIELD_PDU" => some periodic
  | _ => none

/-- All classifications, in the order in which a schema lists them. -/
def all : List FieldClassification := [core, flex, periodic]

end FieldClassification

end Beneficiary
