import Beneficiary.Field.Descriptor
import Beneficiary.Field.Value
import Beneficiary.Registry.Household

/-!
# Core fields

The fields that every program has, each with its label, type, choices and the attribute it reads.
An age is derived from the birth date and a reference date; an empty selection counts as missing.
-/

namespace Beneficiary

/-- How a core field is read from the entity it describes. -/
inductive CoreReader where
  | household (read : Household → Option Value)
  | individual (read : Individual → Date → Option Value)

/-- A field that every program has. -/
structure CoreField where
  name : String
  label : String
  valueType : ValueType
  choices : List String
  reader : CoreReader

namespace CoreField

/-- The entity that the field describes. -/
def owner (f : CoreField) : EntityKind :=
  match f.reader with
  | .household _ => .household
  | .individual _ => .individual

/-- The descriptor of the field. -/
def descriptor (f : CoreField) : FieldDescriptor :=
  { name := f.name
    owner := f.owner
    valueType := f.valueType
    classification := .core
    label := some f.label
    choices := f.choices
    periodic := none }

/-- A selection as a value, missing when nothing is selected. -/
def selection (options : List String) : Option Value :=
  if options.isEmpty then none else some (.list options)

/-- The residence statuses. -/
def residenceStatuses : List String :=
  ["HOST", "IDP", "REFUGEE", "OTHERS_OF_CONCERN", "RETURNEE"]

/-- The parties that data may be shared with. -/
def consentParties : List String :=
  ["UNICEF", "HUMANITARIAN_PARTNER", "PRIVATE_PARTNER", "GOVERNMENT_PARTNER"]

/-- The recorded sexes. -/
def sexes : List String := ["MALE", "FEMALE", "OTHER", "NOT_COLLECTED", "NOT_ANSWERED"]

/-- The marital statuses. -/
def maritalStatuses : List String :=
  ["SINGLE", "MARRIED", "WIDOWED", "DIVORCED", "SEPARATED"]

/-- The relationships to the head of household. -/
def relationships : List String :=
  ["HEAD", "WIFE_HUSBAND", "SON_DAUGHTER", "BROTHER_SISTER", "MOTHER_FATHER",
   "GRANDSON_GRANDDAUGHTER", "OTHER_RELATIVE", "NON_RELATIVE"]

/-- The kinds of disability. -/
def disabilities : List String :=
  ["NONE", "SEEING", "HEARING", "WALKING", "MEMORY", "SELF_CARE", "COMMUNICATING"]

/-- All core fields. -/
def all : List CoreField :=
  [ { name := "size", label := "Household size", valueType := .number, choices := []
      reader := .household fun h => h.size.map fun n => .number (Binary64.ofInt n.toInt) },
    { name := "residence_status", label := "Residence status", valueType := .enum
      choices := residenceStatuses
      reader := .household fun h => h.residenceStatus.map .string },
    { name := "admin1", label := "Administrative level 1", valueType := .string, choices := []
      reader := .household fun h => h.admin1.map .string },
    { name := "admin2", label := "Administrative level 2", valueType := .string, choices := []
      reader := .household fun h => h.admin2.map .string },
    { name := "village", label := "Village", valueType := .string, choices := []
      reader := .household fun h => h.village.map .string },
    { name := "address", label := "Address", valueType := .string, choices := []
      reader := .household fun h => h.address.map .string },
    { name := "first_registration_date", label := "First registration date", valueType := .date
      choices := []
      reader := .household fun h => h.firstRegistrationDate.map .date },
    { name := "returnee", label := "Returnee household", valueType := .boolean, choices := []
      reader := .household fun h => h.returnee.map .bool },
    { name := "consent_sharing", label := "Consent to share data with", valueType := .list
      choices := consentParties
      reader := .household fun h => selection h.consentSharing },
    { name := "full_name", label := "Full name", valueType := .string, choices := []
      reader := .individual fun i _ => some (.string i.fullName) },
    { name := "sex", label := "Sex", valueType := .enum, choices := sexes
      reader := .individual fun i _ => i.sex.map .string },
    { name := "birth_date", label := "Birth date", valueType := .date, choices := []
      reader := .individual fun i _ => i.birthDate.map .date },
    { name := "age", label := "Age (years)", valueType := .number, choices := []
      reader := .individual fun i asOf =>
        (i.birthDate.bind fun birth => birth.ageOn asOf).map fun age =>
          .number (Binary64.ofInt age) },
    { name := "marital_status", label := "Marital status", valueType := .enum
      choices := maritalStatuses
      reader := .individual fun i _ => i.maritalStatus.map .string },
    { name := "relationship", label := "Relationship to head of household", valueType := .enum
      choices := relationships
      reader := .individual fun i _ => i.relationship.map .string },
    { name := "disability", label := "Has a disability", valueType := .boolean, choices := []
      reader := .individual fun i _ => i.disability.map .bool },
    { name := "observed_disability", label := "Observed disabilities", valueType := .list
      choices := disabilities
      reader := .individual fun i _ => selection i.observedDisability },
    { name := "pregnant", label := "Pregnant", valueType := .boolean, choices := []
      reader := .individual fun i _ => i.pregnant.map .bool },
    { name := "phone_no", label := "Phone number", valueType := .string, choices := []
      reader := .individual fun i _ => i.phoneNo.map .string } ]

/-- The core field of a name. -/
def find? (name : String) : Option CoreField := all.find? fun f => f.name == name

/-- The choices of the core field of a name. -/
def choicesOf (name : String) : List String :=
  match find? name with
  | some f => f.choices
  | none => []

end CoreField

end Beneficiary
