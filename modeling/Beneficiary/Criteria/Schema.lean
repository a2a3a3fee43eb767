import Beneficiary.Criteria.Error
import Beneficiary.Field.Core

/-!
# The schema of a program

A schema lists the fields that rules of a program can refer to in three tables: core fields, flex
attributes and periodic fields. Each table ascends by name and holds each name once; of several
fields of one name the last counts. A reference names a field and declares its table.
-/

namespace Beneficiary

/-- Finds the field that a name and a declared classification refer to. -/
abbrev Resolver := String → FieldClassification → Except ConditionError FieldDescriptor

/-- Puts a field into a table: before the first greater name, or in place of an equal one. -/
def insertDescriptor (d : FieldDescriptor) : List FieldDescriptor → List FieldDescriptor
  | [] => [d]
  | first :: rest =>
    if first.name < d.name then first :: insertDescriptor d rest
    else if first.name = d.name then d :: rest
    else d :: first :: rest

/-- The table of a list of fields. -/
def descriptorTable (fields : List FieldDescriptor) : List FieldDescriptor :=
  fields.foldl (fun table d => insertDescriptor d table) []

/-- The field of a name in a list of fields. -/
def descriptorNamed? (name : String) (fields : List FieldDescriptor) : Option FieldDescriptor :=
  fields.find? fun d => d.name == name

/-- The fields of a program by classification. -/
structure Schema where
  core : List FieldDescriptor
  flex : List FieldDescriptor
  periodic : List FieldDescriptor
deriving DecidableEq, Repr

namespace Schema

/-- The schema of the fields that a program has registered. -/
def ofFields (fields : ProgramFields) : Schema :=
  { core := descriptorTable (CoreField.all.map CoreField.descriptor)
    flex := descriptorTable (fields.flexAttributes.map FlexAttribute.descriptor)
    periodic := descriptorTable (fields.periodicFields.map PeriodicField.descriptor) }

/-- All fields: core fields, flex attributes, then periodic fields. -/
def fields (schema : Schema) : List FieldDescriptor :=
  schema.core ++ schema.flex ++ schema.periodic

/-- The table of a classification. -/
def table (schema : Schema) : FieldClassification → List FieldDescriptor
  | .core => schema.core
  | .flex => schema.flex
  | .periodic => schema.periodic

/-- The field of a name under a classification. -/
def find? (schema : Schema) (name : String) (classification : FieldClassification) :
    Option FieldDescriptor :=
  descriptorNamed? name (schema.table classification)

/-- The first classification other than the declared one under which a name is listed. -/
def otherClassification? (schema : Schema) (name : String) (declared : FieldClassification) :
    Option FieldClassification :=
  FieldClassification.all.find? fun c => c != declared && (schema.find? name c).isSome

/-- The field that a name and a declared classification refer to. -/
def resolve (schema : Schema) : Resolver := fun name declared =>
  match schema.find? name declared with
  | some d => .ok d
  | none =>
    match schema.otherClassification? name declared with
    | some actual => .error (.classificationMismatch name declared actual)
    | none => .error (.unknownField name)

end Schema

/-- Refers to fields of a list by name alone, the last of a name counting. -/
def resolveByName (fields : List FieldDescriptor) : Resolver := fun name _ =>
  match descriptorNamed? name fields.reverse with
  | some d => .ok d
  | none => .error (.unknownField name)

end Beneficiary
