import Beneficiary.Calendar.Moment
import Beneficiary.Field.Kind
import Beneficiary.Uuid

/-!
# Fields of a program

A descriptor says all that a rule needs to know of a field. Programs register flex attributes and
periodic fields, each of which has a descriptor; that of a periodic field has the type of its
rounds.
-/

namespace Beneficiary

/-- The rounds of a periodic field. The names go with the first rounds; later ones may have
none. -/
structure PeriodicSpec where
  numberOfRounds : UInt32
  roundNames : List String
  subtype : ValueType
deriving DecidableEq, Repr

/-- A field that rules can refer to. -/
structure FieldDescriptor where
  name : String
  owner : EntityKind
  valueType : ValueType
  classification : FieldClassification
  label : Option String
  choices : List String
  periodic : Option PeriodicSpec
deriving DecidableEq, Repr

namespace FieldDescriptor

/-- Whether a value is one of the choices; without choices every value is. -/
def allowsChoice (d : FieldDescriptor) (value : String) : Bool :=
  d.choices.isEmpty || d.choices.contains value

end FieldDescriptor

/-- An attribute of free form that a program registers. -/
structure FlexAttribute where
  id : Uuid
  programId : Uuid
  name : String
  owner : EntityKind
  valueType : ValueType
  label : Option String
  choices : List String
  createdAt : Moment
deriving DecidableEq, Repr

/-- The descriptor of a flex attribute. -/
def FlexAttribute.descriptor (a : FlexAttribute) : FieldDescriptor :=
  { name := a.name
    owner := a.owner
    valueType := a.valueType
    classification := .flex
    label := a.label
    choices := a.choices
    periodic := none }

/-- What a program states to register a flex attribute. -/
structure NewFlexAttribute where
  name : String
  owner : EntityKind
  valueType : ValueType
  label : Option String
  choices : List String
deriving DecidableEq, Repr

/-- An attribute whose value is collected once in each round. -/
structure PeriodicField where
  id : Uuid
  programId : Uuid
  name : String
  owner : EntityKind
  label : Option String
  spec : PeriodicSpec
  createdAt : Moment
deriving DecidableEq, Repr

/-- The descriptor of a periodic field. -/
def PeriodicField.descriptor (f : PeriodicField) : FieldDescriptor :=
  { name := f.name
    owner := f.owner
    valueType := f.spec.subtype
    classification := .periodic
    label := f.label
    choices := []
    periodic := some f.spec }

/-- What a program states to register a periodic field. -/
structure NewPeriodicField where
  name : String
  owner : Option EntityKind
  label : Option String
  subtype : ValueType
  numberOfRounds : UInt32
  roundNames : List String
deriving DecidableEq, Repr

namespace NewPeriodicField

/-- The entity described: individuals unless stated otherwise. -/
def describedKind (f : NewPeriodicField) : EntityKind := f.owner.getD .individual

/-- The rounds stated. -/
def spec (f : NewPeriodicField) : PeriodicSpec :=
  { numberOfRounds := f.numberOfRounds, roundNames := f.roundNames, subtype := f.subtype }

end NewPeriodicField

/-- The fields that a program has registered. -/
structure ProgramFields where
  flexAttributes : List FlexAttribute
  periodicFields : List PeriodicField
deriving DecidableEq, Repr

end Beneficiary
