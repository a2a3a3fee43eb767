import Beneficiary.Field.Descriptor
import Beneficiary.Wire.Scalar

/-!
# Fields on the wire

The JSON form of descriptors, registered fields and the statements that register them. Each type
has a writer and a decoder, the fields of its record in one order.
-/

namespace Beneficiary

open Json (Decoder)
open Json.Decoder.Record

namespace PeriodicSpec

/-- The rounds as JSON. -/
def toJson (spec : PeriodicSpec) : Json :=
  .object
    [ ("number_of_rounds", .ofUInt32 spec.numberOfRounds),
      ("round_names", .ofStrings spec.roundNames),
      ("subtype", spec.subtype.toJson) ]

/-- Reads rounds. -/
def decoder : Decoder PeriodicSpec :=
  .record <|
    mk <$> required "number_of_rounds" .uint32
      <*> defaulted "round_names" (.list .string) []
      <*> required "subtype" ValueType.decoder

end PeriodicSpec

namespace FieldDescriptor

/-- The descriptor as JSON. -/
def toJson (d : FieldDescriptor) : Json :=
  .object
    [ ("name", .string d.name),
      ("owner", d.owner.toJson),
      ("value_type", d.valueType.toJson),
      ("classification", d.classification.toJson),
      ("label", .ofOption .string d.label),
      ("choices", .ofStrings d.choices),
      ("periodic", .ofOption PeriodicSpec.toJson d.periodic) ]

/-- Reads a descriptor. -/
def decoder : Decoder FieldDescriptor :=
  .record <|
    mk <$> required "name" .string
      <*> required "owner" EntityKind.decoder
      <*> required "value_type" ValueType.decoder
      <*> required "classification" FieldClassification.decoder
      <*> optional "label" .string
      <*> defaulted "choices" (.list .string) []
      <*> optional "periodic" PeriodicSpec.decoder

end FieldDescriptor

namespace FlexAttribute

/-- The attribute as JSON. -/
def toJson (a : FlexAttribute) : Json :=
  .object
    [ ("id", a.id.toJson),
      ("program_id", a.programId.toJson),
      ("name", .string a.name),
      ("owner", a.owner.toJson),
      ("value_type", a.valueType.toJson),
      ("label", .ofOption .string a.label),
      ("choices", .ofStrings a.choices),
      ("created_at", a.createdAt.toJson) ]

/-- Reads an attribute. -/
def decoder : Decoder FlexAttribute :=
  .record <|
    mk <$> required "id" Uuid.decoder
      <*> required "program_id" Uuid.decoder
      <*> required "name" .string
      <*> required "owner" EntityKind.decoder
      <*> required "value_type" ValueType.decoder
      <*> nullable "label" .string
      <*> required "choices" (.list .string)
      <*> required "created_at" Moment.decoder

end FlexAttribute

namespace NewFlexAttribute

/-- The statement as JSON. -/
def toJson (a : NewFlexAttribute) : Json :=
  .object
    [ ("name", .string a.name),
      ("owner", a.owner.toJson),
      ("value_type", a.valueType.toJson),
      ("label", .ofOption .string a.label),
      ("choices", .ofStrings a.choices) ]

/-- Reads a statement of an attribute. -/
def decoder : Decoder NewFlexAttribute :=
  .record <|
    mk <$> required "name" .string
      <*> required "owner" EntityKind.decoder
      <*> required "value_type" ValueType.decoder
      <*> optional "label" .string
      <*> defaulted "choices" (.list .string) []

end NewFlexAttribute

namespace PeriodicField

/-- The field as JSON. -/
def toJson (f : PeriodicField) : Json :=
  .object
    [ ("id", f.id.toJson),
      ("program_id", f.programId.toJson),
      ("name", .string f.name),
      ("owner", f.owner.toJson),
      ("label", .ofOption .string f.label),
      ("spec", f.spec.toJson),
      ("created_at", f.createdAt.toJson) ]

/-- Reads a field. -/
def decoder : Decoder PeriodicField :=
  .record <|
    mk <$> required "id" Uuid.decoder
      <*> required "program_id" Uuid.decoder
      <*> required "name" .string
      <*> required "owner" EntityKind.decoder
      <*> nullable "label" .string
      <*> required "spec" PeriodicSpec.decoder
      <*> required "created_at" Moment.decoder

end PeriodicField

namespace NewPeriodicField

/-- The statement as JSON. -/
def toJson (f : NewPeriodicField) : Json :=
  .object
    [ ("name", .string f.name),
      ("owner", .ofOption EntityKind.toJson f.owner),
      ("label", .ofOption .string f.label),
      ("subtype", f.subtype.toJson),
      ("number_of_rounds", .ofUInt32 f.numberOfRounds),
      ("round_names", .ofStrings f.roundNames) ]

/-- Reads a statement of a periodic field. -/
def decoder : Decoder NewPeriodicField :=
  .record <|
    mk <$> required "name" .string
      <*> optional "owner" EntityKind.decoder
      <*> optional "label" .string
      <*> required "subtype" ValueType.decoder
      <*> required "number_of_rounds" .uint32
      <*> defaulted "round_names" (.list .string) []

end NewPeriodicField

/-- The registered fields of a program as JSON. -/
def ProgramFields.toJson (fields : ProgramFields) : Json :=
  .object
    [ ("flex", .ofList FlexAttribute.toJson fields.flexAttributes),
      ("periodic", .ofList PeriodicField.toJson fields.periodicFields) ]

end Beneficiary
