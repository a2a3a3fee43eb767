import Beneficiary.Calendar.Moment
import Beneficiary.Field.Kind
import Beneficiary.Criteria.Condition
import Beneficiary.Json.Decoder
import Beneficiary.Registry.Program
import Beneficiary.Uuid

/-!
# Scalars on the wire

Identifiers, dates, moments and the named kinds are JSON strings. A decoder accepts what a writer
produces, and the further spellings that its type reads.
-/

namespace Beneficiary

open Json (Decoder)

namespace Uuid

/-- The identifier as JSON. -/
def toJson (id : Uuid) : Json := .string id.text

/-- Reads an identifier. -/
def decoder : Decoder Uuid := .text ofText?

end Uuid

namespace Date

/-- The date as JSON. -/
def toJson (d : Date) : Json := .string d.text

/-- The date that a string denotes. -/
def ofText? (s : String) : Option Date := ofSpaced? s.toList

/-- Reads a date. -/
def decoder : Decoder Date := .text ofText?

end Date

namespace Moment

/-- The moment as JSON. -/
def toJson (m : Moment) : Json := .string m.text

/-- Reads a moment. -/
def decoder : Decoder Moment := .text fun s => ofLoose? s.toList

end Moment

namespace EntityKind

/-- The kind as JSON. -/
def toJson (kind : EntityKind) : Json := .string kind.text

/-- Reads a kind of entity. -/
def decoder : Decoder EntityKind := .choice ofText?

end EntityKind

namespace ValueType

/-- The type as JSON. -/
def toJson (type : ValueType) : Json := .string type.text

/-- Reads a type of values. -/
def decoder : Decoder ValueType := .choice ofText?

end ValueType

namespace FieldClassification

/-- The classification as JSON. -/
def toJson (classification : FieldClassification) : Json := .string classification.text

/-- Reads a classification. -/
def decoder : Decoder FieldClassification := .choice ofText?

end FieldClassification

namespace ComparisonMethod

/-- The method as JSON. -/
def toJson (method : ComparisonMethod) : Json := .string method.text

/-- Reads a method. -/
def decoder : Decoder ComparisonMethod := .choice ofText?

end ComparisonMethod

namespace ProgramMode

/-- The mode as JSON. -/
def toJson (mode : ProgramMode) : Json := .string mode.text

/-- Reads a mode. -/
def decoder : Decoder ProgramMode := .choice ofText?

end ProgramMode

/-- A list as an array. -/
def Json.ofList {α : Type} (encode : α → Json) (items : List α) : Json :=
  .array (items.map encode)

/-- A number of thirty-two bits as JSON. -/
def Json.ofUInt32 (n : UInt32) : Json := .ofNat n.toNat

end Beneficiary
