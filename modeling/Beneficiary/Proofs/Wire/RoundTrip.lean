import Mathlib
import Beneficiary.Proofs.Criteria.Meaning
import Beneficiary.Proofs.Wire.Registry

/-!
# Round trips on the wire

Whatever is written of a request, a field, a statement or a record is read back as the same value,
whether names stand as they were written or in ascending order. So a value that was read, be it
from further spellings, with unknown names or with names left out, is read again from what is then
written of it. Identifiers have 128 bits: those of a record that was read have no more, and a
record of such identifiers is read back.
-/

namespace Beneficiary

open Json (Decoder IsForm decodeValue)
open Json.Decoder

/-- Values survive the wire. One within range is read back from what is written of it, and one that
was read from any value is read again from what is written of it, in either form. -/
structure Json.Decoder.RoundTrips {α : Type} (decode : Decoder α) (encode : α → Json)
    (inRange : α → Prop) : Prop where
  written : ∀ a, inRange a → ∀ form, IsForm (encode a) form → decodeValue decode form = .ok a
  again : ∀ json a, decodeValue decode json = .ok a →
    ∀ form, IsForm (encode a) form → decodeValue decode form = .ok a

namespace Json.Decoder

variable {α : Type} {decode : Decoder α} {encode : α → Json}

/-- Values survive when those within range are read back and no others are read. -/
theorem roundTrips_of_gives {inRange : α → Prop}
    (hread : ∀ a, inRange a → ReadsBack decode encode a) (hgives : decode.Gives inRange) :
    RoundTrips decode encode inRange := by
  constructor
  · exact hread
  · intro json a hjson
    exact hread a (hgives json.toSource a hjson)

/-- Values survive when the decoder reads the encoder. -/
theorem Reads.roundTrips (h : Reads decode encode) :
    RoundTrips decode encode fun _ => True :=
  roundTrips_of_gives (fun a _ => h a) fun _ _ _ => trivial

end Json.Decoder

/-- Every wire type survives the wire: requests and criteria with their parts, descriptors, the
statements that register attributes, periodic fields, households and collected values, and records
of households with their members. -/
theorem wire_round_trips :
    RoundTrips TargetingRequest.decoder TargetingRequest.toJson (fun _ => True) ∧
    RoundTrips Criteria.decoder Criteria.toJson (fun _ => True) ∧
    RoundTrips Rule.decoder Rule.toJson (fun _ => True) ∧
    RoundTrips Block.decoder Block.toJson (fun _ => True) ∧
    RoundTrips Condition.decoder Condition.toJson (fun _ => True) ∧
    RoundTrips ExclusionSpec.decoder ExclusionSpec.toJson (fun _ => True) ∧
    RoundTrips FieldDescriptor.decoder FieldDescriptor.toJson (fun _ => True) ∧
    RoundTrips NewFlexAttribute.decoder NewFlexAttribute.toJson (fun _ => True) ∧
    RoundTrips NewPeriodicField.decoder NewPeriodicField.toJson (fun _ => True) ∧
    RoundTrips NewHousehold.decoder NewHousehold.toJson (fun _ => True) ∧
    RoundTrips NewRoundValue.decoder NewRoundValue.toJson (fun _ => True) ∧
    RoundTrips HouseholdRecord.decoder HouseholdRecord.toJson HouseholdRecord.IsProper :=
  ⟨TargetingRequest.reads.roundTrips, Criteria.reads.roundTrips, Rule.reads.roundTrips,
    Block.reads.roundTrips, Condition.reads.roundTrips, ExclusionSpec.reads.roundTrips,
    FieldDescriptor.reads.roundTrips, NewFlexAttribute.reads.roundTrips,
    NewPeriodicField.reads.roundTrips, NewHousehold.reads.roundTrips,
    NewRoundValue.reads.roundTrips,
    roundTrips_of_gives (fun _ => HouseholdRecord.readsBack) HouseholdRecord.gives_isProper⟩

/-- A descriptor with a further spelling of its type and an unknown name, its choices left out. -/
def exampleDescriptor : Json :=
  .object
    [ ("value_type", .string "SELECT_ONE"),
      ("note", .ofNat 1),
      ("name", .string "water"),
      ("classification", .string "FLEX_FIELD_BASIC"),
      ("owner", .string "HOUSEHOLD") ]

/-- The identifiers of the example household have 128 bits at most. -/
theorem exampleRecord_isProper : exampleRecord.IsProper := by
  have hsmall {n : Nat} (h : n < 10) : Uuid.IsProper ⟨n⟩ := Nat.lt_trans h (by decide)
  refine ⟨⟨hsmall (by decide), hsmall (by decide), ?_⟩, ?_⟩
  · rintro id ⟨⟩
    exact hsmall (by decide)
  · simp only [exampleRecord, List.forall_mem_cons]
    exact ⟨⟨hsmall (by decide), hsmall (by decide)⟩, ⟨hsmall (by decide), hsmall (by decide)⟩,
      ⟨hsmall (by decide), hsmall (by decide)⟩, by simp⟩

/-- The example descriptor is an enumeration and is read again from what is then written, and the
example household is read back with its members. -/
theorem examples_round_trip :
    ∃ d, decodeValue FieldDescriptor.decoder exampleDescriptor = .ok d ∧ d.valueType = .enum ∧
      d.choices = [] ∧ decodeValue FieldDescriptor.decoder d.toJson = .ok d ∧
      exampleRecord.IsProper ∧
      decodeValue HouseholdRecord.decoder exampleRecord.toJson = .ok exampleRecord := by
  obtain ⟨-, -, -, -, -, -, hdescriptor, -, -, -, -, hrecord⟩ := wire_round_trips
  have hread : decodeValue FieldDescriptor.decoder exampleDescriptor =
      .ok { name := "water", owner := .household, valueType := .enum, classification := .flex
            label := none, choices := [], periodic := none } := by
    rfl
  refine ⟨_, hread, rfl, rfl, hdescriptor.again _ _ hread _ (.inl rfl), exampleRecord_isProper, ?_⟩
  exact hrecord.written _ exampleRecord_isProper _ (.inl rfl)

end Beneficiary
