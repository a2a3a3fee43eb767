import Mathlib
import Beneficiary.Proofs.Wire.Criteria
import Beneficiary.Wire.Field

/-!
# Fields read back

Descriptors, and the statements that register attributes and periodic fields, are read back from
what is written for them. A type is written by its own name, never by a further spelling.
-/

namespace Beneficiary

open Json (Decoder)
open Json.Decoder

/-- A kind of entity is read back from its text. -/
theorem EntityKind.ofText?_text (kind : EntityKind) : ofText? kind.text = some kind := by
  cases kind <;> rfl

/-- A type is read back from its own name. -/
theorem ValueType.ofText?_text (type : ValueType) : ofText? type.text = some type := by
  cases type <;> rfl

/-- Optional texts are read. -/
theorem Json.Decoder.reads_optionString : Reads (option string) (.ofOption .string) :=
  reads_option reads_string (by simp [string, otherKind])

/-- Rounds are read. -/
theorem PeriodicSpec.reads : Reads PeriodicSpec.decoder PeriodicSpec.toJson := by
  apply reads_record (fun _ => rfl) (by decide)
  intro spec
  exact ((Record.accepts_required reads_uint32 rfl).map mk).seq
    (Record.accepts_defaulted (reads_list reads_string) rfl) |>.seq
    (Record.accepts_required (reads_choice ValueType.ofText?_text) rfl)

/-- Descriptors are read. -/
theorem FieldDescriptor.reads :
    Json.Decoder.Reads FieldDescriptor.decoder FieldDescriptor.toJson := by
  apply reads_record (fun _ => rfl) (by decide)
  intro d
  have hnull (spec : PeriodicSpec) : PeriodicSpec.decoder .null ≠ .ok spec := by
    simp [PeriodicSpec.decoder, record, objectRecord, otherKind]
  have hperiodic := reads_option PeriodicSpec.reads hnull
  exact ((Record.accepts_required reads_string rfl).map mk).seq
    (Record.accepts_required (reads_choice EntityKind.ofText?_text) rfl) |>.seq
    (Record.accepts_required (reads_choice ValueType.ofText?_text) rfl) |>.seq
    (Record.accepts_required (reads_choice FieldClassification.ofText?_text) rfl) |>.seq
    (Record.accepts_defaulted reads_optionString rfl) |>.seq
    (Record.accepts_defaulted (reads_list reads_string) rfl) |>.seq
    (Record.accepts_defaulted hperiodic rfl)

/-- Statements of attributes are read. -/
theorem NewFlexAttribute.reads : Reads NewFlexAttribute.decoder NewFlexAttribute.toJson := by
  apply reads_record (fun _ => rfl) (by decide)
  intro a
  exact ((Record.accepts_required reads_string rfl).map mk).seq
    (Record.accepts_required (reads_choice EntityKind.ofText?_text) rfl) |>.seq
    (Record.accepts_required (reads_choice ValueType.ofText?_text) rfl) |>.seq
    (Record.accepts_defaulted reads_optionString rfl) |>.seq
    (Record.accepts_defaulted (reads_list reads_string) rfl)

/-- Statements of periodic fields are read. -/
theorem NewPeriodicField.reads : Reads NewPeriodicField.decoder NewPeriodicField.toJson := by
  apply reads_record (fun _ => rfl) (by decide)
  intro f
  have howner : Reads (option EntityKind.decoder) (.ofOption EntityKind.toJson) :=
    reads_option (reads_choice EntityKind.ofText?_text) (by simp [EntityKind.decoder, choice])
  exact ((Record.accepts_required reads_string rfl).map mk).seq
    (Record.accepts_defaulted howner rfl) |>.seq
    (Record.accepts_defaulted reads_optionString rfl) |>.seq
    (Record.accepts_required (reads_choice ValueType.ofText?_text) rfl) |>.seq
    (Record.accepts_required reads_uint32 rfl) |>.seq
    (Record.accepts_defaulted (reads_list reads_string) rfl)

end Beneficiary
