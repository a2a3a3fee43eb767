import Mathlib
import Beneficiary.Proofs.Calendar.Dates
import Beneficiary.Proofs.Calendar.Moments
import Beneficiary.Proofs.Json.Decoded
import Beneficiary.Proofs.Uuid
import Beneficiary.Proofs.Wire.Field
import Beneficiary.Wire.Registry

/-!
# Households read back

The statements that register households, members and collected values are read back from what is
written for them, and so is a record whose identifiers have 128 bits. A record that was read has no
other identifiers.
-/

namespace Beneficiary

open Json (Decoder)
open Json.Decoder

/-- Identifiers of 128 bits are read back. -/
theorem Uuid.readsBack {id : Uuid} (h : id.IsProper) :
    ReadsBack Uuid.decoder Uuid.toJson id :=
  readsBack_text (Uuid.ofText?_text h)

/-- An identifier that was read has 128 bits at most. -/
theorem Uuid.gives_isProper : Uuid.decoder.Gives Uuid.IsProper :=
  gives_text fun _ _ h => Uuid.isProper_of_ofText? h

/-- Dates are read. -/
theorem Date.reads : Reads Date.decoder Date.toJson := by
  apply reads_text
  intro d
  rw [Date.ofText?, Date.text, String.toList_ofList, d.ofSpaced?_toChars]

/-- Moments are read. -/
theorem Moment.reads : Reads Moment.decoder Moment.toJson :=
  reads_text fun m => m.ofLoose?_text

namespace Json.Decoder

/-- Optional dates are read. -/
theorem reads_optionDate : Reads (option Date.decoder) (.ofOption Date.toJson) :=
  reads_option Date.reads (by simp [Date.decoder, text, string, otherKind, bind, Except.bind])

/-- Optional truth values are read. -/
theorem reads_optionBool : Reads (option bool) (.ofOption .bool) :=
  reads_option reads_bool (by simp [bool, otherKind])

/-- Optional integers are read. -/
theorem reads_optionInt64 : Reads (option int64) (.ofOption .ofInt64) :=
  reads_option reads_int64 (by simp [int64, integer, otherKind, Except.map])

end Json.Decoder

/-- Statements of persons are read. -/
theorem NewIndividual.reads : Reads NewIndividual.decoder NewIndividual.toJson := by
  apply reads_record (fun _ => rfl) (by decide)
  intro i
  exact ((Record.accepts_required reads_string rfl).map mk).seq
    (Record.accepts_required reads_string rfl) |>.seq
    (Record.accepts_defaulted reads_bool rfl) |>.seq
    (Record.accepts_defaulted reads_optionString rfl) |>.seq
    (Record.accepts_defaulted reads_optionDate rfl) |>.seq
    (Record.accepts_defaulted reads_optionString rfl) |>.seq
    (Record.accepts_defaulted reads_optionString rfl) |>.seq
    (Record.accepts_defaulted reads_optionBool rfl) |>.seq
    (Record.accepts_defaulted (reads_list reads_string) rfl) |>.seq
    (Record.accepts_defaulted reads_optionBool rfl) |>.seq
    (Record.accepts_defaulted reads_optionString rfl) |>.seq
    (Record.accepts_defaulted reads_fields rfl)

/-- Statements of households are read. -/
theorem NewHousehold.reads : Reads NewHousehold.decoder NewHousehold.toJson := by
  apply reads_record (fun _ => rfl) (by decide)
  intro h
  exact ((Record.accepts_required reads_string rfl).map mk).seq
    (Record.accepts_defaulted reads_optionInt64 rfl) |>.seq
    (Record.accepts_defaulted reads_optionString rfl) |>.seq
    (Record.accepts_defaulted reads_optionString rfl) |>.seq
    (Record.accepts_defaulted reads_optionString rfl) |>.seq
    (Record.accepts_defaulted reads_optionString rfl) |>.seq
    (Record.accepts_defaulted reads_optionString rfl) |>.seq
    (Record.accepts_defaulted reads_optionDate rfl) |>.seq
    (Record.accepts_defaulted reads_optionBool rfl) |>.seq
    (Record.accepts_defaulted (reads_list reads_string) rfl) |>.seq
    (Record.accepts_defaulted reads_fields rfl) |>.seq
    (Record.accepts_required (reads_list NewIndividual.reads) rfl)

/-- Statements of collected values are read. -/
theorem NewRoundValue.reads : Reads NewRoundValue.decoder NewRoundValue.toJson := by
  apply reads_record (fun _ => rfl) (by decide)
  intro v
  exact ((Record.accepts_required reads_string rfl).map mk).seq
    (Record.accepts_required reads_uint32 rfl) |>.seq
    (Record.accepts_required reads_ordered rfl) |>.seq
    (Record.accepts_defaulted reads_optionDate rfl)

/-- The identifiers of the household have 128 bits at most. -/
structure Household.IsProper (h : Household) : Prop where
  id : h.id.IsProper
  programId : h.programId.IsProper
  headId : ∀ id ∈ h.headId, id.IsProper

/-- The identifiers of the individual have 128 bits at most. -/
structure Individual.IsProper (i : Individual) : Prop where
  id : i.id.IsProper
  householdId : i.householdId.IsProper

/-- The identifiers of the household and its members have 128 bits at most. -/
structure HouseholdRecord.IsProper (r : HouseholdRecord) : Prop where
  household : r.household.IsProper
  members : ∀ i ∈ r.members, i.IsProper

namespace Household

/-- The parts of a household read its values, whatever values stand beside them. -/
theorem accepts_parts {h : Household} (hproper : h.IsProper) (others : List (String × Json)) :
    parts.Accepts (h.fields ++ others) h := by
  have hhead : ReadsBack (option Uuid.decoder) (.ofOption Uuid.toJson) h.headId :=
    readsBack_option (fun id hid => Uuid.readsBack (hproper.headId id hid))
      (by simp [Uuid.decoder, text, string, otherKind, bind, Except.bind])
  exact ((Record.accepts_required_of (Uuid.readsBack hproper.id) rfl).map mk).seq
    (Record.accepts_required_of (Uuid.readsBack hproper.programId) rfl) |>.seq
    (Record.accepts_required reads_string rfl) |>.seq
    (Record.accepts_nullable_of hhead rfl) |>.seq
    (Record.accepts_nullable reads_optionInt64 rfl) |>.seq
    (Record.accepts_nullable reads_optionString rfl) |>.seq
    (Record.accepts_nullable reads_optionString rfl) |>.seq
    (Record.accepts_nullable reads_optionString rfl) |>.seq
    (Record.accepts_nullable reads_optionString rfl) |>.seq
    (Record.accepts_nullable reads_optionString rfl) |>.seq
    (Record.accepts_nullable reads_optionDate rfl) |>.seq
    (Record.accepts_nullable reads_optionBool rfl) |>.seq
    (Record.accepts_defaulted (reads_list reads_string) rfl) |>.seq
    (Record.accepts_defaulted reads_fields rfl) |>.seq
    (Record.accepts_defaulted reads_bool rfl) |>.seq
    (Record.accepts_required Moment.reads rfl)

/-- A household that was read has identifiers of 128 bits at most. -/
theorem gives_parts : parts.Gives IsProper := by
  -- The twelve parts after the head hold no identifier.
  iterate 12 apply Record.Gives.seq_any
  refine .seq (.seq_any (.seq (.map ?_ (Record.gives_required Uuid.gives_isProper _))
    (Record.gives_required Uuid.gives_isProper _)))
    (Record.gives_nullable Uuid.gives_isProper _)
  intro id hid programId hprogram unicefId headId hhead
  intros
  exact ⟨hid, hprogram, hhead⟩

end Household

namespace Individual

/-- Individuals whose identifiers have 128 bits are read back. -/
theorem readsBack {i : Individual} (hproper : i.IsProper) :
    ReadsBack Individual.decoder Individual.toJson i := by
  apply readsBack_record rfl (by decide)
  exact ((Record.accepts_required_of (Uuid.readsBack hproper.id) rfl).map mk).seq
    (Record.accepts_required_of (Uuid.readsBack hproper.householdId) rfl) |>.seq
    (Record.accepts_required reads_string rfl) |>.seq
    (Record.accepts_required reads_string rfl) |>.seq
    (Record.accepts_nullable reads_optionString rfl) |>.seq
    (Record.accepts_nullable reads_optionDate rfl) |>.seq
    (Record.accepts_nullable reads_optionString rfl) |>.seq
    (Record.accepts_nullable reads_optionString rfl) |>.seq
    (Record.accepts_nullable reads_optionBool rfl) |>.seq
    (Record.accepts_defaulted (reads_list reads_string) rfl) |>.seq
    (Record.accepts_nullable reads_optionBool rfl) |>.seq
    (Record.accepts_nullable reads_optionString rfl) |>.seq
    (Record.accepts_defaulted reads_fields rfl) |>.seq
    (Record.accepts_defaulted reads_bool rfl)

/-- An individual that was read has identifiers of 128 bits at most. -/
theorem gives_isProper : Individual.decoder.Gives IsProper := by
  apply gives_record
  -- The twelve parts after the household hold no identifier.
  iterate 12 apply Record.Gives.seq_any
  refine .seq (.map ?_ (Record.gives_required Uuid.gives_isProper _))
    (Record.gives_required Uuid.gives_isProper _)
  intro id hid householdId hhousehold
  intros
  exact ⟨hid, hhousehold⟩

end Individual

namespace HouseholdRecord

/-- Records whose identifiers have 128 bits are read back. -/
theorem readsBack {r : HouseholdRecord} (hproper : r.IsProper) :
    ReadsBack HouseholdRecord.decoder HouseholdRecord.toJson r := by
  apply readsBack_objectRecord canSkip rfl (by decide)
  have hmembers : ReadsBack (list Individual.decoder) (.ofList Individual.toJson) r.members :=
    readsBack_list fun i hi => Individual.readsBack (hproper.members i hi)
  exact ((Household.accepts_parts hproper.household _).map mk).seq
    (Record.accepts_required_of hmembers rfl)

/-- A record that was read has identifiers of 128 bits at most. -/
theorem gives_isProper : HouseholdRecord.decoder.Gives IsProper := by
  apply gives_objectRecord
  refine .seq ?_ (Record.gives_required (gives_list Individual.gives_isProper) _)
  exact .map (fun h hh members hmembers => ⟨hh, hmembers⟩) Household.gives_parts

end HouseholdRecord

end Beneficiary
