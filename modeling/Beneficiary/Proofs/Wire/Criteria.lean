import Mathlib
import Beneficiary.Proofs.Json.Decoding
import Beneficiary.Wire.Criteria

/-!
# Criteria read back

Requests, and the parts that they are made of, are read back from what is written for them, as it
stands and in ordered form. None opens more than nine levels, so none comes near the depth limit.
-/

namespace Beneficiary

open Json (Decoder)
open Json.Decoder

/-- A classification is read back from its text. -/
theorem FieldClassification.ofText?_text (classification : FieldClassification) :
    ofText? classification.text = some classification := by
  cases classification <;> rfl

/-- A comparison method is read back from its text. -/
theorem ComparisonMethod.ofText?_text (method : ComparisonMethod) :
    ofText? method.text = some method := by
  cases method <;> rfl

/-- A program mode is read back from its text. -/
theorem ProgramMode.ofText?_text (mode : ProgramMode) : ofText? mode.text = some mode := by
  cases mode <;> rfl

/-- Conditions are read. -/
theorem Condition.reads : Reads Condition.decoder Condition.toJson := by
  apply reads_record (fun _ => rfl) (by decide)
  intro c
  have hround : Reads (option uint32) (.ofOption .ofUInt32) :=
    reads_option reads_uint32 (by simp [uint32, integer, otherKind, Except.map])
  exact ((((Record.accepts_required reads_string rfl).map mk).seq
    (Record.accepts_required (reads_choice FieldClassification.ofText?_text) rfl)).seq
    (Record.accepts_defaulted hround rfl)).seq
    (Record.accepts_required (reads_choice ComparisonMethod.ofText?_text) rfl) |>.seq
    (Record.accepts_defaulted (reads_list reads_string) rfl)

/-- Blocks are read. -/
theorem Block.reads : Reads Block.decoder Block.toJson := by
  apply reads_record (fun _ => rfl) (by decide)
  intro b
  exact ((Record.accepts_defaulted reads_bool rfl).map mk).seq
    (Record.accepts_defaulted (reads_list Condition.reads) rfl)

/-- Rules are read. -/
theorem Rule.reads : Reads Rule.decoder Rule.toJson := by
  apply reads_record (fun _ => rfl) (by decide)
  intro r
  exact ((Record.accepts_defaulted (reads_list Condition.reads) rfl).map mk).seq
    (Record.accepts_defaulted (reads_list Block.reads) rfl)

/-- Criteria are read. -/
theorem Criteria.reads : Reads Criteria.decoder Criteria.toJson := by
  apply reads_record (fun _ => rfl) (by decide)
  intro criteria
  exact (Record.accepts_defaulted (reads_list Rule.reads) rfl).map mk

/-- Exclusions are read. -/
theorem ExclusionSpec.reads : Reads ExclusionSpec.decoder ExclusionSpec.toJson := by
  apply reads_record (fun _ => rfl) (by decide)
  intro spec
  exact ((Record.accepts_defaulted (reads_list reads_string) rfl).map mk).seq
    (Record.accepts_defaulted (reads_choice ProgramMode.ofText?_text) rfl)

/-- Requests are read. -/
theorem TargetingRequest.reads : Reads TargetingRequest.decoder TargetingRequest.toJson := by
  apply reads_record (fun _ => rfl) (by decide)
  intro request
  have hexclusions : Reads (option ExclusionSpec.decoder) (.ofOption ExclusionSpec.toJson) :=
    reads_option ExclusionSpec.reads
      (by simp [ExclusionSpec.decoder, record, objectRecord, otherKind])
  exact ((Record.accepts_required Criteria.reads rfl).map mk).seq
    (Record.accepts_defaulted hexclusions rfl)

namespace Json

/-- A number of a round needs no level and is legible. -/
theorem fitsIn_ofUInt32 (levels : Nat) (n : UInt32) : (Json.ofUInt32 n).FitsIn levels := by
  have hbound := n.toNat_lt
  refine ⟨Nat.zero_le _, ?_⟩
  apply Number.isLegible_integer
  · rw [leastInteger]
    omega
  · rw [greatestInteger]
    omega

/-- A list fits when its items fit below it. -/
theorem fitsIn_ofList {α : Type} {encode : α → Json} {levels : Nat}
    (h : ∀ a, (encode a).FitsIn levels) (as : List α) :
    (Json.ofList encode as).FitsIn (levels + 1) := by
  apply fitsIn_array
  intro item hitem
  obtain ⟨a, -, rfl⟩ := List.mem_map.mp hitem
  exact h a

end Json

open Json

/-- Conditions open two levels. -/
theorem Condition.fitsIn (c : Condition) : c.toJson.FitsIn 2 := by
  have hround : (Json.ofOption .ofUInt32 c.round).FitsIn 1 := by
    cases c.round with
    | none => exact fitsIn_null 1
    | some n => exact fitsIn_ofUInt32 1 n
  have harguments : (Json.ofStrings c.arguments).FitsIn 1 := fitsIn_ofList (fitsIn_string 0) _
  apply fitsIn_object
  simp only [List.forall_mem_cons]
  exact ⟨fitsIn_string 1 _, fitsIn_string 1 _, hround, fitsIn_string 1 _, harguments, by simp⟩

/-- Blocks open four levels. -/
theorem Block.fitsIn (b : Block) : b.toJson.FitsIn 4 := by
  apply fitsIn_object
  simp only [List.forall_mem_cons]
  exact ⟨fitsIn_bool 3 _, fitsIn_ofList Condition.fitsIn _, by simp⟩

/-- Rules open six levels. -/
theorem Rule.fitsIn (r : Rule) : r.toJson.FitsIn 6 := by
  have hfilters := fitsIn_ofList Condition.fitsIn r.householdFilters
  apply fitsIn_object
  simp only [List.forall_mem_cons]
  exact ⟨hfilters.mono (by decide), fitsIn_ofList Block.fitsIn _, by simp⟩

/-- Criteria open eight levels. -/
theorem Criteria.fitsIn (criteria : Criteria) : criteria.toJson.FitsIn 8 := by
  apply fitsIn_object
  simp only [List.forall_mem_cons]
  exact ⟨fitsIn_ofList Rule.fitsIn _, by simp⟩

/-- Exclusions open two levels. -/
theorem ExclusionSpec.fitsIn (spec : ExclusionSpec) : spec.toJson.FitsIn 2 := by
  have hids : (Json.ofStrings spec.ids).FitsIn 1 := fitsIn_ofList (fitsIn_string 0) _
  apply fitsIn_object
  simp only [List.forall_mem_cons]
  exact ⟨hids, fitsIn_string 1 _, by simp⟩

/-- Requests open nine levels. -/
theorem TargetingRequest.fitsIn (request : TargetingRequest) : request.toJson.FitsIn 9 := by
  have hexclusions : (Json.ofOption ExclusionSpec.toJson request.exclusions).FitsIn 8 := by
    cases request.exclusions with
    | none => exact fitsIn_null 8
    | some spec => exact (ExclusionSpec.fitsIn spec).mono (by decide)
  apply fitsIn_object
  simp only [List.forall_mem_cons]
  exact ⟨Criteria.fitsIn _, hexclusions, by simp⟩

end Beneficiary
