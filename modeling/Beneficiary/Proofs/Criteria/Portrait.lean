import Beneficiary.Proofs.Criteria.Coincidence

/-!
# Portraits of records

A household and its members are numbered when they are registered, and carry the moment of it. Core
fields are read past all this, and so are the program's own attributes; a head is found by its
number, but what is asked of it is asked of the person. So the portrait of a record, its household,
members and head without numbers and moment, decides which criteria qualify the record.
-/

namespace Beneficiary

/-- The moment that stands for all moments of registration; any other would do. -/
def Moment.origin : Moment := { date := ⟨1, 1, 1, by decide⟩, time := ⟨43200, 0, by decide⟩ }

/-- The household without the identifiers and the moment of its registration. -/
def Household.unnumbered (h : Household) : Household :=
  { h with id := ⟨0⟩, programId := ⟨0⟩, headId := none, createdAt := .origin }

/-- The individual without the identifiers of its registration. -/
def Individual.unnumbered (i : Individual) : Individual :=
  { i with id := ⟨0⟩, householdId := ⟨0⟩ }

namespace HouseholdRecord

/-- The record without the identifiers and the moment of its registration. -/
def unnumbered (record : HouseholdRecord) : HouseholdRecord :=
  { household := record.household.unnumbered
    members := record.members.map Individual.unnumbered }

/-- A record without the numbers of its registration, and the head that the numbers told. -/
structure Portrait where
  record : HouseholdRecord
  head : Option Individual

/-- The registration id of the household in a portrait. -/
def Portrait.unicefId (portrait : Portrait) : String := portrait.record.household.unicefId

/-- The portrait of a record. -/
def portrait (record : HouseholdRecord) : Portrait :=
  { record := record.unnumbered
    head := record.head?.map Individual.unnumbered }

/-- A record has the portrait that shows its household, its members and its head. -/
theorem portrait_eq {record : HouseholdRecord} {portrait : Portrait}
    (hhousehold : record.household.unnumbered = portrait.record.household)
    (hmembers : record.members.map Individual.unnumbered = portrait.record.members)
    (hhead : record.head?.map Individual.unnumbered = portrait.head) :
    record.portrait = portrait := by
  rw [HouseholdRecord.portrait, unnumbered, hhousehold, hmembers, hhead]

end HouseholdRecord

/-- Core fields of a household are read past its numbers. -/
theorem Household.coreValue_unnumbered {field : CoreField} (h : field ∈ CoreField.all)
    (household : Household) (asOf : Date) :
    FieldSubject.coreValue household.unnumbered field asOf =
      FieldSubject.coreValue household field asOf := by
  revert field
  simp [CoreField.all, FieldSubject.coreValue, unnumbered]

/-- Core fields of an individual are read past its numbers. -/
theorem Individual.coreValue_unnumbered {field : CoreField} (h : field ∈ CoreField.all)
    (i : Individual) (asOf : Date) :
    FieldSubject.coreValue i.unnumbered field asOf = FieldSubject.coreValue i field asOf := by
  revert field
  simp [CoreField.all, FieldSubject.coreValue, unnumbered]

variable {resolve : Resolver} {asOf : Date}

/-- A condition holds alike on households that differ in their numbers alone. -/
theorem Condition.HoldsOn.of_household_unnumbered_eq {condition : Condition} {a b : Household}
    (hsame : a.unnumbered = b.unnumbered) (h : condition.HoldsOn resolve asOf a) :
    condition.HoldsOn resolve asOf b := by
  refine h.congr ?_ (congrArg Household.flexFields hsame)
  intro d field _ _ hfound
  have hfield := List.mem_of_find?_eq_some hfound
  rw [← a.coreValue_unnumbered hfield, hsame, b.coreValue_unnumbered hfield]

/-- A condition holds alike on individuals that differ in their numbers alone. -/
theorem Condition.HoldsOn.of_individual_unnumbered_eq {condition : Condition} {a b : Individual}
    (hsame : a.unnumbered = b.unnumbered) (h : condition.HoldsOn resolve asOf a) :
    condition.HoldsOn resolve asOf b := by
  refine h.congr ?_ (congrArg Individual.flexFields hsame)
  intro d field _ _ hfound
  have hfield := List.mem_of_find?_eq_some hfound
  rw [← a.coreValue_unnumbered hfield, hsame, b.coreValue_unnumbered hfield]

variable {record other : HouseholdRecord}

/-- A block that is about a member of a record is about one who differs in numbers alone in any
other record of the same portrait. -/
theorem Block.InRange.of_portrait_eq (hsame : record.portrait = other.portrait) {block : Block}
    {i : Individual} (h : block.InRange record i) :
    ∃ j, block.InRange other j ∧ j.unnumbered = i.unnumbered := by
  unfold InRange at h ⊢
  by_cases hhead : block.headOnly = true
  · simp only [if_pos hhead] at h ⊢
    have hheads : record.head?.map Individual.unnumbered = other.head?.map Individual.unnumbered :=
      congrArg HouseholdRecord.Portrait.head hsame
    rw [h] at hheads
    exact Option.map_eq_some_iff.mp hheads.symm
  · simp only [if_neg hhead] at h ⊢
    have hmembers : record.members.map Individual.unnumbered =
        other.members.map Individual.unnumbered :=
      congrArg (fun portrait => portrait.record.members) hsame
    have hmem : i.unnumbered ∈ other.members.map Individual.unnumbered := by
      rw [← hmembers]
      exact List.mem_map_of_mem h
    exact List.mem_map.mp hmem

/-- Criteria that qualify a record qualify any other of the same portrait. -/
theorem Criteria.Qualifies.of_portrait_eq {criteria : Criteria}
    (hsame : record.portrait = other.portrait) (h : criteria.Qualifies resolve asOf record) :
    criteria.Qualifies resolve asOf other := by
  apply h.transfer
  · intro condition _ hholds
    exact hholds.of_household_unnumbered_eq
      (congrArg (fun portrait => portrait.record.household) hsame)
  · intro block i hrange
    obtain ⟨j, hother, hij⟩ := hrange.of_portrait_eq hsame
    have hwithdrawn : j.unnumbered.withdrawn = i.unnumbered.withdrawn := by rw [hij]
    refine ⟨j, hother, hwithdrawn, ?_⟩
    intro condition _ hholds
    exact hholds.of_individual_unnumbered_eq hij.symm

end Beneficiary
