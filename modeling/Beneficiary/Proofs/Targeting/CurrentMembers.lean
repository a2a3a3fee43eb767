import Beneficiary.Proofs.Criteria.Meaning
import Beneficiary.Proofs.Store.Reading
import Beneficiary.Targeting.Selection

/-!
# What a predicate sees of the members

Where the members of a record have distinct identifiers, a block asks for one of them who is current
and, if it is for the head alone, has the identifier that the household names. So the head needs no
looking up, and a predicate sees the household and its current members only: it cannot tell records
apart that differ in withdrawn members or in the order of members. Of exclusions, those of
households see no members, and those of persons see them in any order.
-/

namespace Beneficiary

/-- Two records have the same household and the same current members, in whatever order. -/
structure HouseholdRecord.SameCurrent (a b : HouseholdRecord) : Prop where
  household : a.household = b.household
  members : a.current.members.Perm b.current.members

namespace HouseholdRecord

variable {record : HouseholdRecord}

/-- Leaving out withdrawn members leaves the current ones as they are. -/
theorem sameCurrent_current (record : HouseholdRecord) : record.current.SameCurrent record := by
  refine ⟨rfl, ?_⟩
  simp only [current, List.filter_filter, Bool.and_self]
  exact .refl _

/-- The order of the members has no part in which are current. -/
theorem sameCurrent_of_perm {members : List Individual} (h : members.Perm record.members) :
    SameCurrent { record with members } record :=
  ⟨rfl, h.filter _⟩

end HouseholdRecord

/-- Whether a member of a household is one that the block is for. -/
def BlockPredicate.isFor (block : BlockPredicate) (household : Household) (member : Individual) :
    Bool :=
  !block.headOnly || household.headId.any fun id => member.id == id

variable {record other : HouseholdRecord}

/-- A block holds where some current member that it is for satisfies its comparisons. -/
theorem BlockPredicate.holds_eq_any (block : BlockPredicate)
    (h : (record.members.map Individual.id).Nodup) :
    block.holds record = record.current.members.any fun member =>
      block.isFor record.household member && block.atoms.all fun atom => atom.holds member := by
  have hmembers : block.holds record = record.members.any fun member =>
      block.isFor record.household member && block.isMetBy member := by
    unfold holds isFor
    cases block.headOnly with
    | false => simp
    | true =>
      unfold HouseholdRecord.head?
      cases record.household.headId with
      | none => simp
      | some headId => simpa using any_find?_key h headId block.isMetBy
  rw [hmembers, HouseholdRecord.current, List.any_filter]
  unfold isMetBy
  simp only [Bool.and_left_comm]

/-- A block holds on both or on none of two records with the same current members. -/
theorem BlockPredicate.holds_eq_of_sameCurrent (block : BlockPredicate)
    (h : record.SameCurrent other) (hrecord : (record.members.map Individual.id).Nodup)
    (hother : (other.members.map Individual.id).Nodup) :
    block.holds record = block.holds other := by
  rw [block.holds_eq_any hrecord, block.holds_eq_any hother, h.household]
  exact h.members.any_eq

/-- A predicate holds on both or on none of two records with the same current members. -/
theorem Predicate.holds_eq_of_sameCurrent (predicate : Predicate) (h : record.SameCurrent other)
    (hrecord : (record.members.map Individual.id).Nodup)
    (hother : (other.members.map Individual.id).Nodup) :
    predicate.holds record = predicate.holds other := by
  have hrule (rule : RulePredicate) : rule.holds record = rule.holds other := by
    unfold RulePredicate.holds
    rw [h.household]
    congr 2
    funext block
    exact block.holds_eq_of_sameCurrent h hrecord hother
  unfold holds
  congr 1
  funext rule
  exact hrule rule

/-- The exclusion of households sees the household alone. -/
theorem ExclusionFilter.excludes_eq_of_household {filter : ExclusionFilter}
    (hmode : filter.mode = .household) (h : record.household = other.household) :
    filter.excludes record = filter.excludes other := by
  unfold excludes
  rw [hmode, h]

/-- Exclusions see members in any order. -/
theorem ExclusionFilter.excludes_eq_of_perm (filter : ExclusionFilter) {members : List Individual}
    (h : members.Perm record.members) :
    filter.excludes { record with members } = filter.excludes record := by
  unfold excludes
  cases filter.mode with
  | household => rfl
  | person => exact h.any_eq

/-- A predicate sees only the household and its current members. On a record whose members have
distinct identifiers it gives the same result without the withdrawn members, and with the members in
any other order. Where exclusions are of households, so does the selection; members in any other
order make no difference to a selection whatever is excluded. -/
theorem Targeting.sees_current_members (targeting : Targeting) (record : HouseholdRecord)
    (h : (record.members.map Individual.id).Nodup) :
    targeting.predicate.holds record.current = targeting.predicate.holds record ∧
      (targeting.exclusions.mode = .household →
        targeting.selects record.current = targeting.selects record) ∧
      ∀ members : List Individual, members.Perm record.members →
        targeting.predicate.holds { record with members } = targeting.predicate.holds record ∧
          targeting.selects { record with members } = targeting.selects record := by
  have hcurrent : targeting.predicate.holds record.current = targeting.predicate.holds record :=
    targeting.predicate.holds_eq_of_sameCurrent record.sameCurrent_current
      (nodup_map_filter h _) h
  refine ⟨hcurrent, ?_, ?_⟩
  · intro hmode
    have hexcludes : targeting.exclusions.excludes record.current =
        targeting.exclusions.excludes record :=
      ExclusionFilter.excludes_eq_of_household hmode rfl
    unfold selects qualifies
    rw [hcurrent, hexcludes]
  · intro members hperm
    have hmembers : targeting.predicate.holds { record with members } =
        targeting.predicate.holds record :=
      targeting.predicate.holds_eq_of_sameCurrent (HouseholdRecord.sameCurrent_of_perm hperm)
        ((hperm.map _).nodup_iff.mpr h) h
    refine ⟨hmembers, ?_⟩
    unfold selects qualifies
    rw [hmembers, targeting.exclusions.excludes_eq_of_perm hperm]

/-- The example household, its head the member who has left. -/
def headlessRecord : HouseholdRecord :=
  { exampleRecord with
    household := { exampleRecord.household with headId := some ⟨4⟩ } }

/-- The head of the household is found in its record, and not in the record without withdrawn
members. A request that asks for a head and for another member sees no difference, nor where the
members are turned round. -/
theorem Targeting.headlessRecord_seen_alike :
    (headlessRecord.members.map Individual.id).Nodup ∧
      headlessRecord.head?.isSome = true ∧ headlessRecord.current.head?.isNone = true ∧
      headlessRecord.members.reverse.Perm headlessRecord.members ∧
      ∃ targeting, Targeting.compile (Schema.ofFields exampleFields).resolve exampleCriteria
          { ids := ["HH-2"], mode := .household } exampleDate = .ok targeting ∧
        targeting.exclusions.mode = .household ∧
        targeting.predicate.holds headlessRecord.current =
          targeting.predicate.holds headlessRecord ∧
        targeting.selects headlessRecord.current = targeting.selects headlessRecord ∧
        targeting.predicate.holds { headlessRecord with members := headlessRecord.members.reverse } =
          targeting.predicate.holds headlessRecord ∧
        targeting.selects { headlessRecord with members := headlessRecord.members.reverse } =
          targeting.selects headlessRecord := by
  have hnodup : (headlessRecord.members.map Individual.id).Nodup := by decide
  have hreverse : headlessRecord.members.reverse.Perm headlessRecord.members :=
    List.reverse_perm _
  have hcompiles : (exampleCriteria.compile (Schema.ofFields exampleFields).resolve
      exampleDate).toOption.isSome = true := by
    decide +kernel
  obtain ⟨predicate, hpredicate⟩ := Option.isSome_iff_exists.mp hcompiles
  have hpredicate := toOption_eq_some_iff.mp hpredicate
  obtain ⟨hholds, hselects, hmembers⟩ :=
    sees_current_members
      { predicate, exclusions := .ofSpec { ids := ["HH-2"], mode := .household } }
      headlessRecord hnodup
  refine ⟨hnodup, by decide, by decide, hreverse, _, ?_, rfl, hholds, hselects rfl,
    hmembers _ hreverse⟩
  exact map_eq_ok_iff.mpr ⟨predicate, hpredicate, rfl⟩

end Beneficiary
