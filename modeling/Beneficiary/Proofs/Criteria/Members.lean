import Beneficiary.Criteria.Predicate

/-!
# Predicates and the members of a record

A block asks that some member meets it and never that none does, also where one of its comparisons
is a negated one. So a predicate that holds on a record holds as well on the same household with
more members, as long as the head stays the head.
-/

namespace Beneficiary

/-- A record of the same household with some of the members: its head, if it has one, is the head
of the other record. -/
structure HouseholdRecord.Within (fewer record : HouseholdRecord) : Prop where
  household : fewer.household = record.household
  members : fewer.members ⊆ record.members
  head : ∀ i, fewer.head? = some i → record.head? = some i

variable {fewer record : HouseholdRecord}

/-- A block that fewer members meet is met by more. -/
theorem BlockPredicate.holds_of_within {block : BlockPredicate} (h : fewer.Within record)
    (hholds : block.holds fewer = true) : block.holds record = true := by
  unfold holds at hholds ⊢
  by_cases hhead : block.headOnly = true
  · rw [if_pos hhead, Option.any_eq_true] at hholds ⊢
    obtain ⟨i, hi, hmet⟩ := hholds
    exact ⟨i, h.head i hi, hmet⟩
  · rw [if_neg hhead, List.any_eq_true] at hholds ⊢
    obtain ⟨i, hi, hmet⟩ := hholds
    exact ⟨i, h.members hi, hmet⟩

/-- A rule that qualifies a record with fewer members qualifies the one with more. -/
theorem RulePredicate.holds_of_within {rule : RulePredicate} (h : fewer.Within record)
    (hholds : rule.holds fewer = true) : rule.holds record = true := by
  unfold holds at hholds ⊢
  rw [Bool.and_eq_true, List.all_eq_true, List.all_eq_true, h.household] at hholds
  rw [Bool.and_eq_true, List.all_eq_true, List.all_eq_true]
  obtain ⟨hhousehold, hblocks⟩ := hholds
  refine ⟨hhousehold, ?_⟩
  intro block hblock
  exact BlockPredicate.holds_of_within h (hblocks block hblock)

/-- A predicate that holds on a record with fewer members holds on the one with more. -/
theorem Predicate.holds_of_within {predicate : Predicate} (h : fewer.Within record)
    (hholds : predicate.holds fewer = true) : predicate.holds record = true := by
  unfold holds at hholds ⊢
  rw [List.any_eq_true] at hholds ⊢
  obtain ⟨rule, hrule, hholds⟩ := hholds
  exact ⟨rule, hrule, RulePredicate.holds_of_within h hholds⟩

end Beneficiary
