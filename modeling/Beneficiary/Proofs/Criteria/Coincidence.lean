import Beneficiary.Proofs.Criteria.Meaning

/-!
# What criteria look at

A condition looks at an entity in two places only: the core field that it refers to, if it refers to
one, and the program's own attributes. Where two entities agree there, be it on two dates, the
condition holds on both or on none. So criteria pass from one record to another as soon as their
conditions pass from household to household and from the members of the one to members of the other.
-/

namespace Beneficiary

/-- The conditions of a rule, those on the household first. -/
def Rule.conditions (rule : Rule) : List Condition :=
  rule.householdFilters ++ rule.blocks.flatMap Block.filters

/-- The conditions of criteria, rule after rule. -/
def Criteria.conditions (criteria : Criteria) : List Condition :=
  criteria.rules.flatMap Rule.conditions

section Conditions

variable {criteria : Criteria} {rule : Rule} {block : Block} {condition : Condition}

/-- A condition on the household is one of the criteria. -/
theorem Criteria.mem_conditions_of_household (hrule : rule ∈ criteria.rules)
    (h : condition ∈ rule.householdFilters) : condition ∈ criteria.conditions :=
  List.mem_flatMap.mpr ⟨rule, hrule, List.mem_append_left _ h⟩

/-- A condition on members is one of the criteria. -/
theorem Criteria.mem_conditions_of_block (hrule : rule ∈ criteria.rules)
    (hblock : block ∈ rule.blocks) (h : condition ∈ block.filters) :
    condition ∈ criteria.conditions := by
  refine List.mem_flatMap.mpr ⟨rule, hrule, List.mem_append_right _ ?_⟩
  exact List.mem_flatMap.mpr ⟨block, hblock, h⟩

end Conditions

variable {resolve : Resolver} {asOf asOf' : Date}

/-- A condition that holds on an entity holds on any other with the same attributes and the same
value in the core field that the condition refers to, each on its own date. -/
theorem Condition.HoldsOn.congr {α β : Type} [FieldSubject α] [FieldSubject β]
    {condition : Condition} {subject : α} {other : β}
    (hcore : ∀ d field, resolve condition.field condition.classification = .ok d →
      d.classification = .core → CoreField.find? d.name = some field →
      FieldSubject.coreValue subject field asOf = FieldSubject.coreValue other field asOf')
    (hflex : FieldSubject.flexFields subject = FieldSubject.flexFields other)
    (h : condition.HoldsOn resolve asOf subject) : condition.HoldsOn resolve asOf' other := by
  obtain ⟨d, value, hd, hreads, hholds⟩ := h
  refine ⟨d, value, hd, ?_, hholds⟩
  cases hreads with
  | core hclass hfound =>
    rw [hcore d _ hd hclass hfound]
    exact .core hclass hfound
  | flex hclass =>
    rw [hflex]
    exact .flex hclass
  | periodic hclass hfound =>
    rw [hflex] at hfound
    exact .periodic hclass hfound

/-- Criteria that qualify a record qualify another one where their conditions pass from household to
household, and from each member that a block is about to a member that the block is about there. -/
theorem Criteria.Qualifies.transfer {criteria : Criteria} {record other : HouseholdRecord}
    (hhousehold : ∀ condition ∈ criteria.conditions,
      condition.HoldsOn resolve asOf record.household →
        condition.HoldsOn resolve asOf' other.household)
    (hmember : ∀ block i, Block.InRange block record i →
      ∃ j, Block.InRange block other j ∧ j.withdrawn = i.withdrawn ∧
        ∀ condition ∈ criteria.conditions,
          condition.HoldsOn resolve asOf i → condition.HoldsOn resolve asOf' j)
    (h : criteria.Qualifies resolve asOf record) : criteria.Qualifies resolve asOf' other := by
  obtain ⟨rule, hrule, hfilters, hblocks⟩ := h
  refine ⟨rule, hrule, ?_, ?_⟩
  · intro condition hcondition
    exact hhousehold condition (mem_conditions_of_household hrule hcondition)
      (hfilters condition hcondition)
  · intro block hblock
    obtain ⟨i, hrange, hcurrent, hholds⟩ := hblocks block hblock
    obtain ⟨j, hrange', hwithdrawn, hpasses⟩ := hmember block i hrange
    refine ⟨j, hrange', hwithdrawn.trans hcurrent, ?_⟩
    intro condition hcondition
    exact hpasses condition (mem_conditions_of_block hrule hblock hcondition)
      (hholds condition hcondition)

end Beneficiary
