import Beneficiary.Proofs.Store.Listing

/-!
# Ways of reading households

The population of a program can be read at once, household after household, or off the full listing
of the program by leaving out what is withdrawn; the records are the same, in the same order. The
head of a household is the same whether it is asked for or taken from a record.
-/

namespace Beneficiary

namespace HouseholdRecord

/-- The record without its withdrawn members. -/
def current (record : HouseholdRecord) : HouseholdRecord :=
  { record with members := record.members.filter fun i => !i.withdrawn }

variable {record : HouseholdRecord} {i : Individual}

/-- The member that the household names is the head of the record. -/
theorem head?_eq_some (h : (record.members.map Individual.id).Nodup) (hi : i ∈ record.members)
    (hhead : record.household.headId = some i.id) : record.head? = some i := by
  unfold head?
  rw [hhead]
  simpa using find?_key h hi fun _ => true

/-- Without its withdrawn members a record keeps its head, unless the head is withdrawn. -/
theorem head?_current (h : (record.members.map Individual.id).Nodup) (hi : i ∈ record.members)
    (hhead : record.household.headId = some i.id) :
    record.current.head? = if i.withdrawn then none else some i := by
  unfold head? current
  rw [hhead]
  have htest : (fun j : Individual => decide ((!j.withdrawn) = true ∧ (j.id == i.id) = true)) =
      fun j => j.id == i.id && !j.withdrawn := by
    funext j
    rw [Bool.decide_and, Bool.decide_eq_true, Bool.decide_eq_true, Bool.and_comm]
  dsimp only
  rw [List.find?_filter, htest, find?_key h hi]
  cases i.withdrawn <;> rfl

end HouseholdRecord

namespace Store

variable {s : Store}

/-- A household with all its members, withdrawn ones included. -/
def fullRecord (s : Store) (h : Household) : HouseholdRecord :=
  { household := h, members := s.allMembers h.id }

/-- The record of a household is found by the household's identifier. -/
theorem record?_eq_some (hs : s.Keyed) {h : Household} (hh : h ∈ s.households) :
    s.record? h.id = some (s.fullRecord h) := by
  rw [record?, hs.household?_eq_some hh]
  rfl

/-- The current record of a household is its full record without withdrawn members. -/
theorem currentRecord_eq (hs : s.Populated) (h : Household) :
    s.currentRecord h = (s.fullRecord h).current := by
  rw [currentRecord, members_eq hs]
  rfl

/-- The listing of a program is its households with all their members. -/
theorem records_eq (hs : s.Populated) (program : Uuid) :
    s.records program =
      (sortedBy Household.unicefId (s.households.filter fun h => h.programId == program)).map
        s.fullRecord := by
  unfold records group
  refine List.map_congr_left fun h hh => ?_
  obtain ⟨hmem, hprogram⟩ : h ∈ s.households ∧ h.programId = program := by simpa using hh
  rw [fullRecord, allMembers, filter_sortedBy_filter hs.individual_ids]
  refine congrArg _ (congrArg _ (List.filter_congr fun i _ => ?_))
  by_cases hid : i.householdId = h.id
  · rw [isRegisteredIn_of_mem hmem hprogram hid, Bool.and_true]
  · rw [beq_eq_false_iff_ne.mpr hid, Bool.false_and]

/-- The current households of a program are the listed ones that are not withdrawn. -/
theorem currentHouseholds_eq (hs : s.Populated) (program : Uuid) :
    s.currentHouseholds program =
      (sortedBy Household.unicefId (s.households.filter fun h => h.programId == program)).filter
        fun h => !h.withdrawn := by
  rw [filter_sortedBy_filter hs.household_ids, currentHouseholds]
  simp only [Bool.and_comm]

/-- The population of a program is its listing without what is withdrawn. -/
theorem population_eq_records (hs : s.Populated) (program : Uuid) :
    s.population program =
      ((s.records program).filter fun record => !record.household.withdrawn).map
        HouseholdRecord.current := by
  rw [population_eq hs, records_eq hs, currentHouseholds_eq hs, List.filter_map, List.map_map]
  exact List.map_congr_left fun h _ => currentRecord_eq hs h

/-- Members of a household have distinct identifiers. -/
theorem nodup_map_id_allMembers (hs : s.Keyed) (id : Uuid) :
    ((s.allMembers id).map Individual.id).Nodup :=
  ((sortedBy_perm _ _).map _).nodup_iff.mpr (nodup_map_filter hs.individuals _)

/-- Current members of a household have distinct identifiers. -/
theorem nodup_map_id_members (hkeyed : s.Keyed) (hs : s.Populated) (id : Uuid) :
    ((s.members id).map Individual.id).Nodup := by
  rw [members_eq hs]
  exact nodup_map_filter (nodup_map_id_allMembers hkeyed id) _

/-- The head asked for is the individual that the household names, unless it is withdrawn. -/
theorem headOf_eq (hs : s.Keyed) {h : Household} (hh : h ∈ s.households) {i : Individual}
    (hi : i ∈ s.individuals) (hhead : h.headId = some i.id) :
    s.headOf h.id = if i.withdrawn then none else some i := by
  unfold headOf
  rw [hs.household?_eq_some hh, Option.bind_eq_bind, Option.bind_some, hhead, Option.bind_eq_bind,
    Option.bind_some, find?_key hs.individuals hi]
  cases i.withdrawn <;> rfl

/-- A household has a member that is the head of its full record, is asked for as its head, and is
the head of its current record, the latter two unless it is withdrawn. -/
theorem exists_head_of_household (hkeyed : s.Keyed) (hs : s.Populated) {h : Household}
    (hh : h ∈ s.households) :
    ∃ i ∈ s.allMembers h.id, (s.fullRecord h).head? = some i ∧
      s.headOf h.id = (if i.withdrawn then none else some i) ∧
      (s.currentRecord h).head? = if i.withdrawn then none else some i := by
  obtain ⟨i, hi, hhead⟩ := hs.household_head h hh
  have hnodup := nodup_map_id_allMembers hkeyed h.id
  refine ⟨i, hi, HouseholdRecord.head?_eq_some hnodup hi hhead,
    headOf_eq hkeyed hh (mem_allMembers.mp hi).1 hhead, ?_⟩
  rw [currentRecord_eq hs]
  exact HouseholdRecord.head?_current hnodup hi hhead

/-- The ways of reading a program's households agree, for a program that exists and for any other
identifier. The population read at once is the one read household after household, and the listing
without what is withdrawn. The head of a household that is asked for is the head of its record in
the population; of a registered household it is the head of the full record unless withdrawn, so a
withdrawn household has none. -/
theorem population_reads_agree (hs : s.Reachable) (program : Uuid) :
    s.population program = s.populationByHousehold program ∧
    s.population program =
      ((s.records program).filter fun record => !record.household.withdrawn).map
        HouseholdRecord.current ∧
    (∀ record ∈ s.population program, s.headOf record.household.id = record.head?) ∧
    ∀ h ∈ s.households, ∃ record head, s.record? h.id = some record ∧ record.household = h ∧
      record.head? = some head ∧ s.headOf h.id = (if head.withdrawn then none else some head) ∧
      (h.withdrawn = true → s.headOf h.id = none) := by
  obtain ⟨hkeyed, hs⟩ := hs.invariants
  refine ⟨population_eq hs program, population_eq_records hs program, ?_, ?_⟩
  · intro record hrecord
    rw [population_eq hs] at hrecord
    obtain ⟨h, hh, rfl⟩ := List.mem_map.mp hrecord
    obtain ⟨i, -, -, hhead, hcurrent⟩ :=
      exists_head_of_household hkeyed hs (mem_currentHouseholds.mp hh).1
    exact hhead.trans hcurrent.symm
  · intro h hh
    obtain ⟨i, hi, hfull, hhead, -⟩ := exists_head_of_household hkeyed hs hh
    refine ⟨s.fullRecord h, i, record?_eq_some hkeyed hh, rfl, hfull, hhead, fun hw => ?_⟩
    rw [hhead, if_pos (hs.withdrawn_members h hh hw i hi)]

/-- The calls of the example, after which the head of the family leaves it too. -/
def abandonedCalls : List Call :=
  exampleCalls ++ [{ now := exampleMoment, operation := .withdrawIndividual (idAfter 9) }]

/-- The store that the calls leave behind. -/
def abandonedStore : Store :=
  ((Database.unmade.migrateAfter 0).after abandonedCalls).tables.getD .empty

/-- The ways of reading agree on a family that is current without any current member, and on a
withdrawn household. -/
theorem abandonedStore_reads_agree :
    abandonedStore.Reachable ∧
      abandonedStore.population (idAfter 7) = abandonedStore.populationByHousehold (idAfter 7) ∧
      (∃ record ∈ abandonedStore.population (idAfter 7),
        record.members.length = 0 ∧ abandonedStore.headOf (idAfter 8) = record.head?) ∧
      ∃ h ∈ abandonedStore.households, h.withdrawn = true ∧ abandonedStore.headOf h.id = none := by
  have hs : abandonedStore.Reachable := reachable_after abandonedCalls
  obtain ⟨hpopulation, -, hheads, hhouseholds⟩ := population_reads_agree hs (idAfter 7)
  have hwithdrawn : (abandonedStore.households.any Household.withdrawn) = true := by
    decide +kernel
  have hcurrent : ((abandonedStore.population (idAfter 7)).any fun record =>
      record.members.length == 0 && record.household.id == idAfter 8) = true := by
    cbv
  refine ⟨hs, hpopulation, ?_, ?_⟩
  · obtain ⟨record, hrecord, htest⟩ := List.any_eq_true.mp hcurrent
    obtain ⟨hmembers, hid⟩ := Bool.and_eq_true_iff.mp htest
    refine ⟨record, hrecord, by simpa using hmembers, ?_⟩
    rw [← hheads record hrecord, beq_iff_eq.mp hid]
  · obtain ⟨h, hh, hw⟩ := List.any_eq_true.mp hwithdrawn
    obtain ⟨-, -, -, -, -, -, hnone⟩ := hhouseholds h hh
    exact ⟨h, hh, hw, hnone hw⟩

end Store

end Beneficiary
