import Beneficiary.Proofs.Store.Population

/-!
# What a population lists

The population of a program is read by grouping the members of all its households. In a populated
store this gives each current household its own current members, in order of registration ids; in a
program of persons that is its single member.
-/

namespace Beneficiary

namespace Store

variable {s : Store}

/-- A household with its current members. -/
def currentRecord (s : Store) (h : Household) : HouseholdRecord :=
  { household := h, members := s.members h.id }

/-- The current members of a household are those of its members that are not withdrawn. -/
theorem members_eq (hs : s.Populated) (id : Uuid) :
    s.members id = (s.allMembers id).filter fun i => !i.withdrawn := by
  rw [allMembers, filter_sortedBy_filter hs.individual_ids, members]
  refine congrArg _ (List.filter_congr fun i _ => ?_)
  exact Bool.and_comm _ _

/-- A current member of a household is an individual of it that is not withdrawn. -/
theorem mem_members {id : Uuid} {i : Individual} :
    i ∈ s.members id ↔ i ∈ s.individuals ∧ i.householdId = id ∧ i.withdrawn = false := by
  simp [members]

/-- A current household of a program is one that is registered in it and not withdrawn. -/
theorem mem_currentHouseholds {program : Uuid} {h : Household} :
    h ∈ s.currentHouseholds program ↔
      h ∈ s.households ∧ h.programId = program ∧ h.withdrawn = false := by
  simp [currentHouseholds]

/-- Current households ascend strictly in their registration ids. -/
theorem strict_currentHouseholds (hs : s.Populated) (program : Uuid) :
    (s.currentHouseholds program).Pairwise fun a b => a.unicefId < b.unicefId :=
  strict_sortedBy (nodup_map_filter hs.household_ids _)

/-- The members of a household are registered in its program. -/
theorem isRegisteredIn_of_mem {program : Uuid} {h : Household} (hh : h ∈ s.households)
    (hprogram : h.programId = program) {i : Individual} (hi : i.householdId = h.id) :
    s.isRegisteredIn program i = true := by
  simp only [isRegisteredIn, List.any_eq_true, Bool.and_eq_true, beq_iff_eq]
  exact ⟨h, hh, hprogram, hi.symm⟩

/-- The population of a program is its current households with their current members. -/
theorem population_eq (hs : s.Populated) (program : Uuid) :
    s.population program = (s.currentHouseholds program).map s.currentRecord := by
  unfold population group currentHouseholds
  refine List.map_congr_left fun h hh => ?_
  obtain ⟨hmem, hprogram, -⟩ := mem_currentHouseholds.mp hh
  rw [currentRecord, members, filter_sortedBy_filter hs.individual_ids]
  refine congrArg _ (congrArg _ (List.filter_congr fun i _ => ?_))
  by_cases hid : i.householdId = h.id
  · rw [isRegisteredIn_of_mem hmem hprogram hid, Bool.true_and]
  · rw [beq_eq_false_iff_ne.mpr hid, Bool.false_and, Bool.false_and]

/-- A current household of a program of persons has a single current member. -/
theorem exists_members_eq_singleton (hs : s.Populated) {p : Program} (hp : p ∈ s.programs)
    (hmode : p.mode = .person) {h : Household} (hh : h ∈ s.currentHouseholds p.id) :
    ∃ i, s.members h.id = [i] := by
  obtain ⟨hmem, hprogram, hcurrent⟩ := mem_currentHouseholds.mp hh
  obtain ⟨i, hi, -, hwithdrawn⟩ := hs.person_member p hp hmode h hmem hprogram
  refine ⟨i, ?_⟩
  rw [members_eq hs, hi, List.filter_singleton, ← hwithdrawn, hcurrent]
  rfl

end Store

end Beneficiary
