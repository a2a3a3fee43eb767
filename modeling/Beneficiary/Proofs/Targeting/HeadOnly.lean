import Beneficiary.Proofs.Criteria.HeadOnly
import Beneficiary.Proofs.Store.Reading
import Beneficiary.Proofs.Targeting.Accounting
import Beneficiary.Proofs.Targeting.Agreement

/-!
# Heads of persons

In a program of persons a household is registered with one member, who is its head whatever the
registration states, and it is withdrawn with this member. So in the population of such a program
everyone is a head, and to ask for the head is to ask for anyone.
-/

namespace Beneficiary

/-- The request with the flag for the head turned over in the chosen blocks. -/
def TargetingRequest.flipHeads (chosen : Nat → Nat → Bool) (request : TargetingRequest) :
    TargetingRequest :=
  { request with criteria := request.criteria.flipHeads chosen }

/-- Criteria that differ in the flags for the head alone have the same summary. -/
theorem TargetingSummary.of_ofAnyMember_eq {criteria other : Criteria}
    {targeting targeting' : Targeting} (hcriteria : other.ofAnyMember = criteria.ofAnyMember)
    (hexclusions : targeting'.exclusions = targeting.exclusions) :
    of other targeting' = of criteria targeting := by
  have hrules (c : Criteria) : c.ofAnyMember.rules.length = c.rules.length := List.length_map ..
  have hfilters (c : Criteria) : c.ofAnyMember.rules.flatMap Rule.householdFilters =
      c.rules.flatMap Rule.householdFilters := List.flatMap_map ..
  have hblocks (c : Criteria) : (c.ofAnyMember.rules.flatMap Rule.blocks).length =
      (c.rules.flatMap Rule.blocks).length := by
    rw [Criteria.ofAnyMember, List.flatMap_map, List.length_flatMap, List.length_flatMap]
    simp only [Rule.ofAnyMember, List.length_map]
  unfold of
  rw [← hrules, ← hfilters, ← hblocks, hcriteria, hrules, hfilters, hblocks, hexclusions]

namespace Store

variable {s : Store} {program : Program}

/-- In the population of a program of persons every household has one member, its head. -/
theorem hasOnlyHead_of_mem_population (hs : s.Populated) (hp : program ∈ s.programs)
    (hmode : program.mode = .person) {record : HouseholdRecord}
    (h : record ∈ s.population program.id) : record.HasOnlyHead := by
  rw [population_eq hs] at h
  obtain ⟨household, hh, rfl⟩ := List.mem_map.mp h
  obtain ⟨i, hi⟩ := exists_members_eq_singleton hs hp hmode hh
  obtain ⟨hmem, hprogram, -⟩ := mem_currentHouseholds.mp hh
  obtain ⟨j, hj, hhead, -⟩ := hs.person_member program hp hmode household hmem hprogram
  -- the current member is the one that the household was registered with
  have hij : i = j := by
    have hmember : i ∈ s.members household.id := by simp [hi]
    rw [members_eq hs, hj] at hmember
    exact List.mem_singleton.mp (List.mem_of_mem_filter hmember)
  refine ⟨i, hi, ?_⟩
  apply HouseholdRecord.head?_eq_some
  · simp [currentRecord, hi]
  · simp [currentRecord, hi]
  · rw [hij]
    exact hhead

/-- Requests that differ in the flags for the head alone compile together, for the same program, to
predicates that differ in the flags alone. -/
theorem exists_compileTargeting_of_ofAnyMember_eq {programId : Uuid}
    {request other : TargetingRequest} {asOf : Date} {targeting : Targeting}
    (hcriteria : other.criteria.ofAnyMember = request.criteria.ofAnyMember)
    (hexclusions : other.exclusions = request.exclusions)
    (h : s.compileTargeting programId request asOf = .ok (program, targeting)) :
    ∃ targeting', s.compileTargeting programId other asOf = .ok (program, targeting') ∧
      targeting'.predicate.ofAnyMember = targeting.predicate.ofAnyMember ∧
      targeting'.exclusions = targeting.exclusions := by
  obtain ⟨hprogram, exclusions, hstated, hpredicate, hset⟩ := compileTargeting_eq_ok_iff.mp h
  obtain ⟨predicate, hother, hsame⟩ :=
    Criteria.exists_compile_of_ofAnyMember_eq hcriteria hpredicate
  refine ⟨{ predicate, exclusions := targeting.exclusions }, ?_, hsame, rfl⟩
  exact compileTargeting_eq_ok_iff.mpr ⟨hprogram, exclusions, hexclusions ▸ hstated, hother, hset⟩

/-- On the population of a program of persons, predicates that differ in the flags for the head
alone give the same preview. -/
theorem preview_of_ofAnyMember_eq (hs : s.Populated) (hp : program ∈ s.programs)
    (hmode : program.mode = .person) {targeting targeting' : Targeting}
    (hpredicate : targeting'.predicate.ofAnyMember = targeting.predicate.ofAnyMember)
    (hexclusions : targeting'.exclusions = targeting.exclusions) (asOf : Date) :
    TargetingPreview.of program asOf targeting' (s.population program.id) =
      TargetingPreview.of program asOf targeting (s.population program.id) := by
  have hqualifies : ∀ record ∈ s.population program.id,
      targeting'.qualifies record = targeting.qualifies record := by
    intro record hrecord
    have halone := hasOnlyHead_of_mem_population hs hp hmode hrecord
    rw [Targeting.qualifies, ← Predicate.holds_ofAnyMember halone, hpredicate,
      Predicate.holds_ofAnyMember halone, Targeting.qualifies]
  obtain ⟨-, hpartition⟩ := Targeting.select_partition_congr hexclusions hqualifies
  unfold TargetingPreview.of
  rw [hpartition]

/-- In a program of persons it does not matter which blocks are for the head alone. Turning the flag
over in any of the blocks of an accepted request leaves it accepted, with the same summary, and
leaves its preview as it is on every date. -/
theorem head_flags_irrelevant_to_persons {programId : Uuid} {request : TargetingRequest}
    {day : Date} {summary : TargetingSummary} (hs : s.Reachable)
    (hprogram : s.program? programId = some program) (hmode : program.mode = .person)
    (haccepted : s.validate programId request day = .ok summary) (chosen : Nat → Nat → Bool)
    (asOf : Date) :
    s.validate programId (request.flipHeads chosen) asOf = .ok summary ∧
      ∃ preview, s.preview programId request asOf = .ok preview ∧
        s.preview programId (request.flipHeads chosen) asOf = .ok preview := by
  obtain ⟨-, hpopulated⟩ := hs.invariants
  obtain ⟨hp, rfl⟩ := mem_of_program? hprogram
  obtain ⟨p, targeting, hcompiled, rfl⟩ := validate_eq_ok_iff.mp haccepted
  obtain rfl : program = p :=
    Option.some.inj (hprogram.symm.trans (compileTargeting_eq_ok_iff.mp hcompiled).1)
  have hcompiled := compileTargeting_onDate hcompiled asOf
  have hcriteria : (request.flipHeads chosen).criteria.ofAnyMember =
      request.criteria.ofAnyMember := Criteria.ofAnyMember_flipHeads chosen request.criteria
  obtain ⟨targeting', hflipped, hpredicate, hexclusions⟩ :=
    exists_compileTargeting_of_ofAnyMember_eq hcriteria rfl hcompiled
  constructor
  · refine validate_eq_ok_iff.mpr ⟨program, targeting', hflipped, ?_⟩
    exact (TargetingSummary.of_ofAnyMember_eq hcriteria hexclusions).symm
  · refine ⟨_, preview_of_compileTargeting hcompiled, ?_⟩
    rw [preview_of_compileTargeting hflipped,
      preview_of_ofAnyMember_eq hpopulated hp hmode hpredicate hexclusions]

/-- A request for households that a woman heads and where someone, be it another, is no man. -/
def womenRequest : TargetingRequest :=
  { criteria :=
      { rules :=
          [{ householdFilters := []
             blocks :=
              [{ headOnly := true, filters := [.core "sex" .equals ["FEMALE"]] },
               { headOnly := false, filters := [.core "sex" .notEquals ["MALE"]] }] }] }
    exclusions := none }

/-- In the program of persons of the example the request may as well ask for a woman among the
members and a head who is no man. -/
theorem womenRequest_turned_over :
    exampleStore.Reachable ∧
      (∃ program, exampleStore.program? (idAfter 0) = some program ∧ program.mode = .person) ∧
      exampleStore.validate (idAfter 0) womenRequest exampleMoment.date =
        .ok { rules := 1, householdFilters := 0, blocks := 2, excludedIds := 0 } ∧
      ((womenRequest.flipHeads fun _ _ => true).criteria.rules.flatMap fun rule =>
        rule.blocks.map Block.headOnly) = [false, true] ∧
      exampleStore.validate (idAfter 0) (womenRequest.flipHeads fun _ _ => true)
          exampleMoment.date =
        .ok { rules := 1, householdFilters := 0, blocks := 2, excludedIds := 0 } ∧
      ∃ preview,
        exampleStore.preview (idAfter 0) womenRequest exampleMoment.date = .ok preview ∧
        exampleStore.preview (idAfter 0) (womenRequest.flipHeads fun _ _ => true)
          exampleMoment.date = .ok preview := by
  have hfound : ((exampleStore.program? (idAfter 0)).map Program.mode) = some .person := by
    decide +kernel
  obtain ⟨program, hprogram, hmode⟩ := Option.map_eq_some_iff.mp hfound
  have haccepted : exampleStore.validate (idAfter 0) womenRequest exampleMoment.date =
      .ok { rules := 1, householdFilters := 0, blocks := 2, excludedIds := 0 } :=
    toOption_eq_some_iff.mp (by decide +kernel)
  exact ⟨exampleStore_reachable, ⟨program, hprogram, hmode⟩, haccepted, rfl,
    head_flags_irrelevant_to_persons exampleStore_reachable hprogram hmode haccepted
      (fun _ _ => true) exampleMoment.date⟩

end Store

end Beneficiary
