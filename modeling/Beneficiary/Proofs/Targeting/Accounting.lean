import Beneficiary.Proofs.Criteria.Meaning
import Beneficiary.Proofs.Criteria.ReferenceDate
import Beneficiary.Proofs.Store.Listing

/-!
# What a preview accounts for

A preview targets each qualified household by one id: the household's own, or in a program of
persons that of its only current member. Each of these ids is listed once, as matched or as
excluded, in order of the households' registration ids; the excluded ones are those in the exclusion
list of the request.
-/

namespace Beneficiary

namespace Store

/-- The id by which a household is targeted: its own, or in a program of persons that of its only
current member. -/
def targetId? (s : Store) (mode : ProgramMode) (h : Household) : Option String :=
  match mode with
  | .household => some h.unicefId
  | .person =>
    match s.members h.id with
    | [i] => some i.unicefId
    | _ => none

/-- A current household of a program that the rules of a request qualify. -/
structure Qualified (s : Store) (program : Uuid) (targeting : Targeting) (h : Household) :
    Prop where
  registered : h ∈ s.households
  inProgram : h.programId = program
  current : h.withdrawn = false
  qualifies : targeting.qualifies (s.currentRecord h) = true

/-- Ids are those by which households are targeted, in order of the households' registration ids. -/
structure Lists (s : Store) (mode : ProgramMode) (households : List Household)
    (ids : List String) : Prop where
  ascending : households.Pairwise fun a b => a.unicefId < b.unicefId
  targets : households.map (s.targetId? mode) = ids.map some

end Store

/-- A preview counts the current households of a program and lists each qualified one by a single
id, as excluded exactly when the exclusion list has the id. -/
structure TargetingPreview.Accounts (preview : TargetingPreview) (s : Store) (program : Program)
    (targeting : Targeting) : Prop where
  total : preview.totalCandidates =
    s.households.countP fun h => h.programId == program.id && !h.withdrawn
  distinct : (preview.matchedIds ++ preview.excludedIds).Nodup
  listed : ∃ matched excluded, s.Lists program.mode matched preview.matchedIds ∧
    s.Lists program.mode excluded preview.excludedIds ∧ (matched ++ excluded).Nodup ∧
    ∀ h, h ∈ matched ++ excluded ↔ s.Qualified program.id targeting h
  bounded : preview.matchedIds.length + preview.excludedIds.length ≤ preview.totalCandidates
  excluded_iff : ∀ id, id ∈ preview.excludedIds ↔
    (∃ h, s.Qualified program.id targeting h ∧ s.targetId? program.mode h = some id) ∧
      id ∈ targeting.exclusions.set.ids

namespace Store

variable {s : Store} {program : Program} {targeting : Targeting}

/-- The current households of a program that the rules of a request qualify, by registration id. -/
def qualifiedHouseholds (s : Store) (program : Uuid) (targeting : Targeting) : List Household :=
  (s.currentHouseholds program).filter fun h => targeting.qualifies (s.currentRecord h)

/-- The households that a request selects, by registration id. -/
def selectedHouseholds (s : Store) (program : Uuid) (targeting : Targeting) : List Household :=
  (s.qualifiedHouseholds program targeting).filter fun h =>
    !targeting.exclusions.excludes (s.currentRecord h)

/-- The households that a request qualifies but excludes, by registration id. -/
def excludedHouseholds (s : Store) (program : Uuid) (targeting : Targeting) : List Household :=
  (s.qualifiedHouseholds program targeting).filter fun h =>
    targeting.exclusions.excludes (s.currentRecord h)

/-- The exclusions of a request are the stated ids, or none, in the mode of the program. -/
theorem exclusionsFor_eq {stated : Option ExclusionSpec} {exclusions : ExclusionSpec}
    (h : exclusionsFor program stated = .ok exclusions) :
    exclusions = { ids := stated.elim [] ExclusionSpec.ids, mode := program.mode } := by
  cases stated with
  | none => exact (Except.ok.inj h).symm
  | some spec =>
    by_cases hmode : spec.mode = program.mode
    · rw [exclusionsFor, if_pos hmode] at h
      obtain rfl := Except.ok.inj h
      rw [← hmode]
      rfl
    · rw [exclusionsFor, if_neg hmode] at h
      cases h

/-- A request compiles exactly when the program exists, the exclusions are of its mode, and the
criteria compile against its schema. -/
theorem compileTargeting_eq_ok_iff {programId : Uuid} {request : TargetingRequest} {asOf : Date} :
    s.compileTargeting programId request asOf = .ok (program, targeting) ↔
      s.program? programId = some program ∧
        ∃ exclusions, exclusionsFor program request.exclusions = .ok exclusions ∧
          request.criteria.compile (s.schemaOf programId).resolve asOf =
            .ok targeting.predicate ∧
          targeting.exclusions = .ofSpec exclusions := by
  unfold compileTargeting
  simp only [bind_eq_ok_iff, requireProgram_eq_ok_iff, mapError_eq_ok_iff, Targeting.compile,
    map_eq_ok_iff, pure, Except.pure, Except.ok.injEq, Prod.mk.injEq]
  constructor
  · rintro ⟨p, hp, exclusions, hexclusions, t, ⟨predicate, hpredicate, rfl⟩, rfl, rfl⟩
    exact ⟨hp, exclusions, hexclusions, hpredicate, rfl⟩
  · rintro ⟨hp, exclusions, hexclusions, hpredicate, hset⟩
    refine ⟨program, hp, exclusions, hexclusions, targeting, ⟨_, hpredicate, ?_⟩, rfl, rfl⟩
    rw [← hset]

/-- A request that compiles on one date compiles on any other, with the same exclusions. -/
theorem compileTargeting_onDate {programId : Uuid} {request : TargetingRequest} {a : Date}
    (h : s.compileTargeting programId request a = .ok (program, targeting)) (b : Date) :
    s.compileTargeting programId request b =
      .ok (program, { targeting with predicate := targeting.predicate.onDate b }) := by
  obtain ⟨hp, exclusions, hexclusions, hpredicate, hset⟩ := compileTargeting_eq_ok_iff.mp h
  refine compileTargeting_eq_ok_iff.mpr ⟨hp, exclusions, hexclusions, ?_, hset⟩
  rw [Criteria.compile_onDate _ a b, hpredicate]
  rfl

/-- A request is accepted exactly when it compiles. -/
theorem validate_eq_ok_iff {programId : Uuid} {request : TargetingRequest} {asOf : Date}
    {summary : TargetingSummary} :
    s.validate programId request asOf = .ok summary ↔
      ∃ program targeting, s.compileTargeting programId request asOf = .ok (program, targeting) ∧
        summary = .of request.criteria targeting := by
  unfold validate
  simp only [bind_eq_ok_iff, pure, Except.pure, Except.ok.injEq, Prod.exists]
  constructor
  · rintro ⟨program, targeting, h, rfl⟩
    exact ⟨program, targeting, h, rfl⟩
  · rintro ⟨program, targeting, h, rfl⟩
    exact ⟨program, targeting, h, rfl⟩

/-- A request that is accepted on one date compiles on any other, with as many exclusions as its
summary states. -/
theorem exists_compileTargeting_of_validate {programId : Uuid} {request : TargetingRequest}
    {day : Date} {summary : TargetingSummary}
    (h : s.validate programId request day = .ok summary) (asOf : Date) :
    ∃ program targeting, s.compileTargeting programId request asOf = .ok (program, targeting) ∧
      summary.excludedIds = targeting.exclusions.set.size := by
  obtain ⟨program, targeting, hcompiled, rfl⟩ := validate_eq_ok_iff.mp h
  exact ⟨program, _, compileTargeting_onDate hcompiled asOf, rfl⟩

/-- A request that compiles has the preview of its program's population. -/
theorem preview_of_compileTargeting {programId : Uuid} {request : TargetingRequest} {asOf : Date}
    (h : s.compileTargeting programId request asOf = .ok (program, targeting)) :
    s.preview programId request asOf =
      .ok (.of program asOf targeting (s.population programId)) := by
  rw [preview, h]
  rfl

/-- A current household is targeted by one id, on which its being excluded depends. -/
theorem exists_targetId? (hs : s.Populated) (hp : program ∈ s.programs) {h : Household}
    (hh : h ∈ s.currentHouseholds program.id) :
    ∃ id, s.targetId? program.mode h = some id ∧
      (s.currentRecord h).targetIds program.mode = [id] ∧
      ∀ filter : ExclusionFilter, filter.mode = program.mode →
        (filter.excludes (s.currentRecord h) = true ↔ id ∈ filter.set.ids) := by
  cases hmode : program.mode with
  | household =>
    refine ⟨h.unicefId, rfl, rfl, ?_⟩
    intro filter hfilter
    simp [ExclusionFilter.excludes, hfilter, currentRecord]
  | person =>
    obtain ⟨i, hi⟩ := exists_members_eq_singleton hs hp hmode hh
    have hcurrent : i.withdrawn = false := by
      have hmem : i ∈ s.members h.id := by simp [hi]
      exact (mem_members.mp hmem).2.2
    refine ⟨i.unicefId, by simp [targetId?, hi], ?_, ?_⟩
    · simp [HouseholdRecord.targetIds, currentRecord, hi, hcurrent]
    · intro filter hfilter
      simp [ExclusionFilter.excludes, hfilter, currentRecord, hi]

/-- In a program of persons the id that targets a household is that of an individual of it. -/
theorem exists_individual_of_targetId? {h : Household} {id : String}
    (htarget : s.targetId? .person h = some id) :
    ∃ i ∈ s.individuals, i.householdId = h.id ∧ i.unicefId = id := by
  simp only [targetId?] at htarget
  split at htarget
  · next i hi =>
    have hmem : i ∈ s.members h.id := by simp [hi]
    obtain ⟨hi, hid, -⟩ := mem_members.mp hmem
    exact ⟨i, hi, hid, Option.some.inj htarget⟩
  · cases htarget

/-- Registered households that are targeted by the same id are the same. -/
theorem targetId?_inj (hkeyed : s.Keyed) (hs : s.Populated) {mode : ProgramMode}
    {a b : Household} (ha : a ∈ s.households) (hb : b ∈ s.households) {id : String}
    (hida : s.targetId? mode a = some id) (hidb : s.targetId? mode b = some id) : a = b := by
  cases mode with
  | household =>
    have hid : a.unicefId = b.unicefId := Option.some.inj (hida.trans hidb.symm)
    exact List.inj_on_of_nodup_map hs.household_ids ha hb hid
  | person =>
    obtain ⟨i, hi, hia, hid⟩ := exists_individual_of_targetId? hida
    obtain ⟨j, hj, hjb, hjd⟩ := exists_individual_of_targetId? hidb
    obtain rfl := List.inj_on_of_nodup_map hs.individual_ids hi hj (hid.trans hjd.symm)
    exact List.inj_on_of_nodup_map hkeyed.households ha hb (hia.symm.trans hjb)

/-- The ids of current households are those by which they are targeted. -/
theorem map_some_targetIds (hs : s.Populated) (hp : program ∈ s.programs)
    {households : List Household} (hsub : households ⊆ s.currentHouseholds program.id) :
    households.map (s.targetId? program.mode) =
      ((households.map s.currentRecord).flatMap fun record =>
        record.targetIds program.mode).map some := by
  induction households with
  | nil => rfl
  | cons h rest ih =>
    obtain ⟨hh, hrest⟩ := List.cons_subset.mp hsub
    obtain ⟨id, htarget, hids, -⟩ := exists_targetId? hs hp hh
    rw [List.map_cons, List.map_cons, List.flatMap_cons, List.map_append, ← ih hrest, htarget,
      hids]
    rfl

/-- Some current households are listed by the ids that target them. -/
theorem lists_of_sublist (hs : s.Populated) (hp : program ∈ s.programs)
    {households : List Household} (hsub : households.Sublist (s.currentHouseholds program.id)) :
    s.Lists program.mode households
      ((households.map s.currentRecord).flatMap fun record => record.targetIds program.mode) where
  ascending := (strict_currentHouseholds hs program.id).sublist hsub
  targets := map_some_targetIds hs hp hsub.subset

/-- A household is among those that qualify exactly when it is current and qualified. -/
theorem mem_qualifiedHouseholds {id : Uuid} {h : Household} :
    h ∈ s.qualifiedHouseholds id targeting ↔ s.Qualified id targeting h := by
  rw [qualifiedHouseholds, List.mem_filter, mem_currentHouseholds]
  constructor
  · rintro ⟨⟨hmem, hprogram, hcurrent⟩, hqualifies⟩
    exact ⟨hmem, hprogram, hcurrent, hqualifies⟩
  · rintro ⟨hmem, hprogram, hcurrent, hqualifies⟩
    exact ⟨⟨hmem, hprogram, hcurrent⟩, hqualifies⟩

/-- A partition of the population is one of the households that qualify. -/
theorem partition_population (hs : s.Populated) (program : Uuid) (targeting : Targeting) :
    targeting.partition (s.population program) =
      ((s.selectedHouseholds program targeting).map s.currentRecord,
        (s.excludedHouseholds program targeting).map s.currentRecord) := by
  unfold Targeting.partition selectedHouseholds excludedHouseholds qualifiedHouseholds
  rw [List.partition_eq_filter_filter, population_eq hs, List.filter_map, List.filter_map,
    List.filter_map]
  congr 3
  funext h
  exact Bool.not_not _

/-- Each household that qualifies is either selected or excluded. -/
theorem selected_append_excluded_perm (s : Store) (program : Uuid) (targeting : Targeting) :
    (s.selectedHouseholds program targeting ++ s.excludedHouseholds program targeting).Perm
      (s.qualifiedHouseholds program targeting) := by
  have h := List.filter_append_perm
    (fun h => !targeting.exclusions.excludes (s.currentRecord h))
    (s.qualifiedHouseholds program targeting)
  simp only [Bool.not_not] at h
  exact h

/-- Households of different registration are targeted by different ids. -/
theorem Lists.nodup_append (hkeyed : s.Keyed) (hs : s.Populated) (hp : program ∈ s.programs)
    {as bs : List Household} {aids bids : List String} (ha : s.Lists program.mode as aids)
    (hb : s.Lists program.mode bs bids) (hnodup : (as ++ bs).Nodup)
    (hsub : as ++ bs ⊆ s.currentHouseholds program.id) : (aids ++ bids).Nodup := by
  refine List.Nodup.of_map some ?_
  rw [List.map_append, ← ha.targets, ← hb.targets, ← List.map_append]
  refine List.Nodup.map_on ?_ hnodup
  intro x hx y hy hxy
  obtain ⟨id, hid, -⟩ := exists_targetId? hs hp (hsub hx)
  exact targetId?_inj hkeyed hs (mem_currentHouseholds.mp (hsub hx)).1
    (mem_currentHouseholds.mp (hsub hy)).1 hid (hxy ▸ hid)

/-- As many ids are listed as there are households. -/
theorem Lists.length_eq {mode : ProgramMode} {households : List Household} {ids : List String}
    (h : s.Lists mode households ids) : ids.length = households.length := by
  simpa using (congrArg List.length h.targets).symm

/-- An id is listed exactly when it targets one of the households. -/
theorem Lists.mem_iff {mode : ProgramMode} {households : List Household} {ids : List String}
    (h : s.Lists mode households ids) {id : String} :
    id ∈ ids ↔ ∃ h ∈ households, s.targetId? mode h = some id := by
  rw [← List.mem_map, h.targets]
  simp

section Preview

variable {preview : TargetingPreview}

/-- A preview that lists the selected and the excluded households lists as many ids as households
qualify. -/
theorem length_add_length
    (hmatched : s.Lists program.mode (s.selectedHouseholds program.id targeting)
      preview.matchedIds)
    (hexcluded : s.Lists program.mode (s.excludedHouseholds program.id targeting)
      preview.excludedIds) :
    preview.matchedIds.length + preview.excludedIds.length =
      (s.qualifiedHouseholds program.id targeting).length := by
  rw [hmatched.length_eq, hexcluded.length_eq, ← List.length_append]
  exact (selected_append_excluded_perm s program.id targeting).length_eq

/-- An id is listed as excluded exactly when it targets a qualified household and is in the
exclusion list. -/
theorem mem_excludedIds_iff (hs : s.Populated) (hp : program ∈ s.programs)
    (hmode : targeting.exclusions.mode = program.mode)
    (hexcluded : s.Lists program.mode (s.excludedHouseholds program.id targeting)
      preview.excludedIds) (id : String) :
    id ∈ preview.excludedIds ↔
      (∃ h, s.Qualified program.id targeting h ∧ s.targetId? program.mode h = some id) ∧
        id ∈ targeting.exclusions.set.ids := by
  have hlisted {h : Household} (hq : s.Qualified program.id targeting h)
      (htarget : s.targetId? program.mode h = some id) :
      targeting.exclusions.excludes (s.currentRecord h) = true ↔
        id ∈ targeting.exclusions.set.ids := by
    obtain ⟨id', htarget', -, hiff⟩ := exists_targetId? hs hp
      (mem_currentHouseholds.mpr ⟨hq.registered, hq.inProgram, hq.current⟩)
    obtain rfl := Option.some.inj (htarget.symm.trans htarget')
    exact hiff _ hmode
  rw [hexcluded.mem_iff]
  constructor
  · rintro ⟨h, hh, htarget⟩
    obtain ⟨hqualified, hexcludes⟩ := List.mem_filter.mp hh
    have hq := mem_qualifiedHouseholds.mp hqualified
    exact ⟨⟨h, hq, htarget⟩, (hlisted hq htarget).mp hexcludes⟩
  · rintro ⟨⟨h, hq, htarget⟩, hid⟩
    refine ⟨h, List.mem_filter.mpr ⟨mem_qualifiedHouseholds.mpr hq, ?_⟩, htarget⟩
    exact (hlisted hq htarget).mpr hid

/-- A preview that counts the current households and lists the selected and the excluded ones
accounts for a request. -/
theorem accounts_of_lists (hkeyed : s.Keyed) (hs : s.Populated) (hp : program ∈ s.programs)
    (hmode : targeting.exclusions.mode = program.mode)
    (htotal : preview.totalCandidates = (s.currentHouseholds program.id).length)
    (hmatched : s.Lists program.mode (s.selectedHouseholds program.id targeting)
      preview.matchedIds)
    (hexcluded : s.Lists program.mode (s.excludedHouseholds program.id targeting)
      preview.excludedIds) : preview.Accounts s program targeting := by
  have hperm := selected_append_excluded_perm s program.id targeting
  have hsub : (s.qualifiedHouseholds program.id targeting).Sublist
      (s.currentHouseholds program.id) := List.filter_sublist
  have hnodup : (s.selectedHouseholds program.id targeting ++
      s.excludedHouseholds program.id targeting).Nodup := by
    rw [hperm.nodup_iff]
    exact ((strict_currentHouseholds hs program.id).imp fun hlt heq =>
      hlt.ne (congrArg Household.unicefId heq)).sublist hsub
  constructor
  · rw [htotal, currentHouseholds, (sortedBy_perm _ _).length_eq, List.countP_eq_length_filter]
  · exact hmatched.nodup_append hkeyed hs hp hexcluded hnodup
      fun h hh => hsub.subset (hperm.subset hh)
  · refine ⟨_, _, hmatched, hexcluded, hnodup, fun h => ?_⟩
    rw [hperm.mem_iff, mem_qualifiedHouseholds]
  · rw [length_add_length hmatched hexcluded, htotal]
    exact hsub.length_le
  · exact mem_excludedIds_iff hs hp hmode hexcluded

end Preview

/-- The preview of a request counts the current households and lists the selected and the excluded
ones. -/
theorem preview_of_lists (targeting : Targeting) (hs : s.Populated) (hp : program ∈ s.programs)
    (asOf : Date) :
    (TargetingPreview.of program asOf targeting (s.population program.id)).totalCandidates =
        (s.currentHouseholds program.id).length ∧
      s.Lists program.mode (s.selectedHouseholds program.id targeting)
        (TargetingPreview.of program asOf targeting (s.population program.id)).matchedIds ∧
      s.Lists program.mode (s.excludedHouseholds program.id targeting)
        (TargetingPreview.of program asOf targeting (s.population program.id)).excludedIds := by
  have hsub : (s.qualifiedHouseholds program.id targeting).Sublist
      (s.currentHouseholds program.id) := List.filter_sublist
  unfold TargetingPreview.of
  rw [partition_population hs]
  refine ⟨?_, lists_of_sublist hs hp (List.filter_sublist.trans hsub),
    lists_of_sublist hs hp (List.filter_sublist.trans hsub)⟩
  simp [population_eq hs]

/-- The preview of an accepted request, on whichever date, accounts for the population of its
program: its ids are those of the households that the criteria qualify, one for each, split by the
ids parsed from the request's exclusions. A rule that asks for nothing leaves no current household
out, and no more ids are excluded than the summary of the request states. -/
theorem preview_accounts {programId : Uuid} {request : TargetingRequest} {day : Date}
    {summary : TargetingSummary} (hs : s.Reachable)
    (haccepted : s.validate programId request day = .ok summary) (asOf : Date) :
    ∃ program targeting preview,
      s.compileTargeting programId request asOf = .ok (program, targeting) ∧
      s.preview programId request asOf = .ok preview ∧
      preview.Accounts s program targeting ∧
      (∀ record, targeting.qualifies record = true ↔
        request.criteria.Qualifies (s.schemaOf programId).resolve asOf record) ∧
      targeting.exclusions.set =
        .parse (Text.joined "," (request.exclusions.elim [] ExclusionSpec.ids)) ∧
      ({ householdFilters := [], blocks := [] } ∈ request.criteria.rules →
        preview.matchedIds.length + preview.excludedIds.length = preview.totalCandidates) ∧
      preview.excludedIds.length ≤ summary.excludedIds := by
  obtain ⟨hkeyed, hs⟩ := hs.invariants
  obtain ⟨program, targeting, hcompiled, hsize⟩ :=
    exists_compileTargeting_of_validate haccepted asOf
  obtain ⟨hprogram, exclusions, hexclusions, hpredicate, hset⟩ :=
    compileTargeting_eq_ok_iff.mp hcompiled
  obtain ⟨hp, rfl⟩ := mem_of_program? hprogram
  obtain rfl := exclusionsFor_eq hexclusions
  have hmode : targeting.exclusions.mode = program.mode := by
    rw [hset]
    rfl
  have hmeaning := Criteria.holds_iff hpredicate
  obtain ⟨htotal, hmatched, hexcluded⟩ := preview_of_lists targeting hs hp asOf
  have haccounts := accounts_of_lists hkeyed hs hp hmode htotal hmatched hexcluded
  refine ⟨program, targeting, _, hcompiled, ?_, haccounts, hmeaning, ?_, ?_, ?_⟩
  · rw [preview, hcompiled]
    rfl
  · rw [hset]
    rfl
  · intro hempty
    have hall : s.qualifiedHouseholds program.id targeting = s.currentHouseholds program.id := by
      refine List.filter_eq_self.mpr fun h _ => ?_
      exact (hmeaning _).mpr (Criteria.qualifies_of_empty_rule hempty _)
    rw [length_add_length hmatched hexcluded, htotal, hall]
  · rw [hsize]
    refine List.Nodup.length_le_of_subset haccounts.distinct.of_append_right fun id hid => ?_
    exact ((haccounts.excluded_iff id).mp hid).2

/-- A request to a program of persons for everyone but a listed person. -/
def exampleRequest : TargetingRequest :=
  { criteria := { rules := [{ householdFilters := [], blocks := [] }] }
    exclusions := some { ids := ["IND-1; IND-9"], mode := .person } }

/-- The preview of the example accounts for the two current persons of its program. -/
theorem exampleRequest_accounts :
    exampleStore.Reachable ∧
      exampleStore.validate (idAfter 0) exampleRequest exampleMoment.date =
        .ok { rules := 1, householdFilters := 0, blocks := 0, excludedIds := 2 } ∧
      ∃ program targeting preview,
        exampleStore.preview (idAfter 0) exampleRequest exampleMoment.date = .ok preview ∧
        preview.Accounts exampleStore program targeting ∧
        preview.matchedIds.length + preview.excludedIds.length = preview.totalCandidates ∧
        preview.excludedIds.length ≤ 2 := by
  have haccepted : exampleStore.validate (idAfter 0) exampleRequest exampleMoment.date =
      .ok { rules := 1, householdFilters := 0, blocks := 0, excludedIds := 2 } :=
    toOption_eq_some_iff.mp (by decide +kernel)
  obtain ⟨program, targeting, preview, -, hpreview, haccounts, -, -, hcomplete, hbound⟩ :=
    preview_accounts exampleStore_reachable haccepted exampleMoment.date
  exact ⟨exampleStore_reachable, haccepted, program, targeting, preview, hpreview, haccounts,
    hcomplete List.mem_cons_self, hbound⟩

end Store

end Beneficiary
