import Beneficiary.Proofs.Store.Labels
import Beneficiary.Proofs.Targeting.Accounting
import Beneficiary.Proofs.Targeting.Exclusion

/-!
# Listed ids

An id that the exclusions of a request hold is never selected. An entry without separators is such
an id. An entry with a comma, a semicolon or white space in it is cut there, so an id registered
with one of these characters is excluded by no entry, not even by one that repeats it.
-/

namespace Beneficiary

/-- An id that the exclusion list holds is not among the selected ones. -/
theorem TargetingPreview.Accounts.not_mem_matchedIds {preview : TargetingPreview} {s : Store}
    {program : Program} {targeting : Targeting} (h : preview.Accounts s program targeting)
    {id : String} (hid : id ∈ targeting.exclusions.set.ids) : id ∉ preview.matchedIds := by
  intro hmatched
  obtain ⟨matched, excluded, hlists, -, -, hqualified⟩ := h.listed
  obtain ⟨household, hmem, htarget⟩ := hlists.mem_iff.mp hmatched
  have hq := (hqualified household).mp (List.mem_append_left _ hmem)
  have hexcluded := (h.excluded_iff id).mpr ⟨⟨household, hq, htarget⟩, hid⟩
  exact (List.nodup_append.mp h.distinct).2.2 id hmatched id hexcluded rfl

namespace Store

variable {s : Store} {program : Program} {programId : Uuid} {request : TargetingRequest}
  {asOf : Date} {preview : TargetingPreview}

/-- A request has a preview exactly when it compiles. -/
theorem preview_eq_ok_iff :
    s.preview programId request asOf = .ok preview ↔
      ∃ program targeting, s.compileTargeting programId request asOf = .ok (program, targeting) ∧
        preview = .of program asOf targeting (s.population programId) := by
  unfold Store.preview
  simp only [bind_eq_ok_iff, pure, Except.pure, Except.ok.injEq, Prod.exists]
  constructor
  · rintro ⟨program, targeting, h, rfl⟩
    exact ⟨program, targeting, h, rfl⟩
  · rintro ⟨program, targeting, h, rfl⟩
    exact ⟨program, targeting, h, rfl⟩

/-- A preview accounts for the population of its program, by the exclusions that the request
states. -/
theorem accounts_of_preview (hs : s.Reachable)
    (h : s.preview programId request asOf = .ok preview) :
    ∃ program targeting, preview.Accounts s program targeting ∧
      targeting.exclusions =
        .ofSpec { ids := request.exclusions.elim [] ExclusionSpec.ids, mode := program.mode } := by
  obtain ⟨hkeyed, hpopulated⟩ := hs.invariants
  obtain ⟨program, targeting, hcompiled, rfl⟩ := preview_eq_ok_iff.mp h
  obtain ⟨hprogram, exclusions, hexclusions, -, hset⟩ := compileTargeting_eq_ok_iff.mp hcompiled
  obtain ⟨hp, rfl⟩ := mem_of_program? hprogram
  obtain rfl := exclusionsFor_eq hexclusions
  have hmode : targeting.exclusions.mode = program.mode := by
    rw [hset]
    rfl
  obtain ⟨htotal, hmatched, hexcluded⟩ := preview_of_lists targeting hpopulated hp asOf
  exact ⟨program, targeting,
    accounts_of_lists hkeyed hpopulated hp hmode htotal hmatched hexcluded, hset⟩

/-- No household is targeted by an empty id. -/
theorem Labelled.targetId?_ne_empty (hs : s.Labelled) {mode : ProgramMode} {h : Household}
    (hh : h ∈ s.households) {id : String} (htarget : s.targetId? mode h = some id) : id ≠ "" := by
  rintro rfl
  cases mode with
  | household =>
    have hblank := hs.households h hh
    rw [Option.some.inj htarget] at hblank
    cases hblank
  | person =>
    obtain ⟨i, hi, -, hid⟩ := exists_individual_of_targetId? htarget
    have hblank := hs.individuals i hi
    rw [hid] at hblank
    cases hblank

/-- No selected id is empty. -/
theorem ne_empty_of_mem_matchedIds (hs : s.Labelled) {targeting : Targeting}
    (h : preview.Accounts s program targeting) {id : String} (hid : id ∈ preview.matchedIds) :
    id ≠ "" := by
  obtain ⟨matched, excluded, hlists, -, -, hqualified⟩ := h.listed
  obtain ⟨household, hmem, htarget⟩ := hlists.mem_iff.mp hid
  have hq := (hqualified household).mp (List.mem_append_left _ hmem)
  exact hs.targetId?_ne_empty hq.registered htarget

/-- An entry of a request's exclusions that holds no separator is not among the ids that the request
selects, whatever its criteria. An id that holds a separator is never among the excluded ones. -/
theorem listed_not_matched {spec : ExclusionSpec} (hs : s.Reachable)
    (hspec : request.exclusions = some spec)
    (hpreview : s.preview programId request asOf = .ok preview) :
    (∀ id ∈ spec.ids, (∀ c ∈ id.toList, separatesIds c = false) → id ∉ preview.matchedIds) ∧
    ∀ id, (∃ c ∈ id.toList, separatesIds c = true) → id ∉ preview.excludedIds := by
  obtain ⟨program, targeting, haccounts, hset⟩ := accounts_of_preview hs hpreview
  rw [hspec, Option.elim_some] at hset
  constructor
  · intro id hid hfree hmatched
    have hne := ne_empty_of_mem_matchedIds hs.labelled haccounts hmatched
    refine haccounts.not_mem_matchedIds ?_ hmatched
    rw [hset]
    exact ExclusionFilter.mem_ofSpec_of_free hid hne hfree
  · rintro id ⟨c, hc, hseparates⟩ hexcluded
    have hheld := ((haccounts.excluded_iff id).mp hexcluded).2
    rw [hset] at hheld
    have hfree := ExclusionFilter.free_of_mem_ofSpec hheld c hc
    rw [hseparates] at hfree
    cases hfree

/-- A program with two households, one of them registered with a space in its id. -/
def spacedCalls : List Call :=
  [ .createProgram { name := "Food", businessArea := "A", mode := some .household },
    .createHousehold (idAfter 0) (exampleHousehold "HH 1" ["IND-1"]),
    .createHousehold (idAfter 0) (exampleHousehold "HH-2" ["IND-2"])
  ].map fun operation => { now := exampleMoment, operation }

/-- The store that the calls leave behind. -/
def spacedStore : Store :=
  ((Database.unmade.migrateAfter 0).after spacedCalls).tables.getD .empty

/-- A request for everyone but the two households, each by its own id. -/
def spacedRequest : TargetingRequest :=
  { criteria := { rules := [{ householdFilters := [], blocks := [] }] }
    exclusions := some { ids := ["HH 1", "HH-2"], mode := .household } }

/-- The preview of the request: the household with a space in its id is selected. -/
def spacedPreview : TargetingPreview :=
  { programId := idAfter 0
    mode := .household
    asOf := exampleMoment.date
    totalCandidates := 2
    matchedIds := ["HH 1"]
    excludedIds := ["HH-2"] }

/-- The store that the calls leave behind is reachable. -/
theorem spacedStore_reachable : spacedStore.Reachable := reachable_after spacedCalls

/-- The request is accepted with its preview. -/
theorem spacedStore_preview :
    spacedStore.preview (idAfter 0) spacedRequest exampleMoment.date = .ok spacedPreview := by
  cbv

/-- The listed household without a separator in its id is not selected, and the one with a space is
not excluded. -/
theorem spacedStore_listed :
    spacedStore.Reachable ∧
      spacedRequest.exclusions = some { ids := ["HH 1", "HH-2"], mode := .household } ∧
      spacedStore.preview (idAfter 0) spacedRequest exampleMoment.date = .ok spacedPreview ∧
      "HH-2" ∉ spacedPreview.matchedIds ∧ "HH 1" ∉ spacedPreview.excludedIds := by
  obtain ⟨hmatched, hexcluded⟩ := listed_not_matched spacedStore_reachable rfl spacedStore_preview
  have hfree : ∀ c ∈ "HH-2".toList, separatesIds c = false := by
    simp [separatesIds, Text.isBlank, Text.blankRanges]
  exact ⟨spacedStore_reachable, rfl, spacedStore_preview, hmatched "HH-2" (by simp) hfree,
    hexcluded "HH 1" ⟨' ', by decide, by decide⟩⟩

/-- A household may be listed by its own id, as it is registered, and still be selected. -/
theorem spacedId_listed_and_matched :
    spacedStore.Reachable ∧
      (∃ h ∈ spacedStore.households, h.programId = idAfter 0 ∧ h.unicefId = "HH 1") ∧
      (∃ spec, spacedRequest.exclusions = some spec ∧ spec.mode = .household ∧
        "HH 1" ∈ spec.ids) ∧
      ∃ preview, spacedStore.preview (idAfter 0) spacedRequest exampleMoment.date = .ok preview ∧
        preview.mode = .household ∧ "HH 1" ∈ preview.matchedIds := by
  have hstored : (spacedStore.households.any fun h =>
      h.programId == idAfter 0 && h.unicefId == "HH 1") = true := by decide +kernel
  refine ⟨spacedStore_reachable, ?_, ⟨_, rfl, rfl, List.mem_cons_self⟩, spacedPreview,
    spacedStore_preview, rfl, List.mem_cons_self⟩
  simpa using hstored

end Store

end Beneficiary
