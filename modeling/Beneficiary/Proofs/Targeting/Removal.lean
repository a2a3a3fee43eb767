import Beneficiary.Proofs.Targeting.Complement
import Beneficiary.Proofs.Targeting.FreeText

/-!
# Removing what is excluded

What a request excludes is removed from what its rules qualify in one of four ways: records are
selected by both tests at once, split in two, filtered afterwards, or left alone when nothing is
excluded. All come to the same records. A filter looks at a record only for the ids that it holds,
so filters made of lists compose as their lists do: in either order, or made of both lists at once.
-/

namespace Beneficiary

open Text

/-- The ids by which a record can be excluded: the household's, or in programs of persons those of
its members, withdrawn ones included. -/
def HouseholdRecord.exclusionIds (record : HouseholdRecord) : ProgramMode → List String
  | .household => [record.household.unicefId]
  | .person => record.members.map Individual.unicefId

/-- An entry of the stated exclusions lists an id of the record. -/
def ExclusionSpec.Lists (spec : ExclusionSpec) (record : HouseholdRecord) : Prop :=
  ∃ entry ∈ spec.ids, ∃ id ∈ record.exclusionIds spec.mode, id ∈ (ExclusionSet.parse entry).ids

namespace ExclusionFilter

variable {f g h : ExclusionFilter} {record : HouseholdRecord}

/-- A record is excluded exactly by an id of its own that the filter holds. -/
theorem excludes_iff :
    f.excludes record = true ↔ ∃ id ∈ record.exclusionIds f.mode, id ∈ f.set.ids := by
  unfold excludes
  cases f.mode <;> simp [HouseholdRecord.exclusionIds]

/-- A filter of stated exclusions excludes the records that these list. -/
theorem excludes_ofSpec_iff {spec : ExclusionSpec} :
    (ofSpec spec).excludes record = true ↔ spec.Lists record := by
  have hmode : (ofSpec spec).mode = spec.mode := rfl
  simp only [excludes_iff, mem_ofSpec_iff_parse, hmode, ExclusionSpec.Lists]
  constructor
  · rintro ⟨id, hid, entry, hentry, hlisted⟩
    exact ⟨entry, hentry, id, hid, hlisted⟩
  · rintro ⟨entry, hentry, id, hid, hlisted⟩
    exact ⟨id, hid, entry, hentry, hlisted⟩

/-- A filter with the ids of two excludes what either of them does. -/
theorem excludes_eq_or (hf : f.mode = h.mode) (hg : g.mode = h.mode)
    (hids : ∀ id, id ∈ h.set.ids ↔ id ∈ f.set.ids ∨ id ∈ g.set.ids) (record : HouseholdRecord) :
    h.excludes record = (f.excludes record || g.excludes record) := by
  rw [Bool.eq_iff_iff, Bool.or_eq_true, excludes_iff, excludes_iff, excludes_iff, hf, hg]
  simp only [hids, and_or_left, exists_or]

/-- Two filters in turn remove what one with the ids of both does. -/
theorem apply_apply (hf : f.mode = h.mode) (hg : g.mode = h.mode)
    (hids : ∀ id, id ∈ h.set.ids ↔ id ∈ f.set.ids ∨ id ∈ g.set.ids)
    (records : List HouseholdRecord) : g.apply (f.apply records) = h.apply records := by
  unfold apply
  rw [List.filter_filter]
  refine List.filter_congr fun record _ => ?_
  rw [excludes_eq_or hf hg hids, Bool.not_or, Bool.and_comm]

/-- A filter with more ids keeps none but records that one with fewer does. -/
theorem apply_sublist_apply (hmode : f.mode = g.mode) (hids : f.set.ids ⊆ g.set.ids)
    (records : List HouseholdRecord) : (g.apply records).Sublist (f.apply records) := by
  have hjoined : ∀ id, id ∈ g.set.ids ↔ id ∈ f.set.ids ∨ id ∈ g.set.ids := by
    intro id
    rw [or_iff_right_of_imp fun hid => hids hid]
  -- the filter with more ids is the one with fewer, followed by itself
  rw [← apply_apply hmode rfl hjoined]
  exact List.filter_sublist

/-- A filter without ids keeps every record. -/
theorem apply_of_nil (hf : f.set.ids = []) (records : List HouseholdRecord) :
    f.apply records = records := by
  refine List.filter_eq_self.mpr fun record _ => ?_
  rw [Bool.not_eq_true', ← Bool.not_eq_true, excludes_iff, hf]
  simp

/-- Leaving records alone where a set holds no ids comes to the same as filtering them. -/
theorem removeFrom_eq_apply (f : ExclusionFilter) (records : List HouseholdRecord) :
    f.set.removeFrom f.mode records = f.apply records := by
  unfold ExclusionSet.removeFrom
  split
  · next hempty => exact (apply_of_nil (List.isEmpty_iff.mp hempty) records).symm
  · rfl

/-- Filters made of lists of ids compose as the lists do. -/
structure Composes (filter : List String → ExclusionFilter) : Prop where
  joined : ∀ a b records,
    (filter b).apply ((filter a).apply records) = (filter (a ++ b)).apply records
  turned : ∀ a b records,
    (filter a).apply ((filter b).apply records) = (filter (a ++ b)).apply records
  twice : ∀ a records, (filter a).apply ((filter a).apply records) = (filter a).apply records
  shrinks : ∀ a b, a ⊆ b → ∀ records,
    ((filter b).apply records).Sublist ((filter a).apply records)
  empty : ∀ records, (filter []).apply records = records
  removed : ∀ a records,
    (filter a).set.removeFrom (filter a).mode records = (filter a).apply records

/-- Filters of one mode compose when each holds what the entries of its list contribute, one by
one. -/
theorem composes_of_mem_iff {filter : List String → ExclusionFilter} {mode : ProgramMode}
    {contributes : String → String → Prop} (hmode : ∀ ids, (filter ids).mode = mode)
    (hids : ∀ ids id, id ∈ (filter ids).set.ids ↔ ∃ entry ∈ ids, contributes entry id) :
    Composes filter := by
  have hsame (a b : List String) : (filter a).mode = (filter b).mode :=
    (hmode a).trans (hmode b).symm
  constructor
  · intro a b
    refine apply_apply (hsame _ _) (hsame _ _) fun id => ?_
    simp only [hids, List.mem_append, or_and_right, exists_or]
  · intro a b
    refine apply_apply (hsame _ _) (hsame _ _) fun id => ?_
    rw [or_comm]
    simp only [hids, List.mem_append, or_and_right, exists_or]
  · intro a
    exact apply_apply rfl rfl fun id => (or_self_iff).symm
  · intro a b hsubset
    refine apply_sublist_apply (hsame _ _) fun id hid => ?_
    obtain ⟨entry, hentry, hcontributes⟩ := (hids a id).mp hid
    exact (hids b id).mpr ⟨entry, hsubset hentry, hcontributes⟩
  · refine apply_of_nil (List.eq_nil_iff_forall_not_mem.mpr fun id hid => ?_)
    obtain ⟨entry, hentry, -⟩ := (hids [] id).mp hid
    cases hentry
  · exact fun a => removeFrom_eq_apply (filter a)

/-- The ids of a list are its entries without white space at their ends, unless nothing is left. -/
theorem mem_ids_ofList {ids : List String} {id : String} :
    id ∈ (ExclusionSet.ofList ids).ids ↔ ∃ entry ∈ ids, trimmed entry = id ∧ id ≠ "" := by
  have hempty : id.isEmpty = false ↔ id ≠ "" := by simp
  rw [ExclusionSet.ofList, List.mem_eraseDups, List.mem_filter, List.mem_map, Bool.not_eq_true',
    hempty]
  constructor
  · rintro ⟨⟨entry, hentry, htrimmed⟩, hne⟩
    exact ⟨entry, hentry, htrimmed, hne⟩
  · rintro ⟨entry, hentry, htrimmed, hne⟩
    exact ⟨⟨entry, hentry, htrimmed⟩, hne⟩

end ExclusionFilter

namespace Targeting

variable (targeting : Targeting) (records : List HouseholdRecord)

/-- The records that the rules qualify. -/
def qualified : List HouseholdRecord := records.filter targeting.qualifies

/-- Selecting by both tests at once is filtering what the rules qualify. -/
theorem select_eq_apply :
    targeting.select records = targeting.exclusions.apply (targeting.qualified records) := by
  unfold select qualified ExclusionFilter.apply
  rw [List.filter_filter]
  refine List.filter_congr fun record _ => ?_
  rw [selects, Bool.and_comm]

/-- Splitting what the rules qualify gives what the filter keeps, and what it removes. -/
theorem partition_eq :
    targeting.partition records =
      (targeting.exclusions.apply (targeting.qualified records),
        (targeting.qualified records).filter targeting.exclusions.excludes) := by
  rw [partition, List.partition_eq_filter_filter]
  simp [qualified, ExclusionFilter.apply, Function.comp_def]

/-- What a request with stated exclusions selects and excludes among the records that its rules
qualify, in each of the ways in which they are removed. -/
structure Removes (targeting : Targeting) (spec : ExclusionSpec)
    (records : List HouseholdRecord) : Prop where
  select_eq_partition : targeting.select records = (targeting.partition records).1
  select_eq_apply :
    targeting.select records = targeting.exclusions.apply (targeting.qualified records)
  select_eq_removeFrom :
    targeting.select records =
      (ExclusionSet.parse (joined "," spec.ids)).removeFrom spec.mode (targeting.qualified records)
  selected_sublist : (targeting.partition records).1.Sublist (targeting.qualified records)
  excluded_sublist : (targeting.partition records).2.Sublist (targeting.qualified records)
  splits :
    Splits (targeting.qualified records) (targeting.partition records).1
      (targeting.partition records).2
  excluded : ∀ record, record ∈ (targeting.partition records).2 ↔
    record ∈ targeting.qualified records ∧ spec.Lists record

/-- A predicate with the filter of stated exclusions removes what these list. -/
theorem removes (predicate : Predicate) (spec : ExclusionSpec) (records : List HouseholdRecord) :
    Removes { predicate, exclusions := .ofSpec spec } spec records := by
  have hsplit := partition_eq { predicate, exclusions := .ofSpec spec } records
  have hselect := select_eq_apply { predicate, exclusions := .ofSpec spec } records
  constructor
  · rw [hsplit, hselect]
  · exact hselect
  · rw [hselect]
    exact (ExclusionFilter.removeFrom_eq_apply (.ofSpec spec) _).symm
  · rw [hsplit]
    exact List.filter_sublist
  · rw [hsplit]
    exact List.filter_sublist
  · have hsplits := splits_filter (fun r => !(ExclusionFilter.ofSpec spec).excludes r)
      (qualified { predicate, exclusions := .ofSpec spec } records)
    simp only [Bool.not_not] at hsplits
    rw [hsplit]
    exact hsplits
  · intro record
    rw [hsplit, List.mem_filter, ExclusionFilter.excludes_ofSpec_iff]

end Targeting

/-- Whatever way the excluded records are removed, the same ones are left. A compiled request, which
is a predicate with the filter of its stated exclusions, selects the first part of its split; it
selects what its filter keeps of the records that the rules qualify, and what is left of them once
the parsed ids are removed. The two parts of the split stand in these records in order, share
nothing and make them up, and the second holds those with a listed id. Filters made of lists, be
the entries cut as pasted text or trimmed as they are, compose as the lists do: one after the other
in either order they keep what the filter of both lists keeps, a filter applied twice keeps what it
keeps once, more ids keep no further record, and no ids keep every record. -/
theorem exclusions_compose (predicate : Predicate) (spec : ExclusionSpec)
    (records : List HouseholdRecord) (mode : ProgramMode) :
    Targeting.Removes { predicate, exclusions := .ofSpec spec } spec records ∧
    ExclusionFilter.Composes (fun ids => .ofSpec { ids, mode }) ∧
    ExclusionFilter.Composes (fun ids => { mode, set := .ofList ids }) := by
  refine ⟨Targeting.removes predicate spec records, ?_, ?_⟩
  · exact ExclusionFilter.composes_of_mem_iff (fun _ => rfl) fun _ _ =>
      ExclusionFilter.mem_ofSpec_iff_parse
  · exact ExclusionFilter.composes_of_mem_iff (fun _ => rfl) fun _ _ =>
      ExclusionFilter.mem_ids_ofList

end Beneficiary
