import Beneficiary.Proofs.Targeting.Exclusion
import Beneficiary.Proofs.Text.Runs

/-!
# Exclusions as free text

The ids of free text are its maximal runs between separators, each once, in order of first
occurrence. The entries of a list of exclusions are such texts, and the filter made of them holds
what they list together: in which order they stand, how often one is repeated and where pasted text
is divided into entries makes no difference to it.
-/

namespace Beneficiary

open Text

namespace ExclusionSet

variable {text id : String}

private theorem eq_of_ids_eq {a b : ExclusionSet} (h : a.ids = b.ids) : a = b := by
  cases a
  cases b
  exact congrArg ExclusionSet.mk h

/-- The ids of free text are its maximal runs. -/
theorem mem_ids_parse :
    id ∈ (parse text).ids ↔
      ∃ before after, IsRun separatesIds text.toList before id.toList after := by
  rw [ids_parse, List.mem_eraseDups, mem_runsOf_iff]

/-- Each id is listed once. -/
theorem nodup_ids_parse (text : String) : (parse text).ids.Nodup := by
  rw [ids_parse]
  exact nodup_eraseDups _

/-- Of two ids the one listed first stands in the text at a place that the other does not
precede. -/
theorem pairwise_ids_parse (text : String) :
    (parse text).ids.Pairwise fun a b =>
      ∃ before after, IsRun separatesIds text.toList before a.toList after ∧
        ¬ ∃ start rest, IsRun separatesIds before start b.toList rest := by
  rw [ids_parse]
  refine (pairwise_eraseDups _).imp ?_
  rintro a b ⟨-, earlier, later, hsplit, hearlier⟩
  obtain ⟨first, rest, hruns, rfl, hrest⟩ := List.map_eq_append_iff.mp hsplit
  obtain ⟨run, others, rfl, rfl, -⟩ := List.map_eq_cons_iff.mp hrest
  obtain ⟨before, after, hrun, rfl⟩ := exists_isRun_of_runs hruns
  refine ⟨before, after, by rwa [String.toList_ofList], fun hb => hearlier ?_⟩
  exact List.mem_map.mpr ⟨b.toList, mem_runs_iff.mpr hb, String.ofList_toList⟩

/-- No id is empty or holds a separator. -/
theorem free_of_mem_ids_parse (h : id ∈ (parse text).ids) :
    id ≠ "" ∧ ∀ c ∈ id.toList, separatesIds c = false := by
  rw [ids_parse, List.mem_eraseDups] at h
  exact ⟨ne_empty_of_mem_runsOf h, free_of_mem_runsOf h⟩

/-- The ids of free text, joined by separators, are a text with the same ids. -/
theorem parse_joined {separator : String} (hne : separator ≠ "")
    (hseparator : ∀ c ∈ separator.toList, separatesIds c = true) (text : String) :
    parse (joined separator (parse text).ids) = parse text := by
  apply eq_of_ids_eq
  rw [ids_parse (joined _ _), runsOf_joined hne hseparator,
    flatMap_runsOf_of_free fun _ hid => free_of_mem_ids_parse hid]
  exact eraseDups_of_nodup (nodup_ids_parse text)

end ExclusionSet

/-- Entries stand in another order, one is repeated, or one is divided in two at a separator, which
is dropped; or the other way round, any number of times. -/
inductive ExclusionSpec.Regroups : List String → List String → Prop where
  | reordered {entries others : List String} (perm : entries.Perm others) :
      Regroups entries others
  | repeated {entry : String} {entries : List String} (listed : entry ∈ entries) :
      Regroups entries (entry :: entries)
  | divided {before after : List String} {first rest : String} {c : Char}
      (separates : separatesIds c = true) :
      Regroups (before ++ (first ++ String.singleton c ++ rest) :: after)
        (before ++ first :: rest :: after)
  | symm {entries others : List String} (regroups : Regroups entries others) :
      Regroups others entries
  | trans {entries others more : List String} (first : Regroups entries others)
      (second : Regroups others more) : Regroups entries more

namespace ExclusionFilter

/-- Two filters hold the same ids for the same kind of program, so they exclude the same
records. -/
structure Alike (f g : ExclusionFilter) : Prop where
  mode : f.mode = g.mode
  ids : ∀ id, id ∈ f.set.ids ↔ id ∈ g.set.ids
  size : f.set.size = g.set.size
  excludes : ∀ record, f.excludes record = g.excludes record

variable {spec : ExclusionSpec} {entries others : List String}

/-- A filter holds the ids that its entries list. -/
theorem mem_ofSpec_iff_parse {id : String} :
    id ∈ (ofSpec spec).set.ids ↔ ∃ entry ∈ spec.ids, id ∈ (ExclusionSet.parse entry).ids := by
  simp only [mem_ofSpec_iff, ExclusionSet.ids_parse, List.mem_eraseDups]

/-- A filter holds as many ids as its entries list different ones. -/
theorem size_ofSpec (spec : ExclusionSpec) :
    (ofSpec spec).set.size =
      (spec.ids.flatMap fun entry => (ExclusionSet.parse entry).ids).toFinset.card := by
  have hnodup : (ofSpec spec).set.ids.Nodup := ExclusionSet.nodup_ids_parse _
  rw [ExclusionSet.size, ← List.toFinset_card_of_nodup hnodup]
  congr 1
  ext id
  rw [List.mem_toFinset, List.mem_toFinset, mem_ofSpec_iff_parse, List.mem_flatMap]

/-- Filters of one mode with the same ids exclude the same records. -/
theorem excludes_congr {f g : ExclusionFilter} (hmode : f.mode = g.mode)
    (h : ∀ id, id ∈ f.set.ids ↔ id ∈ g.set.ids) (record : HouseholdRecord) :
    f.excludes record = g.excludes record := by
  have hcontains (id : String) : f.set.ids.contains id = g.set.ids.contains id := by
    rw [Bool.eq_iff_iff, List.contains_iff_mem, List.contains_iff_mem, h]
  simp only [excludes, hmode, hcontains]

/-- Regrouped entries list the same ids. -/
theorem mem_runsOf_regrouped (h : ExclusionSpec.Regroups entries others) (id : String) :
    (∃ entry ∈ entries, id ∈ runsOf separatesIds entry) ↔
      ∃ entry ∈ others, id ∈ runsOf separatesIds entry := by
  induction h with
  | reordered perm => simp only [perm.mem_iff]
  | repeated listed =>
    rw [List.exists_mem_cons_iff]
    constructor
    · exact .inr
    · rintro (hid | h)
      · exact ⟨_, listed, hid⟩
      · exact h
  | @divided before after first rest c separates =>
    have hdivided : runsOf separatesIds (first ++ String.singleton c ++ rest) =
        runsOf separatesIds first ++ runsOf separatesIds rest := by
      rw [runsOf, String.toList_append, String.toList_append, String.toList_singleton,
        List.append_assoc, List.singleton_append, runs_append_cons separates, List.map_append]
      rfl
    simp only [List.mem_append, List.mem_cons, or_and_right, exists_or, exists_eq_left, hdivided,
      or_assoc]
  | symm _ ih => exact ih.symm
  | trans _ _ ih ih' => exact ih.trans ih'

/-- Regrouped entries make the same filter. -/
theorem alike_of_regroups (h : ExclusionSpec.Regroups spec.ids entries) :
    (ofSpec spec).Alike (ofSpec { spec with ids := entries }) := by
  have hids (id : String) :
      id ∈ (ofSpec spec).set.ids ↔ id ∈ (ofSpec { spec with ids := entries }).set.ids := by
    rw [mem_ofSpec_iff, mem_ofSpec_iff, mem_runsOf_regrouped h]
  refine ⟨rfl, hids, ?_, excludes_congr rfl hids⟩
  exact ((List.perm_ext_iff_of_nodup (ExclusionSet.nodup_ids_parse _)
    (ExclusionSet.nodup_ids_parse _)).mpr hids).length_eq

end ExclusionFilter

/-- Free text lists its maximal runs between commas, semicolons and white space, each once, in order
of first occurrence; so no id is empty, holds a separator or is listed twice, and the ids joined by
separators list themselves. The filter of stated exclusions holds what its entries list, counts the
different ids, and does not depend on how the entries are grouped, ordered or repeated. -/
theorem exclusions_listed_by_runs (text : String) (spec : ExclusionSpec) :
    (∀ id, id ∈ (ExclusionSet.parse text).ids ↔
      ∃ before after, IsRun separatesIds text.toList before id.toList after) ∧
    (ExclusionSet.parse text).ids.Pairwise (fun a b =>
      ∃ before after, IsRun separatesIds text.toList before a.toList after ∧
        ¬ ∃ start rest, IsRun separatesIds before start b.toList rest) ∧
    (ExclusionSet.parse text).ids.Nodup ∧
    (∀ id ∈ (ExclusionSet.parse text).ids,
      id ≠ "" ∧ ∀ c ∈ id.toList, c ≠ ',' ∧ c ≠ ';' ∧ isBlank c = false) ∧
    (∀ separator, separator ≠ "" → (∀ c ∈ separator.toList, separatesIds c = true) →
      ExclusionSet.parse (joined separator (ExclusionSet.parse text).ids) =
        ExclusionSet.parse text) ∧
    (∀ id, id ∈ (ExclusionFilter.ofSpec spec).set.ids ↔
      ∃ entry ∈ spec.ids, id ∈ (ExclusionSet.parse entry).ids) ∧
    (ExclusionFilter.ofSpec spec).set.size =
      (spec.ids.flatMap fun entry => (ExclusionSet.parse entry).ids).toFinset.card ∧
    ∀ entries, ExclusionSpec.Regroups spec.ids entries →
      (ExclusionFilter.ofSpec spec).Alike (.ofSpec { spec with ids := entries }) := by
  refine ⟨fun _ => ExclusionSet.mem_ids_parse, ExclusionSet.pairwise_ids_parse text,
    ExclusionSet.nodup_ids_parse text, ?_, ?_, fun _ => ExclusionFilter.mem_ofSpec_iff_parse,
    ExclusionFilter.size_ofSpec spec, fun _ => ExclusionFilter.alike_of_regroups⟩
  · intro id hid
    obtain ⟨hne, hfree⟩ := ExclusionSet.free_of_mem_ids_parse hid
    refine ⟨hne, fun c hc => ?_⟩
    simpa [separatesIds, and_assoc] using hfree c hc
  · intro separator hne hseparator
    exact ExclusionSet.parse_joined hne hseparator text

/-- Ids pasted with every kind of separator, one of them twice. -/
def examplePaste : String := " HH-2;HH-1,\n\u3000HH-2 "

/-- Entries of which the first was pasted. -/
def exampleEntries : ExclusionSpec :=
  { ids := ["HH-2,HH-1", "HH-3"], mode := .household }

/-- The pasted text lists two ids, and so does their list with ideographic spaces. Its entries,
divided and turned round, make a filter with the same three ids. -/
theorem examplePaste_listed :
    (ExclusionSet.parse examplePaste).ids = ["HH-2", "HH-1"] ∧
      (∀ id ∈ (ExclusionSet.parse examplePaste).ids, id ≠ "") ∧
      ExclusionSet.parse (joined "\u3000;" (ExclusionSet.parse examplePaste).ids) =
        ExclusionSet.parse examplePaste ∧
      (ExclusionFilter.ofSpec exampleEntries).Alike
        (.ofSpec { exampleEntries with ids := ["HH-3", "HH-2", "HH-1"] }) ∧
      (ExclusionFilter.ofSpec exampleEntries).set.size = 3 := by
  obtain ⟨-, -, -, hfree, hjoined, -, -, hregrouped⟩ :=
    exclusions_listed_by_runs examplePaste exampleEntries
  have hdivided : ExclusionSpec.Regroups ["HH-2,HH-1", "HH-3"] ["HH-2", "HH-1", "HH-3"] :=
    @ExclusionSpec.Regroups.divided [] ["HH-3"] "HH-2" "HH-1" ',' (by decide)
  have hreordered : ExclusionSpec.Regroups ["HH-2", "HH-1", "HH-3"] ["HH-3", "HH-2", "HH-1"] :=
    .reordered (by decide)
  exact ⟨by decide +kernel, fun id hid => (hfree id hid).1,
    hjoined "\u3000;" (by decide) (by simp [separatesIds, isBlank, blankRanges]),
    hregrouped _ (hdivided.trans hreordered), by decide +kernel⟩

end Beneficiary
