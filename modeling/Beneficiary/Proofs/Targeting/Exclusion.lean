import Beneficiary.Proofs.Text.Blank
import Beneficiary.Proofs.Text.Pieces
import Beneficiary.Targeting.Exclusion

/-!
# What an exclusion list holds

Free text lists the runs of characters between its separators, each once. White space separates, so
trimming has no part in this. The entries of a list are cut one after the other: an entry without
separators lists itself, and an id that holds a separator is listed by no entry.
-/

namespace Beneficiary

open Text

/-- White space separates ids, so what separates none is no white space. -/
theorem isBlank_of_not_separatesIds {c : Char} (h : separatesIds c = false) :
    isBlank c = false := by
  rw [separatesIds, Bool.or_eq_false_iff] at h
  exact h.2

namespace ExclusionSet

/-- Free text lists its runs between separators, each once, in order of first occurrence. -/
theorem ids_parse (text : String) : (parse text).ids = (runsOf separatesIds text).eraseDups := by
  have htrimmed : ((pieces separatesIds text.toList).map String.ofList).map trimmed =
      (pieces separatesIds text.toList).map String.ofList := by
    rw [List.map_map]
    refine List.map_congr_left fun piece hpiece => trimmed_of_free fun c hc => ?_
    rw [String.toList_ofList] at hc
    exact isBlank_of_not_separatesIds (free_of_mem_pieces hpiece c hc)
  have hempty (piece : List Char) : (String.ofList piece).isEmpty = piece.isEmpty := by
    rw [Bool.eq_iff_iff, String.isEmpty_iff, List.isEmpty_iff, String.ofList_eq_empty_iff]
  rw [parse, ofList, htrimmed, List.filter_map, runsOf, runs]
  simp only [Function.comp_def, hempty]

end ExclusionSet

namespace ExclusionFilter

/-- A filter holds the ids that its entries list, each cut on its own. -/
theorem mem_ofSpec_iff {spec : ExclusionSpec} {id : String} :
    id ∈ (ofSpec spec).set.ids ↔ ∃ entry ∈ spec.ids, id ∈ runsOf separatesIds entry := by
  have hcomma : ∀ c ∈ ",".toList, separatesIds c = true := by simp [separatesIds]
  rw [ofSpec, ExclusionSet.ids_parse, List.mem_eraseDups, runsOf_joined (by decide) hcomma,
    List.mem_flatMap]

/-- An entry without separators, unless empty, is an id that the filter holds. -/
theorem mem_ofSpec_of_free {spec : ExclusionSpec} {id : String} (hid : id ∈ spec.ids)
    (hne : id ≠ "") (hfree : ∀ c ∈ id.toList, separatesIds c = false) :
    id ∈ (ofSpec spec).set.ids := by
  refine mem_ofSpec_iff.mpr ⟨id, hid, ?_⟩
  rw [runsOf_of_free hne hfree]
  exact List.mem_singleton_self id

/-- No id that a filter holds has a separator in it. -/
theorem free_of_mem_ofSpec {spec : ExclusionSpec} {id : String}
    (hid : id ∈ (ofSpec spec).set.ids) : ∀ c ∈ id.toList, separatesIds c = false := by
  obtain ⟨entry, -, hrun⟩ := mem_ofSpec_iff.mp hid
  exact free_of_mem_runsOf hrun

end ExclusionFilter

end Beneficiary
