import Mathlib
import Beneficiary.Text.Blank

/-!
# Texts cut at separators

A text is cut into the runs of characters between its separators. A text without separators is its
own single run, and entries joined by separators are cut as each of them is, one after the other.
-/

namespace Beneficiary.Text

section Pieces

variable {α : Type} {isSeparator : α → Bool}

/-- Cutting a text is splitting its list of characters at the separators. -/
theorem pieces_eq_splitOnP (isSeparator : α → Bool) (cs : List α) :
    pieces isSeparator cs = cs.splitOnP isSeparator := by
  induction cs with
  | nil => rfl
  | cons c cs ih =>
    rw [pieces, List.splitOnP_cons_eq_if_modifyHead, ih]
    split
    · rfl
    · cases h : cs.splitOnP isSeparator with
      | nil => exact absurd h (List.splitOnP_ne_nil isSeparator cs)
      | cons piece others => rfl

/-- Texts on the two sides of a separator are cut one after the other. -/
theorem pieces_append_cons {c : α} (hc : isSeparator c = true) (as bs : List α) :
    pieces isSeparator (as ++ c :: bs) = pieces isSeparator as ++ pieces isSeparator bs := by
  simp only [pieces_eq_splitOnP]
  exact List.splitOnP_append_cons as bs hc

/-- A text without separators is one piece. -/
theorem pieces_of_free {cs : List α} (h : ∀ c ∈ cs, isSeparator c = false) :
    pieces isSeparator cs = [cs] := by
  rw [pieces_eq_splitOnP]
  exact List.splitOnP_eq_singleton h

/-- No piece holds a separator. -/
theorem free_of_mem_pieces {cs piece : List α} (h : piece ∈ pieces isSeparator cs) :
    ∀ c ∈ piece, isSeparator c = false := by
  induction cs generalizing piece with
  | nil =>
    obtain rfl : piece = [] := by simpa [pieces] using h
    simp
  | cons c cs ih =>
    rw [pieces] at h
    split at h
    · rcases List.mem_cons.mp h with rfl | h
      · simp
      · exact ih h
    · next hc =>
      have hc : isSeparator c = false := by simpa using hc
      split at h
      · obtain rfl := List.mem_singleton.mp h
        simpa using hc
      · next first others hcs =>
        rw [hcs] at ih
        rcases List.mem_cons.mp h with rfl | h
        · exact List.forall_mem_cons.mpr ⟨hc, ih List.mem_cons_self⟩
        · exact ih (List.mem_cons_of_mem _ h)

end Pieces

section Runs

variable {isSeparator : Char → Bool}

/-- Texts on the two sides of a separator have their runs one after the other. -/
theorem runs_append_cons {c : Char} (hc : isSeparator c = true) (as bs : List Char) :
    runs isSeparator (as ++ c :: bs) = runs isSeparator as ++ runs isSeparator bs := by
  rw [runs, pieces_append_cons hc, List.filter_append, runs, runs]

/-- Separators at the start of a text have no part in its runs. -/
theorem runs_append_of_separators {gap : List Char} (hgap : ∀ c ∈ gap, isSeparator c = true)
    (cs : List Char) : runs isSeparator (gap ++ cs) = runs isSeparator cs := by
  induction gap with
  | nil => rfl
  | cons c gap ih =>
    obtain ⟨hc, hgap⟩ := List.forall_mem_cons.mp hgap
    have hnone : runs isSeparator [] = [] := rfl
    rw [← ih hgap]
    simpa [hnone] using runs_append_cons hc [] (gap ++ cs)

/-- Entries joined by separators have the runs of each entry, one entry after the other. -/
theorem runs_joined {separator : String} (hne : separator ≠ "")
    (hseparator : ∀ c ∈ separator.toList, isSeparator c = true) (entries : List String) :
    runs isSeparator (joined separator entries).toList =
      entries.flatMap fun entry => runs isSeparator entry.toList := by
  induction entries with
  | nil => simp [joined, runs, pieces]
  | cons entry rest ih =>
    cases rest with
    | nil => simp [joined]
    | cons next others =>
      obtain ⟨c, gap, htext⟩ := List.exists_cons_of_ne_nil (mt String.toList_eq_nil_iff.mp hne)
      rw [htext, List.forall_mem_cons] at hseparator
      have hjoined : (joined separator (entry :: next :: others)).toList =
          entry.toList ++ c :: (gap ++ (joined separator (next :: others)).toList) := by
        change (entry ++ separator ++ joined separator (next :: others)).toList = _
        rw [String.toList_append, String.toList_append, htext, List.append_assoc, List.cons_append]
      rw [hjoined, runs_append_cons hseparator.1, runs_append_of_separators hseparator.2, ih]
      rfl

/-- A run holds no separator. -/
theorem free_of_mem_runsOf {text run : String} (h : run ∈ runsOf isSeparator text) :
    ∀ c ∈ run.toList, isSeparator c = false := by
  obtain ⟨piece, hpiece, rfl⟩ := List.mem_map.mp h
  rw [String.toList_ofList]
  exact free_of_mem_pieces (List.mem_filter.mp hpiece).1

/-- A text without separators, unless empty, is its own single run. -/
theorem runsOf_of_free {text : String} (hne : text ≠ "")
    (h : ∀ c ∈ text.toList, isSeparator c = false) : runsOf isSeparator text = [text] := by
  have hempty : text.toList.isEmpty = false := by simpa using hne
  simp [runsOf, runs, pieces_of_free h, hempty]

/-- Texts without separators, none of them empty, are their own runs. -/
theorem flatMap_runsOf_of_free {texts : List String}
    (h : ∀ text ∈ texts, text ≠ "" ∧ ∀ c ∈ text.toList, isSeparator c = false) :
    texts.flatMap (runsOf isSeparator) = texts := by
  have hsingle : ∀ text ∈ texts, runsOf isSeparator text = [text] := fun text htext =>
    runsOf_of_free (h text htext).1 (h text htext).2
  rw [List.flatMap_def, List.map_congr_left hsingle]
  exact List.flatMap_singleton' _

/-- Entries joined by separators have the runs of the entries. -/
theorem runsOf_joined {separator : String} (hne : separator ≠ "")
    (hseparator : ∀ c ∈ separator.toList, isSeparator c = true) (entries : List String) :
    runsOf isSeparator (joined separator entries) = entries.flatMap (runsOf isSeparator) := by
  rw [runsOf, runs_joined hne hseparator, List.map_flatMap]
  rfl

/-- No run is empty. -/
theorem ne_empty_of_mem_runsOf {text run : String} (h : run ∈ runsOf isSeparator text) :
    run ≠ "" := by
  obtain ⟨piece, hpiece, rfl⟩ := List.mem_map.mp h
  have hne := (List.mem_filter.mp hpiece).2
  rw [Bool.not_eq_true', List.isEmpty_eq_false_iff] at hne
  rwa [Ne, String.ofList_eq_empty_iff]

end Runs

end Beneficiary.Text
