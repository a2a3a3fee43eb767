import Beneficiary.Proofs.Text.Pieces

/-!
# Maximal runs

A run of a text is a block without separators that cannot be made longer: a separator or an end of
the text stands on either side of it. The runs that a text is cut into are these, in the order in
which they stand. Of a list with repetitions the first occurrences are kept, in their order.
-/

namespace Beneficiary.Text

/-- A maximal run of a text: what stands before it ends with a separator and what stands after it
begins with one, unless nothing does. -/
structure IsRun (isSeparator : Char → Bool) (text before run after : List Char) : Prop where
  stands : text = before ++ run ++ after
  nonempty : run ≠ []
  free : ∀ c ∈ run, isSeparator c = false
  starts : before = [] ∨ ∃ start c, before = start ++ [c] ∧ isSeparator c = true
  ends : after = [] ∨ ∃ c rest, after = c :: rest ∧ isSeparator c = true

variable {isSeparator : Char → Bool} {text before run after : List Char}

private theorem pieces_eq_cons {piece : List Char} {others : List (List Char)}
    (h : pieces isSeparator text = piece :: others) :
    (others = [] ∧ text = piece) ∨
      ∃ c rest, isSeparator c = true ∧ text = piece ++ c :: rest ∧
        pieces isSeparator rest = others := by
  induction text generalizing piece with
  | nil =>
    obtain ⟨rfl, rfl⟩ : [] = piece ∧ [] = others := by simpa [pieces] using h
    exact .inl ⟨rfl, rfl⟩
  | cons d cs ih =>
    rw [pieces] at h
    split at h
    · next hd =>
      obtain ⟨rfl, rfl⟩ := List.cons.inj h
      exact .inr ⟨d, cs, hd, rfl, rfl⟩
    · split at h
      · next hnone => exact absurd (pieces_eq_splitOnP .. ▸ hnone) (List.splitOnP_ne_nil _ _)
      · next first rest hcs =>
        obtain ⟨rfl, rfl⟩ := List.cons.inj h
        rcases ih hcs with ⟨hrest, rfl⟩ | ⟨c, after, hc, rfl, hafter⟩
        · exact .inl ⟨hrest, rfl⟩
        · exact .inr ⟨c, after, hc, rfl, hafter⟩

private theorem exists_place_of_pieces {piece : List Char} {earlier later : List (List Char)}
    (h : pieces isSeparator text = earlier ++ piece :: later) :
    ∃ before after, text = before ++ piece ++ after ∧
      pieces isSeparator before = earlier ++ [[]] ∧
      (before = [] ∨ ∃ start c, before = start ++ [c] ∧ isSeparator c = true) ∧
      (after = [] ∨ ∃ c rest, after = c :: rest ∧ isSeparator c = true) := by
  induction earlier generalizing text with
  | nil =>
    rcases pieces_eq_cons h with ⟨-, rfl⟩ | ⟨c, rest, hc, rfl, -⟩
    · exact ⟨[], [], by simp, rfl, .inl rfl, .inl rfl⟩
    · exact ⟨[], c :: rest, by simp, rfl, .inl rfl, .inr ⟨c, rest, rfl, hc⟩⟩
  | cons first earlier ih =>
    rcases pieces_eq_cons h with ⟨hnone, -⟩ | ⟨c, rest, hc, rfl, hrest⟩
    · simp at hnone
    · obtain ⟨before, after, rfl, hbefore, hstarts, hends⟩ := ih hrest
      have hfree : pieces isSeparator first = [first] :=
        pieces_of_free (free_of_mem_pieces (by rw [h]; exact List.mem_cons_self))
      refine ⟨first ++ c :: before, after, by simp, ?_, .inr ?_, hends⟩
      · rw [pieces_append_cons hc, hfree, hbefore]
        rfl
      · rcases hstarts with rfl | ⟨start, d, rfl, hd⟩
        · exact ⟨first, c, rfl, hc⟩
        · exact ⟨first ++ c :: start, d, by simp, hd⟩

/-- A maximal run is one of the runs of its text, after those of what stands before it. -/
theorem IsRun.runs_eq (h : IsRun isSeparator text before run after) :
    runs isSeparator text = runs isSeparator before ++ run :: runs isSeparator after := by
  have hself : runs isSeparator run = [run] := by
    simp [runs, pieces_of_free h.free, h.nonempty]
  have hafter : runs isSeparator (run ++ after) = run :: runs isSeparator after := by
    rcases h.ends with rfl | ⟨c, rest, rfl, hc⟩
    · simpa [runs, pieces] using hself
    · rw [runs_append_cons hc, hself, List.singleton_append, List.cons_inj_right]
      exact (runs_append_of_separators (List.forall_mem_singleton.mpr hc) rest).symm
  rw [h.stands, List.append_assoc]
  rcases h.starts with rfl | ⟨start, c, rfl, hc⟩
  · rw [List.nil_append, hafter]
    rfl
  · have hbefore : runs isSeparator (start ++ [c]) = runs isSeparator start := by
      rw [runs_append_cons hc]
      exact List.append_nil _
    rw [hbefore, List.append_assoc, List.singleton_append, runs_append_cons hc, hafter]

/-- Each of the runs of a text stands in it as a maximal run, the earlier ones before it. -/
theorem exists_isRun_of_runs {earlier later : List (List Char)}
    (h : runs isSeparator text = earlier ++ run :: later) :
    ∃ before after, IsRun isSeparator text before run after ∧
      runs isSeparator before = earlier := by
  obtain ⟨first, rest, hpieces, hearlier, hrest⟩ := List.filter_eq_append_iff.mp h
  obtain ⟨gap, others, rfl, hgap, hrun, -⟩ := List.filter_eq_cons_iff.mp hrest
  rw [← List.append_assoc] at hpieces
  obtain ⟨before, after, rfl, hbefore, hstarts, hends⟩ := exists_place_of_pieces hpieces
  refine ⟨before, after, ⟨rfl, by simpa using hrun, ?_, hstarts, hends⟩, ?_⟩
  · exact free_of_mem_pieces (by rw [hpieces]; simp)
  · have hnone : gap.filter (fun piece => !piece.isEmpty) = [] := List.filter_eq_nil_iff.mpr hgap
    rw [runs, hbefore, List.filter_append, List.filter_append, hearlier, hnone, List.append_nil]
    exact List.append_nil _

/-- The runs of a text are its maximal runs. -/
theorem mem_runs_iff :
    run ∈ runs isSeparator text ↔ ∃ before after, IsRun isSeparator text before run after := by
  constructor
  · intro h
    obtain ⟨earlier, later, hruns⟩ := List.append_of_mem h
    obtain ⟨before, after, hrun, -⟩ := exists_isRun_of_runs hruns
    exact ⟨before, after, hrun⟩
  · rintro ⟨before, after, hrun⟩
    rw [hrun.runs_eq]
    exact List.mem_append_right _ List.mem_cons_self

/-- A string is among the runs of a text exactly when it is a maximal run of it. -/
theorem mem_runsOf_iff {text run : String} :
    run ∈ runsOf isSeparator text ↔
      ∃ before after, IsRun isSeparator text.toList before run.toList after := by
  rw [← mem_runs_iff, runsOf, List.mem_map]
  constructor
  · rintro ⟨cs, hcs, rfl⟩
    rwa [String.toList_ofList]
  · intro h
    exact ⟨run.toList, h, String.ofList_toList⟩

section FirstOccurrences

variable {α : Type} [BEq α] [LawfulBEq α]

/-- Of two kept items the first has an occurrence that none of the second precedes. -/
theorem pairwise_eraseDups (items : List α) :
    items.eraseDups.Pairwise fun a b =>
      a ≠ b ∧ ∃ before after, items = before ++ a :: after ∧ b ∉ before := by
  induction hlength : items.length using Nat.strong_induction_on generalizing items with
  | _ n ih =>
    cases items with
    | nil => exact .nil
    | cons first rest =>
      rw [List.eraseDups_cons, List.pairwise_cons]
      have hne {b : α} (hb : b ∈ (rest.filter fun b => !b == first).eraseDups) : b ≠ first := by
        simpa using (List.mem_filter.mp (List.mem_eraseDups.mp hb)).2
      refine ⟨fun b hb => ⟨(hne hb).symm, [], rest, rfl, by simp⟩, ?_⟩
      have hshorter : (rest.filter fun b => !b == first).length < n := by
        rw [← hlength]
        exact Nat.lt_succ_of_le (List.length_filter_le _ _)
      refine (ih _ hshorter _ rfl).imp_of_mem ?_
      rintro a b - hb ⟨hab, before, after, hsplit, hbefore⟩
      refine ⟨hab, ?_⟩
      -- What was left out before the occurrence is the first item over again.
      obtain ⟨kept, more, rfl, hkept, hmore⟩ := List.filter_eq_append_iff.mp hsplit
      obtain ⟨gap, others, rfl, hgap, -, -⟩ := List.filter_eq_cons_iff.mp hmore
      refine ⟨first :: (kept ++ gap), others, by simp, ?_⟩
      have hbfirst := hne hb
      rw [List.mem_cons, List.mem_append]
      rintro (h | h | h)
      · exact hbfirst h
      · exact hbefore (hkept ▸ List.mem_filter.mpr ⟨h, by simpa using hbfirst⟩)
      · exact hgap b h (by simpa using hbfirst)

/-- Kept items are distinct. -/
theorem nodup_eraseDups (items : List α) : items.eraseDups.Nodup :=
  (pairwise_eraseDups items).imp And.left

/-- Distinct items are all kept. -/
theorem eraseDups_of_nodup {items : List α} (h : items.Nodup) : items.eraseDups = items := by
  induction items with
  | nil => rfl
  | cons first rest ih =>
    obtain ⟨hfirst, hrest⟩ := List.nodup_cons.mp h
    have hkept : rest.filter (fun b => !b == first) = rest := by
      refine List.filter_eq_self.mpr fun b hb => ?_
      simpa using ne_of_mem_of_not_mem hb hfirst
    rw [List.eraseDups_cons, hkept, ih hrest]

end FirstOccurrences

end Beneficiary.Text
