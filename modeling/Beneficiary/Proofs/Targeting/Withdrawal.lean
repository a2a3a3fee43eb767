import Beneficiary.Proofs.Criteria.Members
import Beneficiary.Proofs.Store.Reading
import Beneficiary.Proofs.Targeting.Accounting

/-!
# What a withdrawal does to a preview

A withdrawal takes households out of the population of their program and members out of the current
households that stay, and changes nothing else of what stays. Predicates ask for members and never
for their absence, and in a program of persons a household that stays has kept its only member, so
its id and its being excluded stay as well. Hence the lists of a preview can only lose ids.
-/

namespace Beneficiary

private theorem filter_map_of_fixed {α : Type} {f : α → α} {p : α → Bool} {items : List α}
    (h : ∀ a ∈ items, p (f a) = true → f a = a) :
    (items.map f).filter p = (items.filter p).filter fun a => p (f a) := by
  induction items with
  | nil => rfl
  | cons a rest ih =>
    obtain ⟨ha, hrest⟩ := List.forall_mem_cons.mp h
    have ih := ih hrest
    by_cases hp : p (f a) = true
    · have hfixed := ha hp
      rw [hfixed] at hp
      simp [hfixed, hp, ih]
    · by_cases hp' : p a = true
      · simp [hp, hp', ih]
      · simp [hp, hp', ih]

private theorem filter_sublist_filter {α : Type} {p p' : α → Bool} {items items' : List α}
    (h : items'.Sublist items) (hp : ∀ a ∈ items', p' a = true → p a = true) :
    (items'.filter p').Sublist (items.filter p) := by
  have hsplit : items'.filter p' = (items'.filter p).filter p' := by
    rw [List.filter_filter]
    apply List.filter_congr
    intro a ha
    by_cases hp' : p' a = true
    · simp [hp', hp a ha hp']
    · simp [hp']
  rw [hsplit]
  exact List.filter_sublist.trans (h.filter p)

namespace Store

variable {s t : Store} {program : Program} {targeting : Targeting}

/-- The second store is the first with some of the households and individuals withdrawn. -/
def Withdraws (s t : Store) : Prop :=
  ∃ f g, t = s.revise f g ∧ (∀ h, f h = h ∨ f h = h.withdraw) ∧ ∀ i, g i = i ∨ g i = i.withdraw

/-- A withdrawal leaves a store with some of its households and individuals withdrawn. -/
theorem withdraws_of_run {now : Moment} {operation : Operation} {answer : Answer}
    (hoperation : operation.IsWithdrawal) (hrun : s.run now operation = .ok (answer, t)) :
    s.Withdraws t := by
  have hhousehold (p : Household → Prop) [DecidablePred p] (h : Household) :
      (if p h then h.withdraw else h) = h ∨ (if p h then h.withdraw else h) = h.withdraw := by
    by_cases hp : p h <;> simp [hp]
  have hindividual (p : Individual → Prop) [DecidablePred p] (i : Individual) :
      (if p i then i.withdraw else i) = i ∨ (if p i then i.withdraw else i) = i.withdraw := by
    by_cases hp : p i <;> simp [hp]
  cases operation with
  | withdrawHousehold id =>
    obtain ⟨-, rfl⟩ := Prod.mk.inj (Except.ok.inj hrun)
    exact ⟨_, _, rfl, hhousehold _, hindividual _⟩
  | withdrawIndividual id =>
    obtain ⟨-, rfl⟩ := Prod.mk.inj (Except.ok.inj hrun)
    exact ⟨_, _, rfl, hhousehold _, hindividual _⟩
  | _ => exact hoperation.elim

namespace Withdraws

/-- A withdrawal has no part in what requests compile to. -/
theorem compileTargeting_eq (h : s.Withdraws t) (programId : Uuid) (request : TargetingRequest)
    (asOf : Date) :
    t.compileTargeting programId request asOf = s.compileTargeting programId request asOf := by
  obtain ⟨f, g, rfl, -, -⟩ := h
  rfl

/-- The current households of a program are some of those before the withdrawal. -/
theorem currentHouseholds_sublist (h : s.Withdraws t) (hs : s.Populated) (id : Uuid) :
    (t.currentHouseholds id).Sublist (s.currentHouseholds id) := by
  obtain ⟨f, g, rfl, hf, -⟩ := h
  unfold currentHouseholds revise
  rw [filter_map_of_fixed, ← filter_sortedBy (nodup_map_filter hs.household_ids _)]
  · exact List.filter_sublist
  · intro household _ hcurrent
    rcases hf household with hsame | hwithdrawn
    · exact hsame
    · rw [hwithdrawn] at hcurrent
      simp [Household.withdraw] at hcurrent

/-- The current members of a household are some of those before the withdrawal. -/
theorem members_sublist (h : s.Withdraws t) (hs : s.Populated) (id : Uuid) :
    (t.members id).Sublist (s.members id) := by
  obtain ⟨f, g, rfl, -, hg⟩ := h
  unfold members revise
  rw [filter_map_of_fixed, ← filter_sortedBy (nodup_map_filter hs.individual_ids _)]
  · exact List.filter_sublist
  · intro i _ hcurrent
    rcases hg i with hsame | hwithdrawn
    · exact hsame
    · rw [hwithdrawn] at hcurrent
      simp [Individual.withdraw] at hcurrent

/-- The record of a household after the withdrawal is one with fewer members. -/
theorem currentRecord_within (h : s.Withdraws t) (hkeyed : s.Keyed) (hs : s.Populated)
    (household : Household) :
    (t.currentRecord household).Within (s.currentRecord household) := by
  have hmembers := h.members_sublist hs household.id
  have hnodup : ((s.members household.id).map Individual.id).Nodup := by
    rw [members_eq hs]
    exact nodup_map_filter (nodup_map_id_allMembers hkeyed household.id) _
  refine ⟨rfl, hmembers.subset, ?_⟩
  intro i hhead
  cases hid : household.headId with
  | none => simp [HouseholdRecord.head?, currentRecord, hid] at hhead
  | some headId =>
    simp only [HouseholdRecord.head?, currentRecord, hid] at hhead
    have hi : i ∈ s.members household.id := hmembers.subset (List.mem_of_find?_eq_some hhead)
    have hheadId : i.id = headId := by simpa using List.find?_some hhead
    apply HouseholdRecord.head?_eq_some hnodup hi
    rw [hheadId]
    exact hid

/-- A household that stays current is targeted by the id that it was targeted by. -/
theorem targetId?_eq (h : s.Withdraws t) (hs : s.Populated) (ht : t.Populated)
    (hp : program ∈ s.programs) {household : Household}
    (hh : household ∈ t.currentHouseholds program.id) :
    t.targetId? program.mode household = s.targetId? program.mode household := by
  cases hmode : program.mode with
  | household => rfl
  | person =>
    have hpt : program ∈ t.programs := by
      obtain ⟨f, g, rfl, -, -⟩ := h
      exact hp
    have hsub := h.members_sublist hs household.id
    obtain ⟨i, hi⟩ := exists_members_eq_singleton hs hp hmode
      ((h.currentHouseholds_sublist hs program.id).subset hh)
    obtain ⟨j, hj⟩ := exists_members_eq_singleton ht hpt hmode hh
    rw [hi, hj, List.singleton_sublist, List.mem_singleton] at hsub
    unfold targetId?
    rw [hi, hj, hsub]

/-- A household that stays current is excluded by a list of ids exactly when it was. -/
theorem excludes_eq (h : s.Withdraws t) (hs : s.Populated) (ht : t.Populated)
    (hp : program ∈ s.programs) {filter : ExclusionFilter} (hmode : filter.mode = program.mode)
    {household : Household} (hh : household ∈ t.currentHouseholds program.id) :
    filter.excludes (t.currentRecord household) = filter.excludes (s.currentRecord household) := by
  have hpt : program ∈ t.programs := by
    obtain ⟨f, g, rfl, -, -⟩ := h
    exact hp
  obtain ⟨id, hid, -, hexcludes⟩ :=
    exists_targetId? hs hp ((h.currentHouseholds_sublist hs program.id).subset hh)
  obtain ⟨id', hid', -, hexcludes'⟩ := exists_targetId? ht hpt hh
  rw [h.targetId?_eq hs ht hp hh, hid] at hid'
  obtain rfl := Option.some.inj hid'
  rw [Bool.eq_iff_iff, hexcludes filter hmode, hexcludes' filter hmode]

/-- The households that qualify are some of those that did. -/
theorem qualifiedHouseholds_sublist (h : s.Withdraws t) (hkeyed : s.Keyed) (hs : s.Populated)
    (id : Uuid) (targeting : Targeting) :
    (t.qualifiedHouseholds id targeting).Sublist (s.qualifiedHouseholds id targeting) := by
  apply filter_sublist_filter (h.currentHouseholds_sublist hs id)
  intro household _ hqualifies
  exact Predicate.holds_of_within (h.currentRecord_within hkeyed hs household) hqualifies

end Withdraws

/-- Ids listed for households are those that target them, in turn. -/
theorem Lists.eq_filterMap {mode : ProgramMode} {households : List Household} {ids : List String}
    (h : s.Lists mode households ids) : ids = households.filterMap (s.targetId? mode) := by
  have hids : (households.map (s.targetId? mode)).filterMap id = ids := by
    rw [h.targets, List.filterMap_map]
    simp
  rw [← hids, List.filterMap_map]
  rfl

private theorem Lists.sublist {mode : ProgramMode} {before after : List Household}
    {ids ids' : List String} (h : s.Lists mode before ids) (h' : t.Lists mode after ids')
    (hsub : after.Sublist before) (hsame : ∀ a ∈ after, t.targetId? mode a = s.targetId? mode a) :
    ids'.Sublist ids := by
  rw [h.eq_filterMap, h'.eq_filterMap, List.filterMap_congr hsame]
  exact hsub.filterMap _

/-- After a withdrawal an accepted request still has a preview, on whichever date. It counts no more
candidates than before, and its selected and its excluded ids are some of those before, in the same
order. -/
theorem withdrawal_shrinks_preview {now : Moment} {operation : Operation} {answer : Answer}
    {programId : Uuid} {request : TargetingRequest} {day : Date} {summary : TargetingSummary}
    (hs : s.Reachable) (hoperation : operation.IsWithdrawal)
    (hrun : s.run now operation = .ok (answer, t))
    (haccepted : s.validate programId request day = .ok summary) (asOf : Date) :
    ∃ before after, s.preview programId request asOf = .ok before ∧
      t.preview programId request asOf = .ok after ∧
      after.totalCandidates ≤ before.totalCandidates ∧
      after.matchedIds.Sublist before.matchedIds ∧
      after.excludedIds.Sublist before.excludedIds := by
  have h : s.Withdraws t := withdraws_of_run hoperation hrun
  obtain ⟨hkeyed, hs⟩ := hs.invariants
  have ht : t.Populated := hs.step hkeyed (step_of_run hrun)
  obtain ⟨program, targeting, hcompiled, -⟩ := exists_compileTargeting_of_validate haccepted asOf
  obtain ⟨hprogram, exclusions, hexclusions, -, hset⟩ := compileTargeting_eq_ok_iff.mp hcompiled
  obtain ⟨hp, rfl⟩ := mem_of_program? hprogram
  obtain rfl := exclusionsFor_eq hexclusions
  have hmode : targeting.exclusions.mode = program.mode := by
    rw [hset]
    rfl
  have hpt : program ∈ t.programs := by
    obtain ⟨f, g, rfl, -, -⟩ := h
    exact hp
  obtain ⟨htotal, hmatched, hexcluded⟩ := preview_of_lists targeting hs hp asOf
  obtain ⟨htotal', hmatched', hexcluded'⟩ := preview_of_lists targeting ht hpt asOf
  have hqualified := h.qualifiedHouseholds_sublist hkeyed hs program.id targeting
  have hcurrent : t.qualifiedHouseholds program.id targeting ⊆ t.currentHouseholds program.id :=
    List.filter_subset_self _
  refine ⟨.of program asOf targeting (s.population program.id),
    .of program asOf targeting (t.population program.id), ?_, ?_, ?_, ?_, ?_⟩
  · rw [preview, hcompiled]
    rfl
  · rw [preview, h.compileTargeting_eq, hcompiled]
    rfl
  · rw [htotal, htotal']
    exact (h.currentHouseholds_sublist hs program.id).length_le
  · apply hmatched.sublist hmatched'
    · apply filter_sublist_filter hqualified
      intro household hh hselected
      rwa [h.excludes_eq hs ht hp hmode (hcurrent hh)] at hselected
    · intro household hh
      exact h.targetId?_eq hs ht hp (hcurrent (List.mem_of_mem_filter hh))
  · apply hexcluded.sublist hexcluded'
    · apply filter_sublist_filter hqualified
      intro household hh hselected
      rwa [h.excludes_eq hs ht hp hmode (hcurrent hh)] at hselected
    · intro household hh
      exact h.targetId?_eq hs ht hp (hcurrent (List.mem_of_mem_filter hh))

/-- A person of the example leaves, and with the person the household around them: the preview for
everyone but another person shrinks. -/
theorem exampleStore_shrinks :
    exampleStore.Reachable ∧ (Operation.withdrawIndividual (idAfter 2)).IsWithdrawal ∧
      exampleStore.run exampleMoment (.withdrawIndividual (idAfter 2)) =
        .ok (.withdrawn true, exampleStore.withdrawIndividual (idAfter 2)) ∧
      exampleStore.validate (idAfter 0) exampleRequest exampleMoment.date =
        .ok { rules := 1, householdFilters := 0, blocks := 0, excludedIds := 2 } ∧
      ∃ before after,
        exampleStore.preview (idAfter 0) exampleRequest exampleMoment.date = .ok before ∧
        (exampleStore.withdrawIndividual (idAfter 2)).preview (idAfter 0) exampleRequest
          exampleMoment.date = .ok after ∧
        after.totalCandidates ≤ before.totalCandidates ∧
        after.matchedIds.Sublist before.matchedIds ∧
        after.excludedIds.Sublist before.excludedIds := by
  have hoperation : (Operation.withdrawIndividual (idAfter 2)).IsWithdrawal := trivial
  have hfound : (exampleStore.individual? (idAfter 2)).isSome = true := by decide +kernel
  have hrun : exampleStore.run exampleMoment (.withdrawIndividual (idAfter 2)) =
      .ok (.withdrawn true, exampleStore.withdrawIndividual (idAfter 2)) := by
    rw [Store.run, hfound]
  have haccepted : exampleStore.validate (idAfter 0) exampleRequest exampleMoment.date =
      .ok { rules := 1, householdFilters := 0, blocks := 0, excludedIds := 2 } :=
    toOption_eq_some_iff.mp (by decide +kernel)
  exact ⟨exampleStore_reachable, hoperation, hrun, haccepted,
    withdrawal_shrinks_preview exampleStore_reachable hoperation hrun haccepted
      exampleMoment.date⟩

end Store

end Beneficiary
