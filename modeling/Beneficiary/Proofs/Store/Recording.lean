import Beneficiary.Proofs.Criteria.Condition
import Beneficiary.Proofs.Json.Equality
import Beneficiary.Proofs.Store.Catalog
import Beneficiary.Proofs.Store.Rounds

/-!
# Recording a round

A recorded round is read back as the value that was stated, and the recording is felt nowhere else.
Of the store only the attributes of one individual change, and of these only what stands under the
name of the field. So a comparison finds what it found before unless it asks for this round. The
name is that of no flex attribute of the individual's own program; another program may have one
under the same name, which finds no value there afterwards.

Attributes are kept as text. What is said here is said of attributes that are read back from their
text as they were written.
-/

namespace Beneficiary

namespace Atom

/-- The comparison asks for a round of a periodic field, by the field's name and the number. -/
def ReadsRound (atom : Atom) (field : String) (round : UInt32) : Prop :=
  ∃ selector, atom.source = .periodic selector ∧ selector.field = field ∧ selector.round = round

/-- The comparison asks for the flex attribute of a name. -/
def ReadsFlex (atom : Atom) (name : String) : Prop :=
  ∃ valueType, atom.source = .flex name valueType

end Atom

/-- A core field is read from the fixed attributes of an individual. -/
theorem CoreField.coreValue_withFlexFields {field : CoreField} (h : field ∈ CoreField.all)
    (i : Individual) (flexFields : Json.Fields) (asOf : Date) :
    FieldSubject.coreValue { i with flexFields } field asOf =
      FieldSubject.coreValue i field asOf := by
  revert field
  simp [CoreField.all, FieldSubject.coreValue]

/-- The individual with a round put among the attributes. -/
def Individual.withRound (i : Individual) (input : NewRoundValue) : Individual :=
  { i with flexFields := input.addTo i.flexFields }

/-- The individual of an identifier has a round put among the attributes, and others do not. -/
def NewRoundValue.recordOn (input : NewRoundValue) (id : Uuid) (i : Individual) : Individual :=
  if i.id = id then i.withRound input else i

section Values

variable {resolve : Resolver} {asOf : Date} {context : EntityKind} {condition : Condition}
  {atom : Atom}

/-- A compiled comparison finds on an individual what it found before the round was put, unless it
asks for the round or for a flex attribute of the name. -/
theorem Atom.value_withRound (h : condition.compile resolve asOf context = .ok atom)
    (i : Individual) (input : NewRoundValue) (hround : ¬ atom.ReadsRound input.field input.round)
    (hflex : ¬ atom.ReadsFlex input.field) : atom.value (i.withRound input) = atom.value i := by
  obtain ⟨d, -, ⟨field, hfield, hsource⟩ | ⟨-, hsource⟩ | ⟨selector, -, hsource⟩⟩ :=
    Condition.source_cases h
  · rw [Atom.value, Atom.value, hsource]
    exact CoreField.coreValue_withFlexFields (List.mem_of_find?_eq_some hfield) i _ _
  · have hname : d.name ≠ input.field := fun heq => hflex ⟨d.valueType, heq ▸ hsource⟩
    have hget : (input.addTo i.flexFields).get? d.name = i.flexFields.get? d.name :=
      input.get?_addTo_of_ne _ hname
    rw [Atom.value, Atom.value, hsource]
    exact congrArg (fun stored => stored.bind (Value.ofStored? d.valueType)) hget
  · have hother : selector.field ≠ input.field ∨ selector.round ≠ input.round := by
      by_contra hboth
      rw [not_or, not_not, not_not] at hboth
      exact hround ⟨selector, hsource, hboth⟩
    have hkept : selector.read (input.addTo i.flexFields) = selector.read i.flexFields := by
      rw [selector.read_eq, selector.read_eq, input.round?_addTo_of_ne _ hother]
    rw [Atom.value, Atom.value, hsource]
    exact hkept

/-- A flex attribute of the name finds no value on the individual once the round is put. -/
theorem Atom.value_withRound_of_readsFlex {input : NewRoundValue}
    (h : atom.ReadsFlex input.field) (i : Individual) : atom.value (i.withRound input) = none := by
  obtain ⟨valueType, hsource⟩ := h
  obtain ⟨entries, hentries⟩ := input.exists_get?_addTo i.flexFields
  have hget : (FieldSubject.flexFields (i.withRound input)).get? input.field =
      some (.object entries) := hentries
  rw [Atom.value, hsource, ValueSource.read, hget, Option.bind_some, Value.ofStored?_object]

/-- In a coherent schema no comparison asks for a flex attribute under the name of a periodic
field. -/
theorem Schema.Coherent.not_readsFlex {schema : Schema} (hs : schema.Coherent)
    {d : FieldDescriptor} (hd : d ∈ schema.fields) (hperiodic : d.classification = .periodic)
    (h : condition.compile schema.resolve asOf context = .ok atom) : ¬ atom.ReadsFlex d.name := by
  rintro ⟨valueType, hflex⟩
  obtain ⟨e, he, ⟨field, -, hsource⟩ | ⟨hclass, hsource⟩ | ⟨selector, -, hsource⟩⟩ :=
    Condition.source_cases h
  · rw [hsource] at hflex
    cases hflex
  · rw [hsource] at hflex
    have hname : e.name = d.name := (ValueSource.flex.inj hflex).1
    have hfound := Schema.mem_of_find? (Schema.resolve_eq_ok_iff.mp he)
    have hmem : e ∈ schema.fields := Schema.mem_fields.mpr ⟨_, hfound.1⟩
    obtain rfl : e = d := List.inj_on_of_nodup_map hs.distinct hmem hd hname
    rw [hclass] at hperiodic
    cases hperiodic
  · rw [hsource] at hflex
    cases hflex

end Values

namespace Store

variable {s t : Store} {individual written : Individual} {input : NewRoundValue}

/-- A round that passes its check is one that a field of the individual's program has. -/
theorem exists_field_of_checkRound {field : String} {round : UInt32}
    (h : s.checkRound individual field round = .ok ()) :
    ∃ household f, s.household? individual.householdId = some household ∧ f ∈ s.periodicFields ∧
      f.programId = household.programId ∧ f.name = field ∧ f.owner = .individual ∧ round ≠ 0 ∧
      round ≤ f.spec.numberOfRounds := by
  unfold checkRound at h
  split at h
  · cases h
  · next f hf =>
    obtain ⟨howner, hround⟩ := check_bind_eq_ok_iff.mp h
    have howner := require_eq_ok_iff.mp howner
    have hround := require_eq_ok_iff.mp hround
    rw [Bool.and_eq_true, bne_iff_ne, decide_eq_true_eq] at hround
    have hname : f.name = field := by simpa using List.find?_some hf
    have hmem := List.mem_of_find?_eq_some hf
    unfold periodicFieldsFor at hmem
    split at hmem
    · next household hhousehold =>
      simp only [periodicFieldsOf, mem_sortedBy, List.mem_filter, beq_iff_eq] at hmem
      exact ⟨household, f, hhousehold, hmem.1, hmem.2, hname, by simpa using howner, hround⟩
    · cases hmem

/-- A registered periodic field is a field of its program. -/
theorem Catalogued.periodic_mem_fields (hs : s.Catalogued) {f : PeriodicField}
    (h : f ∈ s.periodicFields) : f.descriptor ∈ (s.schemaOf f.programId).fields := by
  apply hs.mem_fields.mpr
  right
  apply List.mem_append_right
  apply List.mem_map_of_mem
  simp [h]

/-- A round that passes its check can be selected, in the schema of the individual's program. -/
theorem Catalogued.exists_selector_of_checkRound (hs : s.Catalogued)
    (h : s.checkRound individual input.field input.round = .ok ()) :
    ∃ household d selector, s.household? individual.householdId = some household ∧
      (s.schemaOf household.programId).resolve input.field .periodic = .ok d ∧
      d ∈ (s.schemaOf household.programId).fields ∧ d.name = input.field ∧
      d.classification = .periodic ∧ RoundSelector.of d (some input.round) = .ok selector ∧
      selector = { field := input.field, round := input.round, valueType := d.valueType } := by
  obtain ⟨household, f, hhousehold, hf, hprogram, hname, -, hzero, hle⟩ :=
    exists_field_of_checkRound h
  have hmem := hs.periodic_mem_fields hf
  rw [hprogram] at hmem
  have hresolves := (hs.coherent household.programId).resolvesNames.listed _ hmem .periodic
  rw [if_pos (show FieldClassification.periodic = f.descriptor.classification from rfl)] at hresolves
  refine ⟨household, f.descriptor, _, hhousehold, hname ▸ hresolves, hmem, hname, rfl, ?_, rfl⟩
  have hin : ¬ (input.round = 0 ∨ f.spec.numberOfRounds < input.round) := by
    simp [hzero, hle]
  rw [RoundSelector.of]
  change (if input.round = 0 ∨ f.spec.numberOfRounds < input.round then _ else _) = _
  rw [if_neg hin, ← hname]
  rfl

/-- Recording rounds on the individual of an identifier keeps what individuals are registered
with. -/
theorem keepsIndividual_recordOn (input : NewRoundValue) (individualId : Uuid) :
    KeepsIndividual (input.recordOn individualId) := by
  intro i
  by_cases h : i.id = individualId
  · exact ⟨input.addTo i.flexFields, i.withdrawn, by simp [NewRoundValue.recordOn, h,
      Individual.withRound]⟩
  · exact ⟨i.flexFields, i.withdrawn, by simp [NewRoundValue.recordOn, h]⟩

/-- A round whose attributes are read back as written is recorded by putting it there. -/
theorem withRound_eq_revise (hs : s.Keyed) (h : individual ∈ s.individuals)
    (hread : (individual.withRound input).flexFields.reread =
      (individual.withRound input).flexFields) :
    s.withRound individual input = s.revise id (input.recordOn individual.id) := by
  rw [withRound_eq hs h, revise, revise]
  congr 1
  apply hs.map_individuals_congr h
  · rw [if_pos rfl, NewRoundValue.recordOn, if_pos rfl, Individual.stored]
    exact congrArg (fun flexFields => { individual with flexFields }) hread
  · intro i hid
    rw [if_neg hid, NewRoundValue.recordOn, if_neg hid]

/-- A round whose attributes are read back as written is found on its individual. -/
theorem individual?_withRound (hs : s.Keyed) (h : s.individual? individual.id = some individual)
    (hread : (individual.withRound input).flexFields.reread =
      (individual.withRound input).flexFields) :
    (s.withRound individual input).individual? individual.id =
      some (individual.withRound input) := by
  rw [withRound_eq_revise hs (mem_of_individual? h).1 hread,
    individual?_revise (keepsIndividual_recordOn input individual.id), h, Option.map_some,
    NewRoundValue.recordOn, if_pos rfl]

/-- The second store is the first with an individual changed in what stands under one name among the
attributes, and in nothing else. -/
structure ChangesEntry (s t : Store) (individual written : Individual) (name : String) : Prop where
  found : s.individual? individual.id = some individual
  stored : t = { s with
    individuals := s.individuals.map fun i => if i.id = individual.id then written else i }
  attributes : written = { individual with flexFields := written.flexFields }
  names : ∀ other, other ≠ name →
    written.flexFields.get? other = individual.flexFields.get? other

/-- Putting a round changes an individual in what stands under the name of the field. -/
theorem changesEntry_recordOn (hs : s.Keyed) (h : s.individual? individual.id = some individual) :
    s.ChangesEntry (s.revise id (input.recordOn individual.id)) individual
      (individual.withRound input) input.field := by
  refine ⟨h, ?_, rfl, fun other hother => input.get?_addTo_of_ne _ hother⟩
  rw [revise, List.map_id]
  congr 1
  apply hs.map_individuals_congr (mem_of_individual? h).1
  · rfl
  · intro i hid
    rw [NewRoundValue.recordOn, if_neg hid, if_neg hid]

/-- A recorded round is read back on the individual as the value that was stated, in the type of the
field. Of the store nothing changes but what stands under the field's name on this individual, and of
that no other round. A comparison that compiles for any program and asks for anything but this round
finds what it found before, on every household and every individual; on this individual, when it
compiles for another program, unless it asks for a flex attribute of the same name. -/
theorem recorded_round_reads_back (hs : s.Reachable) {individualId : Uuid}
    (hrecord : s.recordRound individualId input = .ok (some written, t))
    (hread : written.flexFields.reread = written.flexFields) :
    ∃ individual household d selector,
      s.household? individual.householdId = some household ∧
      (t.schemaOf household.programId).resolve input.field .periodic = .ok d ∧
      RoundSelector.of d (some input.round) = .ok selector ∧
      (t.individual? individualId).map (fun i => selector.read i.flexFields) =
        some (Value.ofStored? d.valueType input.value.json) ∧
      s.ChangesEntry t individual written input.field ∧
      (∀ key, key ≠ roundKey input.round →
        (NewRoundValue.roundsOf written.flexFields input.field).get? key =
          (NewRoundValue.roundsOf individual.flexFields input.field).get? key) ∧
      ∀ program condition asOf context atom,
        Condition.compile (s.schemaOf program).resolve asOf context condition = .ok atom →
        ¬ atom.ReadsRound input.field input.round →
        (∀ h, (t.household? h).map atom.value = (s.household? h).map atom.value) ∧
        ∀ i, (i = individualId →
            program = household.programId ∨ ¬ atom.ReadsFlex input.field) →
          (t.individual? i).map atom.value = (s.individual? i).map atom.value := by
  obtain ⟨hkeyed, -⟩ := hs.invariants
  rcases recordRound_eq_ok_iff.mp hrecord with
    ⟨-, hnone, -⟩ | ⟨individual, hfound, hround, rfl, hsome⟩
  · cases hnone
  obtain rfl : written = individual.withRound input := Option.some.inj hsome
  obtain ⟨hmem, rfl⟩ := mem_of_individual? hfound
  obtain ⟨household, d, selector, hhousehold, hd, hfields, hname, hclass, hselector, rfl⟩ :=
    hs.catalogued.exists_selector_of_checkRound hround
  have hkeeps := keepsIndividual_recordOn input individual.id
  have hstored := individual?_withRound hkeyed hfound hread
  rw [withRound_eq_revise hkeyed hmem hread] at hstored ⊢
  refine ⟨individual, household, d, _, hhousehold, hd, hselector, ?_,
    changesEntry_recordOn hkeyed hfound, ?_, ?_⟩
  · rw [hstored, Option.map_some, RoundSelector.read_eq, Individual.withRound,
      input.round?_addTo_self, Option.bind_some]
  · intro key hkey
    rw [Individual.withRound, input.roundsOf_addTo, Json.Fields.get?_insert_of_ne _ _ hkey]
  · intro program condition asOf context atom hatom hother
    constructor
    · intro h
      rw [household?_revise keepsHousehold_id, Option.map_id, id_eq]
    · intro i hown
      rw [individual?_revise hkeeps, Option.map_map]
      apply Option.map_congr
      intro j hj
      obtain ⟨-, rfl⟩ := mem_of_individual? hj
      rw [Function.comp_apply, NewRoundValue.recordOn]
      by_cases hid : j.id = individual.id
      · have hflex : ¬ atom.ReadsFlex input.field := by
          rcases hown hid with rfl | hflex
          · rw [← hname]
            exact (hs.catalogued.coherent _).not_readsFlex hfields hclass hatom
          · exact hflex
        rw [if_pos hid, Atom.value_withRound hatom j input hother hflex]
      · rw [if_neg hid]

/-- Attributes with a text under the name of a periodic field. -/
def thinFields : Json.Fields := .of [("muac", .string "thin")]

/-- A measured circumference for the first round of the periodic field. -/
def firstMeasure : NewRoundValue :=
  { field := "muac"
    round := 1
    value := .of (.ofNat 110)
    collectionDate := none }

/-- A second program registers a flex attribute under the name of the first program's periodic
field, and the first program a household whose head came with a text under this name. -/
def sharedNameCalls : List Call :=
  catalogCalls ++
    [ .createProgram { name := "Cash", businessArea := "A", mode := none },
      .createFlexAttribute (idAfter 3)
        { name := "muac", owner := .individual, valueType := .string, label := none, choices := [] },
      .createHousehold (idAfter 0)
        { exampleHousehold "HH-1" ["IND-1"] with
          members := (exampleHousehold "HH-1" ["IND-1"]).members.map fun person =>
            { person with flexFields := thinFields } }
    ].map fun operation => { now := exampleMoment, operation }

/-- The store that the calls leave behind. -/
def sharedNameStore : Store :=
  ((Database.unmade.migrateAfter 0).after sharedNameCalls).tables.getD .empty

/-- The store of the calls is reachable. -/
theorem sharedNameStore_reachable : sharedNameStore.Reachable := reachable_after sharedNameCalls

/-- The measure is recorded on the head, and read back as it was written. -/
theorem sharedNameStore_records :
    ∃ head, sharedNameStore.individual? head.id = some head ∧ head.id = idAfter 6 ∧
      head.flexFields = thinFields ∧
      sharedNameStore.recordRound (idAfter 6) firstMeasure =
        .ok (some (head.withRound firstMeasure), sharedNameStore.withRound head firstMeasure) ∧
      (head.withRound firstMeasure).flexFields.reread =
        (head.withRound firstMeasure).flexFields := by
  have hfields : (sharedNameStore.individual? (idAfter 6)).map Individual.flexFields =
      some thinFields := by
    decide +kernel
  have hcheck : (sharedNameStore.individual? (idAfter 6)).map (fun i =>
      (sharedNameStore.checkRound i firstMeasure.field firstMeasure.round).toOption) =
        some (some ()) := by
    decide +kernel
  have hread : (firstMeasure.addTo thinFields).reread = firstMeasure.addTo thinFields := by
    decide +kernel
  obtain ⟨head, hhead, hfields⟩ := Option.map_eq_some_iff.mp hfields
  rw [hhead] at hcheck
  have hcheck := toOption_eq_some_iff.mp (Option.some.inj hcheck)
  have hid := (mem_of_individual? hhead).2
  refine ⟨head, hid ▸ hhead, hid, hfields, ?_, ?_⟩
  · exact recordRound_eq_ok_iff.mpr (.inr ⟨head, hhead, hcheck, rfl, rfl⟩)
  · rw [Individual.withRound, hfields]
    exact hread

/-- The measure is read in the type of its field. -/
theorem sharedNameStore_measured :
    ∃ written t household d selector, sharedNameStore.Reachable ∧
      sharedNameStore.recordRound (idAfter 6) firstMeasure = .ok (some written, t) ∧
      written.flexFields.reread = written.flexFields ∧
      (t.schemaOf household).resolve "muac" .periodic = .ok d ∧
      RoundSelector.of d (some 1) = .ok selector ∧
      (t.individual? (idAfter 6)).map (fun i => selector.read i.flexFields) =
        some (Value.ofStored? d.valueType (.ofNat 110)) := by
  obtain ⟨head, -, -, -, hrecord, hread⟩ := sharedNameStore_records
  obtain ⟨-, household, d, selector, -, hd, hselector, hvalue, -, -, -⟩ :=
    recorded_round_reads_back sharedNameStore_reachable hrecord hread
  exact ⟨_, _, household.programId, d, selector, sharedNameStore_reachable, hrecord, hread, hd,
    hselector, hvalue⟩

/-- The comparison that the second program makes with its flex attribute. -/
def thinAtom : Atom :=
  { field := "muac"
    source := .flex "muac" .string
    comparison := .equals (.string "thin")
    asOf := exampleMoment.date }

/-- The flex attribute of the second program finds the text on the head before the recording, and
nothing after it. -/
theorem sharedName_not_kept :
    ∃ written t, sharedNameStore.Reachable ∧
      sharedNameStore.recordRound (idAfter 6) firstMeasure = .ok (some written, t) ∧
      written.flexFields.reread = written.flexFields ∧
      (Condition.flex "muac" .equals ["thin"]).compile (sharedNameStore.schemaOf (idAfter 3)).resolve
        exampleMoment.date .individual = .ok thinAtom ∧
      ¬ thinAtom.ReadsRound firstMeasure.field firstMeasure.round ∧
      (sharedNameStore.individual? (idAfter 6)).map thinAtom.value = some (some (.string "thin")) ∧
      (t.individual? (idAfter 6)).map thinAtom.value = some none := by
  obtain ⟨head, hfound, hid, hfields, hrecord, hread⟩ := sharedNameStore_records
  have hstored := individual?_withRound sharedNameStore_reachable.invariants.1 hfound hread
  rw [hid] at hfound hstored
  refine ⟨_, _, sharedNameStore_reachable, hrecord, hread, ?_, ?_, ?_, ?_⟩
  · cbv
  · rintro ⟨selector, hsource, -⟩
    cases hsource
  · have hvalue : (thinFields.get? "muac").bind (Value.ofStored? .string) =
        some (.string "thin") := by
      decide +kernel
    rw [hfound, Option.map_some, ← hvalue, ← hfields]
    rfl
  · rw [hstored, Option.map_some]
    exact congrArg some (Atom.value_withRound_of_readsFlex ⟨.string, rfl⟩ head)

end Store

end Beneficiary
