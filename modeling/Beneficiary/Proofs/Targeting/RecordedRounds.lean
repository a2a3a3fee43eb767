import Beneficiary.Proofs.Criteria.Acceptance
import Beneficiary.Proofs.Store.Refusals
import Beneficiary.Proofs.Targeting.Advertised

/-!
# Rounds that are recorded and targeted

A round is checked twice: on the registered fields of an individual's program when it is recorded,
and on the schema of the program when a condition names it. The two agree. A round can be recorded
on an individual exactly when a condition in a block of the individual's program finds the field,
the round and the entity, whatever it then compares; and exactly when some such condition is
accepted. So nothing is recorded that no rule can reach, and no rule reaches what cannot be
recorded.
-/

namespace Beneficiary

/-- A condition passes the checks that come before its comparison: its name refers to the field, its
round can be selected there, and the field describes the entity at hand. -/
structure Condition.Reaches (condition : Condition) (resolve : Resolver) (context : EntityKind)
    (d : FieldDescriptor) : Prop where
  resolved : resolve condition.field condition.classification = .ok d
  round : ∃ selector, condition.selector d = .ok selector
  owner : d.owner = context

/-- The error is about the comparison: its method, or the number or the reading of its arguments. -/
def ConditionError.IsOfComparison : ConditionError → Prop
  | .argumentCount _ _ _ => True
  | .argumentType _ _ _ => True
  | .unsupportedComparison _ _ _ => True
  | _ => False

/-- A condition on the round in which a value is to be recorded. -/
def NewRoundValue.condition (input : NewRoundValue) (method : ComparisonMethod)
    (arguments : List String) : Condition :=
  .periodic input.field (some input.round) method arguments

namespace Condition

variable {condition : Condition} {resolve : Resolver} {fields : ProgramFields}
  {context : EntityKind} {asOf : Date}

/-- What is wrong with the round of a condition is not about its comparison. -/
theorem not_isOfComparison_of_refusesRound {d : FieldDescriptor} {round : Option UInt32}
    {e : ConditionError} (h : d.RefusesRound round e) : ¬ e.IsOfComparison := by
  cases h <;> exact id

/-- What is wrong with a comparison is about it. -/
theorem isOfComparison_of_refusesComparison {d : FieldDescriptor} {method : ComparisonMethod}
    {arguments : List String} {e : ConditionError} (h : d.RefusesComparison method arguments e) :
    e.IsOfComparison := by
  cases h <;> exact trivial

/-- A condition that compiles reaches a field. -/
theorem exists_reaches_of_compiles (h : condition.Compiles resolve asOf context) :
    ∃ d, condition.Reaches resolve context d := by
  obtain ⟨atom, h⟩ := h
  obtain ⟨d, selector, -, -, hd, hselector, howner, -⟩ := compile_eq_ok_iff.mp h
  exact ⟨d, hd, ⟨selector, hselector⟩, howner⟩

/-- A condition reaches a field exactly when nothing is wrong with it but its comparison, if
anything is. -/
theorem exists_reaches_iff :
    (∃ d, condition.Reaches (Schema.ofFields fields).resolve context d) ↔
      ∀ e, condition.compile (Schema.ofFields fields).resolve asOf context = .error e →
        e.IsOfComparison := by
  constructor
  · rintro ⟨d, hresolved, hround, howner⟩ e he
    obtain ⟨hd, hname⟩ := Schema.mem_of_find? (Schema.resolve_eq_ok_iff.mp hresolved)
    -- names are listed once, so whatever field the error is about is the one that is reached
    have hsame {d' : FieldDescriptor}
        (hd' : d' ∈ (Schema.ofFields fields).table condition.classification)
        (hname' : d'.name = condition.field) : d' = d := by
      have hfound := Schema.find?_ofFields_eq_some_iff.mpr ⟨hd', hname'⟩
      exact Except.ok.inj ((Schema.resolve_eq_ok_iff.mpr hfound).symm.trans hresolved)
    have htakes := (exists_selector_eq_ok_iff (Schema.exists_periodic_of_mem_table hd)).mp hround
    cases compile_eq_error_iff.mp he with
    | unknown hunlisted => exact absurd hname (hunlisted d (Schema.mem_fields.mpr ⟨_, hd⟩))
    | misplaced hunlisted => exact absurd hname (hunlisted d hd)
    | round hd' hname' hrefused =>
      obtain rfl := hsame hd' hname'
      have hrounds := Schema.exists_periodic_of_mem_table hd
      obtain ⟨selector, hselector⟩ := hround
      have hfails := (selector_eq_error_iff hrounds).mpr hrefused
      cases hselector.symm.trans hfails
    | owner hd' hname' _ hforeign =>
      obtain rfl := hsame hd' hname'
      exact absurd howner hforeign
    | comparison _ _ _ _ hrefused => exact isOfComparison_of_refusesComparison hrefused
  · intro hcomparison
    cases hcompile : condition.compile (Schema.ofFields fields).resolve asOf context with
    | ok atom => exact exists_reaches_of_compiles ⟨atom, hcompile⟩
    | error e =>
      have he := hcomparison e hcompile
      cases compile_eq_error_iff.mp hcompile with
      | unknown => exact he.elim
      | misplaced => exact he.elim
      | round _ _ hrefused => exact absurd he (not_isOfComparison_of_refusesRound hrefused)
      | owner => exact he.elim
      | comparison hd hname htakes howner _ =>
        have hfound := Schema.find?_ofFields_eq_some_iff.mpr ⟨hd, hname⟩
        have hrounds := Schema.exists_periodic_of_mem_table hd
        exact ⟨_, Schema.resolve_eq_ok_iff.mpr hfound,
          (exists_selector_eq_ok_iff hrounds).mpr htakes, howner⟩

end Condition

namespace Store

variable {s : Store} {i : Individual} {h : Household}

/-- A program has a periodic field of a name, which describes individuals and has the round. -/
def HasRound (s : Store) (programId : Uuid) (name : String) (round : UInt32) : Prop :=
  ∃ f ∈ s.periodicFields, f.programId = programId ∧ f.name = name ∧ f.owner = .individual ∧
    1 ≤ round ∧ round ≤ f.spec.numberOfRounds

/-- A value is recorded in its round on the individual of an identifier. -/
def Records (s : Store) (id : Uuid) (input : NewRoundValue) : Prop :=
  ∃ written t, s.recordRound id input = .ok (some written, t)

private theorem one_le_iff {round : UInt32} : 1 ≤ round ↔ round ≠ 0 := by
  rw [UInt32.le_iff_toNat_le, ne_eq, ← UInt32.toNat_inj, UInt32.toNat_zero, UInt32.toNat_one]
  omega

/-- A round of an individual passes its check exactly when the individual's program has it. -/
theorem checkRound_eq_ok_iff (hs : s.Keyed) (hcatalogued : s.Catalogued) (hh : h ∈ s.households)
    (hid : h.id = i.householdId) {name : String} {round : UInt32} :
    s.checkRound i name round = .ok () ↔ s.HasRound h.programId name round := by
  have hfound := hs.household?_eq_some hh
  rw [hid] at hfound
  constructor
  · intro hcheck
    obtain ⟨household, f, hhousehold, hf, hprogram, hname, howner, hzero, hle⟩ :=
      exists_field_of_checkRound hcheck
    obtain rfl := Option.some.inj (hfound.symm.trans hhousehold)
    exact ⟨f, hf, hprogram, hname, howner, one_le_iff.mpr hzero, hle⟩
  · rintro ⟨f, hf, hprogram, rfl, howner, hone, hle⟩
    have hmem : f ∈ s.periodicFieldsFor i := by
      rw [periodicFieldsFor, hfound]
      simp [periodicFieldsOf, mem_sortedBy, hf, hprogram]
    have hfirst : (s.periodicFieldsFor i).find? (fun g => g.name == f.name) = some f := by
      simpa using find?_key (nodup_periodicFieldsFor hcatalogued i) hmem fun _ => true
    rw [checkRound, hfirst]
    refine check_bind_eq_ok_iff.mpr ⟨require_eq_ok_iff.mpr (by simp [howner]), ?_⟩
    exact require_eq_ok_iff.mpr (by simp [one_le_iff.mp hone, hle])

/-- A round is recorded on an individual exactly when the individual's program has it, whatever
value and date are stated. -/
theorem records_iff (hs : s.Keyed) (hcatalogued : s.Catalogued) (hi : i ∈ s.individuals)
    (hh : h ∈ s.households) (hid : h.id = i.householdId) {input : NewRoundValue} :
    s.Records i.id input ↔ s.HasRound h.programId input.field input.round := by
  rw [← checkRound_eq_ok_iff hs hcatalogued hh hid]
  have hfound := hs.individual?_eq_some hi
  constructor
  · rintro ⟨written, t, hrecord⟩
    rcases recordRound_eq_ok_iff.mp hrecord with ⟨-, hnone, -⟩ | ⟨j, hj, hround, -⟩
    · cases hnone
    · obtain rfl := Option.some.inj (hfound.symm.trans hj)
      exact hround
  · intro hround
    exact ⟨_, _, recordRound_eq_ok_iff.mpr (.inr ⟨i, hfound, hround, rfl, rfl⟩)⟩

/-- A field that a program registered takes exactly the rounds that it has. -/
theorem takesRound_descriptor_iff {f : PeriodicField} {round : UInt32} :
    f.descriptor.TakesRound (some round) ↔ 1 ≤ round ∧ round ≤ f.spec.numberOfRounds := by
  simp [FieldDescriptor.TakesRound, PeriodicField.descriptor]

/-- A condition in a block reaches a round exactly when the program has it, whatever is compared. -/
theorem exists_reaches_condition_iff (hs : s.Catalogued) {programId : Uuid} {input : NewRoundValue}
    {method : ComparisonMethod} {arguments : List String} :
    (∃ d, (input.condition method arguments).Reaches (s.schemaOf programId).resolve
        .individual d) ↔
      s.HasRound programId input.field input.round := by
  constructor
  · rintro ⟨d, hresolved, hround, howner⟩
    obtain ⟨hd, hname⟩ := Schema.mem_of_find? (Schema.resolve_eq_ok_iff.mp hresolved)
    have htakes := (Condition.exists_selector_eq_ok_iff
      (Schema.exists_periodic_of_mem_table hd)).mp hround
    obtain ⟨hcore, -⟩ | ⟨hflex, -⟩ | ⟨-, f, hf, rfl⟩ := Schema.mem_table_ofFields hd
    · cases hcore
    · cases hflex
    · obtain ⟨hone, hle⟩ := takesRound_descriptor_iff.mp htakes
      simp only [fieldsOf, periodicFieldsOf, mem_sortedBy, List.mem_filter, beq_iff_eq] at hf
      exact ⟨f, hf.1, hf.2, hname, howner, hone, hle⟩
  · rintro ⟨f, hf, rfl, hname, howner, hone, hle⟩
    have hmem := hs.periodic_mem_fields hf
    have hresolves := (hs.coherent f.programId).resolvesNames.listed _ hmem .periodic
    rw [if_pos (show FieldClassification.periodic = f.descriptor.classification from rfl),
      show f.descriptor.name = input.field from hname] at hresolves
    have hround : ∃ selector,
        (input.condition method arguments).selector f.descriptor = .ok selector :=
      (Condition.exists_selector_eq_ok_iff fun _ => ⟨f.spec, rfl⟩).mpr
        (takesRound_descriptor_iff.mpr ⟨hone, hle⟩)
    exact ⟨f.descriptor, hresolves, hround, howner⟩

/-- A condition in a block that reaches a round is accepted with some comparison. -/
theorem exists_validate_of_reaches {program : Program} {programId : Uuid}
    (hp : s.program? programId = some program) {input : NewRoundValue} {method : ComparisonMethod}
    {arguments : List String} {d : FieldDescriptor} (asOf : Date)
    (h : (input.condition method arguments).Reaches (s.schemaOf programId).resolve .individual d) :
    ∃ method arguments summary,
      s.validate programId
        { criteria := .single .individual (input.condition method arguments), exclusions := none }
        asOf = .ok summary := by
  obtain ⟨hresolved, ⟨selector, hselector⟩, howner⟩ := h
  obtain ⟨hd, -⟩ := Schema.mem_of_find? (Schema.resolve_eq_ok_iff.mp hresolved)
  obtain ⟨source, hsource⟩ := Schema.exists_source_of_mem_table hd hselector
  obtain ⟨comparison, hcomparison⟩ := d.exists_comparison_sample
  refine ⟨.equals, [d.sampleArgument], exists_validate_single hp ?_⟩
  exact ⟨_, Condition.compile_eq_ok_iff.mpr
    ⟨d, selector, source, comparison, hresolved, hselector, howner, hsource, hcomparison, rfl⟩⟩

/-- A condition that is accepted in a block reaches a field. -/
theorem exists_reaches_of_validate {programId : Uuid} {condition : Condition} {asOf : Date}
    {summary : TargetingSummary}
    (h : s.validate programId { criteria := .single .individual condition, exclusions := none }
      asOf = .ok summary) :
    ∃ d, condition.Reaches (s.schemaOf programId).resolve .individual d := by
  obtain ⟨⟨program, targeting⟩, hcompiled, -⟩ := bind_eq_ok_iff.mp h
  obtain ⟨-, -, -, hpredicate, -⟩ := compileTargeting_eq_ok_iff.mp hcompiled
  have hall := (Criteria.exists_compile_eq_ok_iff _).mp ⟨_, hpredicate⟩
  exact Condition.exists_reaches_of_compiles
    (hall { rule := 0, block := some 0, filter := 0 } condition rfl)

/-- A round can be recorded exactly when it can be targeted. On an individual of a program a value
is recorded in a round of a field, whatever the value and its date, exactly when a condition in a
block on this field and round passes the checks of its name, its round and its entity against the
schema of the program, whatever it compares: then nothing but the comparison can be wrong with it,
and there is a comparison with which it is accepted. -/
theorem recorded_iff_targeted (hs : s.Reachable) (hi : i ∈ s.individuals) (hh : h ∈ s.households)
    (hid : h.id = i.householdId) (input : NewRoundValue) (method : ComparisonMethod)
    (arguments : List String) (asOf : Date) :
    (s.Records i.id input ↔
        ∃ d, (input.condition method arguments).Reaches (s.schemaOf h.programId).resolve
          .individual d) ∧
      (s.Records i.id input ↔
        ∀ e, (input.condition method arguments).compile (s.schemaOf h.programId).resolve asOf
          .individual = .error e → e.IsOfComparison) ∧
      (s.Records i.id input ↔
        ∃ method arguments summary,
          s.validate h.programId
            { criteria := .single .individual (input.condition method arguments)
              exclusions := none } asOf = .ok summary) := by
  obtain ⟨hkeyed, hpopulated⟩ := hs.invariants
  obtain ⟨program, hp, hprogram⟩ := hpopulated.household_program h hh
  have hfound : s.program? h.programId = some program := hprogram ▸ hkeyed.program?_eq_some hp
  have hreaches (method : ComparisonMethod) (arguments : List String) :
      s.Records i.id input ↔
        ∃ d, (input.condition method arguments).Reaches (s.schemaOf h.programId).resolve
          .individual d :=
    (records_iff hkeyed hs.catalogued hi hh hid).trans
      (exists_reaches_condition_iff hs.catalogued).symm
  refine ⟨hreaches _ _, (hreaches _ _).trans Condition.exists_reaches_iff, ?_, ?_⟩
  · intro hrecords
    obtain ⟨d, hd⟩ := (hreaches method arguments).mp hrecords
    exact exists_validate_of_reaches hfound asOf hd
  · rintro ⟨method', arguments', summary, hsummary⟩
    exact (hreaches method' arguments').mpr (exists_reaches_of_validate hsummary)

/-- The first round of the circumference can be targeted on the head, and a round before it can
not. -/
theorem sharedNameStore_rounds_targeted :
    ∃ i ∈ sharedNameStore.individuals, ∃ h ∈ sharedNameStore.households,
      sharedNameStore.Reachable ∧ h.id = i.householdId ∧ i.id = idAfter 6 ∧
        h.programId = idAfter 0 ∧ sharedNameStore.Records i.id firstMeasure ∧
        (∃ method arguments summary,
          sharedNameStore.validate (idAfter 0)
            { criteria := .single .individual (firstMeasure.condition method arguments)
              exclusions := none } exampleMoment.date = .ok summary) ∧
        ¬ sharedNameStore.Records i.id { firstMeasure with round := 0 } := by
  have hprogram : ∀ h ∈ sharedNameStore.households, h.programId = idAfter 0 := by decide +kernel
  obtain ⟨i, hfound, hid, -, hrecord, -⟩ := sharedNameStore_records
  obtain ⟨hi, -⟩ := mem_of_individual? hfound
  obtain ⟨h, hh, hhousehold⟩ :=
    sharedNameStore_reachable.invariants.2.individual_household i hi
  have htargeted (input : NewRoundValue) :=
    recorded_iff_targeted sharedNameStore_reachable hi hh hhousehold input .equals []
      exampleMoment.date
  rw [hprogram h hh] at htargeted
  have hrecords : sharedNameStore.Records i.id firstMeasure := ⟨_, _, hid ▸ hrecord⟩
  obtain ⟨-, -, haccepted⟩ := htargeted firstMeasure
  obtain ⟨-, hzero, -⟩ := htargeted { firstMeasure with round := 0 }
  refine ⟨i, hi, h, hh, sharedNameStore_reachable, hhousehold, hid, hprogram h hh, hrecords,
    haccepted.mp hrecords, fun hrecords => ?_⟩
  refine hzero.mp hrecords (.roundOutOfRange "muac" 0 2) ?_
  cbv

end Store

end Beneficiary
