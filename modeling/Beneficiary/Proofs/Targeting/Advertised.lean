import Beneficiary.Proofs.Criteria.FirstError
import Beneficiary.Proofs.Store.Catalog
import Beneficiary.Proofs.Targeting.Accounting

/-!
# Fields that rules can use

The fields listed for a program are exactly those that its rules can use. A condition that compiles
is about a listed field, declared as listed, of the entity that it describes. And every listed field
has a sample condition that is accepted: the test for equality with an argument of the field's type,
in the first round where the field is periodic.
-/

namespace Beneficiary

/-- Criteria of one condition: a household filter, or the filter of a block for any member. -/
def Criteria.single (context : EntityKind) (condition : Condition) : Criteria :=
  match context with
  | .household => { rules := [{ householdFilters := [condition], blocks := [] }] }
  | .individual =>
    { rules :=
        [{ householdFilters := [], blocks := [{ headOnly := false, filters := [condition] }] }] }

/-- No other condition stands in criteria of one, and it stands in its own context. -/
theorem Criteria.conditionAt?_single {context : EntityKind} {condition c : Condition} {l : Location}
    (h : (Criteria.single context condition).conditionAt? l = some c) :
    c = condition ∧ l.context = context := by
  obtain ⟨rule, block, filter⟩ := l
  cases context <;> cases block <;>
    simp_all [Criteria.single, Criteria.conditionAt?, Rule.conditionAt?, Location.context,
      List.getElem?_singleton, Option.bind_eq_some_iff]

namespace FieldDescriptor

/-- An argument that is read as a value of the field. -/
def sampleArgument (d : FieldDescriptor) : String :=
  match d.valueType with
  | .number => "0"
  | .date => "2024-01-01"
  | .boolean => "true"
  | .string => ""
  | .enum => d.choices.headD ""
  | .list => d.choices.headD ""

/-- The test for equality with the sample argument, in the first round of a periodic field. -/
def sampleCondition (d : FieldDescriptor) : Condition :=
  { field := d.name
    classification := d.classification
    round := if d.classification = .periodic then some 1 else none
    method := .equals
    arguments := [d.sampleArgument] }

variable {d : FieldDescriptor}

/-- The first choice is allowed; without choices everything is. -/
theorem allowsChoice_headD (d : FieldDescriptor) (default : String) :
    d.allowsChoice (d.choices.headD default) = true := by
  unfold allowsChoice
  cases d.choices <;> simp

/-- The sample argument of a type with choices is one of them. -/
theorem allowsChoice_sampleArgument (h : d.valueType.hasChoices = true) :
    d.allowsChoice d.sampleArgument = true := by
  have hfirst := d.allowsChoice_headD ""
  unfold sampleArgument
  cases htype : d.valueType <;> simp_all [ValueType.hasChoices]

/-- The sample argument is read as a value of the type. -/
theorem exists_ofArgument?_sample (d : FieldDescriptor) :
    ∃ value, Value.ofArgument? d.valueType d.sampleArgument = some value := by
  have hnumber : (Value.ofArgument? .number "0").isSome = true := by decide +kernel
  have hdate : (Value.ofArgument? .date "2024-01-01").isSome = true := by decide +kernel
  have hbool : (Value.ofArgument? .boolean "true").isSome = true := by decide +kernel
  unfold sampleArgument
  cases d.valueType with
  | number => exact Option.isSome_iff_exists.mp hnumber
  | date => exact Option.isSome_iff_exists.mp hdate
  | boolean => exact Option.isSome_iff_exists.mp hbool
  -- these types keep every argument as it is
  | string => exact ⟨_, rfl⟩
  | enum => exact ⟨_, rfl⟩
  | list => exact ⟨_, rfl⟩

/-- The sample argument can be compared with. -/
theorem exists_comparison_sample (d : FieldDescriptor) :
    ∃ comparison, d.comparison .equals [d.sampleArgument] = .ok comparison := by
  have hcount : ((ComparisonMethod.equals.arity d.valueType).accepts 1) = true := by
    cases d.valueType <;> rfl
  have hchecked : d.comparison .equals [d.sampleArgument] =
      d.comparisonOf .equals [d.sampleArgument] := by
    simp [comparison, ComparisonMethod.supports, hcount]
  rw [hchecked]
  by_cases hlist : d.valueType = .list
  · have hallowed := d.allowsChoice_sampleArgument (by rw [hlist]; rfl)
    refine ⟨.within (optionSet [d.sampleArgument]), ?_⟩
    simp [comparisonOf, hlist, selectionComparison, optionArguments, hallowed, Except.map]
  · obtain ⟨value, hvalue⟩ := d.exists_ofArgument?_sample
    have hargument : d.argument d.sampleArgument = .ok value := by
      rw [argument, hvalue]
      refine if_neg fun h => ?_
      have hallowed := d.allowsChoice_sampleArgument (by rw [h.1]; rfl)
      simp [hallowed] at h
    refine ⟨.equals value, ?_⟩
    cases htype : d.valueType <;>
      simp_all [comparisonOf, Except.map]

/-- The sample condition selects a round just where the field is periodic, the first one. -/
theorem exists_selector_sample (h : d.WellFormed) :
    ∃ selector, d.sampleCondition.selector d = .ok selector := by
  by_cases hperiodic : d.classification = .periodic
  · obtain ⟨spec, hspec, -, -, hrounds, -⟩ := h.rounds hperiodic
    have hround : RoundSelector.of d (some 1) =
        .ok { field := d.name, round := 1, valueType := d.valueType } := by
      simp [RoundSelector.of, rounds?, hperiodic, hspec, hrounds]
    refine ⟨some { field := d.name, round := 1, valueType := d.valueType }, ?_⟩
    simp [Condition.selector, sampleCondition, hperiodic, hround, Except.map]
  · exact ⟨none, by simp [Condition.selector, sampleCondition, hperiodic]⟩

/-- The sample condition compiles where the name refers to the field, which is well stated and has a
reader if it is a core field. -/
theorem compiles_sampleCondition {resolve : Resolver} {asOf : Date}
    (hresolve : resolve d.name d.classification = .ok d) (hwell : d.WellFormed)
    (hcore : d.classification = .core → ∃ field, CoreField.find? d.name = some field) :
    d.sampleCondition.Compiles resolve asOf d.owner := by
  obtain ⟨selector, hselector⟩ := exists_selector_sample hwell
  obtain ⟨comparison, hcomparison⟩ := d.exists_comparison_sample
  obtain ⟨source, hsource⟩ : ∃ source, Condition.source d selector = .ok source := by
    rcases Condition.selector_cases hselector with ⟨-, s, -, rfl⟩ | ⟨hperiodic, -, rfl⟩
    · exact ⟨.periodic s, rfl⟩
    · unfold Condition.source
      cases hclass : d.classification with
      | core =>
        obtain ⟨field, hfield⟩ := hcore hclass
        exact ⟨.core field, by simp [hfield]⟩
      | flex => exact ⟨.flex d.name d.valueType, rfl⟩
      | periodic => exact absurd hclass hperiodic
  exact ⟨_, Condition.compile_eq_ok_iff.mpr
    ⟨d, selector, source, comparison, hresolve, hselector, rfl, hsource, hcomparison, rfl⟩⟩

end FieldDescriptor

namespace Store

variable {s : Store} {programId : Uuid}

/-- A condition that compiles against the schema of a program is about one of its fields, declared
as it is listed and of the entity that it describes. -/
theorem exists_mem_fields_of_compiles (hs : s.Catalogued) {asOf : Date} {context : EntityKind}
    {condition : Condition} (h : condition.Compiles (s.schemaOf programId).resolve asOf context) :
    ∃ d ∈ (s.schemaOf programId).fields, d.name = condition.field ∧
      d.classification = condition.classification ∧ d.owner = context := by
  obtain ⟨atom, h⟩ := h
  obtain ⟨d, -, -, -, hd, -, howner, -⟩ := Condition.compile_eq_ok_iff.mp h
  obtain ⟨hd, hname⟩ := Schema.mem_of_find? (Schema.resolve_eq_ok_iff.mp hd)
  exact ⟨d, Schema.mem_fields.mpr ⟨_, hd⟩, hname, (hs.coherent programId).classified _ d hd, howner⟩

/-- Criteria of one condition that compiles are accepted, on every date. -/
theorem exists_validate_single {program : Program} (hp : s.program? programId = some program)
    {context : EntityKind} {condition : Condition} {asOf : Date}
    (h : condition.Compiles (s.schemaOf programId).resolve asOf context) :
    ∃ summary, s.validate programId { criteria := .single context condition, exclusions := none }
      asOf = .ok summary := by
  have hall : ∀ l c, (Criteria.single context condition).conditionAt? l = some c →
      c.Compiles (s.schemaOf programId).resolve asOf l.context := by
    intro l c hc
    obtain ⟨rfl, rfl⟩ := Criteria.conditionAt?_single hc
    exact h
  obtain ⟨predicate, hpredicate⟩ := (Criteria.exists_compile_eq_ok_iff _).mpr hall
  have hcompiled : s.compileTargeting programId
      { criteria := .single context condition, exclusions := none } asOf =
      .ok (program, { predicate, exclusions := .ofSpec { ids := [], mode := program.mode } }) :=
    compileTargeting_eq_ok_iff.mpr ⟨hp, _, rfl, hpredicate, rfl⟩
  rw [validate, hcompiled]
  exact ⟨_, rfl⟩

/-- The fields listed for a program are exactly those that its rules can use. A condition that
compiles, as a household filter or in a block, is about a listed field, declared as it is listed and
of the entity that it describes. And on every listed field some condition is accepted, on every
date. -/
theorem listed_fields_exact (hs : s.Reachable) {program : Program}
    (hp : s.program? programId = some program) :
    ∃ fields, s.fieldDescriptors programId = .ok fields ∧
      (∀ asOf context condition,
        Condition.Compiles (s.schemaOf programId).resolve asOf context condition →
          ∃ d ∈ fields, d.name = condition.field ∧
            d.classification = condition.classification ∧ d.owner = context) ∧
      ∀ d ∈ fields, ∃ method arguments round, ∀ asOf, ∃ summary,
        s.validate programId
          { criteria := .single d.owner
              { field := d.name, classification := d.classification, round, method, arguments }
            exclusions := none } asOf = .ok summary := by
  have hs := hs.catalogued
  have hresolves := (hs.coherent programId).resolvesNames
  refine ⟨_, fieldDescriptors_eq hp, fun asOf context condition h =>
    exists_mem_fields_of_compiles hs h, fun d hd => ?_⟩
  refine ⟨d.sampleCondition.method, d.sampleCondition.arguments, d.sampleCondition.round,
    fun asOf => exists_validate_single hp ?_⟩
  have hresolve : (s.schemaOf programId).resolve d.name d.classification = .ok d := by
    rw [hresolves.listed d hd, if_pos rfl]
  refine FieldDescriptor.compiles_sampleCondition hresolve (hs.wellFormed_of_mem hd) fun hcore => ?_
  exact hs.exists_coreField hd hcore

/-- The measured circumference can be used in a block, and not as a household filter. -/
theorem catalogStore_usable :
    catalogStore.Reachable ∧ (catalogStore.program? (idAfter 0)).isSome = true ∧
      (∃ method arguments round, ∀ asOf, ∃ summary, catalogStore.validate (idAfter 0)
        { criteria := .single .individual
            { field := "muac", classification := .periodic, round, method, arguments }
          exclusions := none } asOf = .ok summary) ∧
      ∀ asOf round method arguments,
        ¬ Condition.Compiles (catalogStore.schemaOf (idAfter 0)).resolve asOf .household
          { field := "muac", classification := .periodic, round, method, arguments } := by
  have hsome : (catalogStore.program? (idAfter 0)).isSome = true := by decide +kernel
  obtain ⟨program, hp⟩ := Option.isSome_iff_exists.mp hsome
  obtain ⟨fields, hfields, hsound, hcomplete⟩ := listed_fields_exact catalogStore_reachable hp
  rw [fieldDescriptors_eq hp] at hfields
  obtain rfl := Except.ok.inj hfields
  have hlisted : armCircumference.descriptor ∈ (catalogStore.schemaOf (idAfter 0)).fields := by
    decide +kernel
  have howner : ∀ d ∈ (catalogStore.schemaOf (idAfter 0)).fields, d.name = "muac" →
      d.owner ≠ .household := by
    decide +kernel
  have haccepted := hcomplete armCircumference.descriptor hlisted
  have hdescribed : armCircumference.descriptor.name = "muac" ∧
      armCircumference.descriptor.classification = .periodic ∧
      armCircumference.descriptor.owner = .individual := ⟨rfl, rfl, rfl⟩
  rw [hdescribed.1, hdescribed.2.1, hdescribed.2.2] at haccepted
  refine ⟨catalogStore_reachable, hsome, haccepted, ?_⟩
  intro asOf round method arguments h
  obtain ⟨d, hd, hname, -, hhousehold⟩ := hsound asOf .household _ h
  exact howner d hd hname hhousehold

end Store

end Beneficiary
