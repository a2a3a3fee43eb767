import Beneficiary.Proofs.Criteria.Acceptance
import Beneficiary.Proofs.Criteria.Meaning

/-!
# What errors say of conditions

An error repeats what it blames: the name that the condition gives, the classification it declares,
the round it names, its method and its arguments, and of the field the owner, the type and the
number of rounds. What it repeats is what the condition and the schema really hold, whatever the
kind of the error and wherever in the criteria the condition stands. One error is the exception: of
a round for a field that has none it says that the condition declares a periodic field.
-/

namespace Beneficiary

/-- An error describes a condition at a place: whatever it repeats of the condition stands there,
and whatever it says of the field is so in the schema. -/
def ConditionError.Describes (schema : Schema) (location : Location) (condition : Condition) :
    ConditionError → Prop
  | unknownField field => field = condition.field ∧ ∀ d ∈ schema.fields, d.name ≠ field
  | classificationMismatch field declared actual =>
    field = condition.field ∧ declared = condition.classification ∧ declared ≠ actual ∧
      ∃ d ∈ schema.table actual, d.name = field
  | missingRound field =>
    field = condition.field ∧ condition.round = none ∧
      ∃ d, schema.resolve condition.field condition.classification = .ok d ∧
        d.classification = .periodic
  | roundOutOfRange field round numberOfRounds =>
    field = condition.field ∧ condition.round = some round ∧
      ¬ (1 ≤ round ∧ round ≤ numberOfRounds) ∧
      ∃ d spec, schema.resolve condition.field condition.classification = .ok d ∧
        d.periodic = some spec ∧ numberOfRounds = spec.numberOfRounds
  | argumentCount method expected actual =>
    method = condition.method ∧ actual = condition.arguments.length ∧
      expected.accepts actual = false ∧
      ∃ d, schema.resolve condition.field condition.classification = .ok d ∧
        expected = method.arity d.valueType
  | argumentType field valueType argument =>
    field = condition.field ∧ argument ∈ condition.arguments ∧
      ∃ d, schema.resolve condition.field condition.classification = .ok d ∧
        valueType = d.valueType ∧ ¬ d.Admits argument
  | crossEntity field owner context =>
    field = condition.field ∧ (context = .household ↔ location.block = none) ∧ owner ≠ context ∧
      ∃ d, schema.resolve condition.field condition.classification = .ok d ∧ owner = d.owner
  | unsupportedComparison field method valueType =>
    field = condition.field ∧ method = condition.method ∧ method.supports valueType = false ∧
      ∃ d, schema.resolve condition.field condition.classification = .ok d ∧
        valueType = d.valueType

/-- A condition names a round for a field that is found, and is not declared periodic. -/
def Condition.NamesStrayRound (schema : Schema) (condition : Condition) : Prop :=
  condition.classification ≠ .periodic ∧ condition.round ≠ none ∧
    ∃ d, schema.resolve condition.field condition.classification = .ok d

/-- The entity at a place is the household exactly where the place is in no block. -/
theorem Location.context_eq_household_iff (l : Location) :
    l.context = .household ↔ l.block = none := by
  unfold context
  cases l.block <;> simp

namespace Condition

variable {fields : ProgramFields} {location : Location} {condition : Condition}
  {d : FieldDescriptor} {e : ConditionError}

/-- A field that is listed under the name of a condition in its table is the one found for it. -/
theorem resolve_of_listed (hd : d ∈ (Schema.ofFields fields).table condition.classification)
    (hname : d.name = condition.field) :
    (Schema.ofFields fields).resolve condition.field condition.classification = .ok d :=
  Schema.resolve_eq_ok_iff.mpr (Schema.find?_ofFields_eq_some_iff.mpr ⟨hd, hname⟩)

private theorem describes_of_refusesRound
    (hd : (Schema.ofFields fields).resolve condition.field condition.classification = .ok d)
    (h : d.RefusesRound condition.round e)
    (hround : ¬ condition.NamesStrayRound (Schema.ofFields fields)) :
    e.Describes (Schema.ofFields fields) location condition := by
  obtain ⟨hname, hclass⟩ := Schema.resolve_ofFields hd
  generalize hnamed : condition.round = round at h
  cases h with
  | missing hperiodic => exact ⟨hname, hnamed, d, hd, hperiodic⟩
  | outOfRange _ hspec houtside => exact ⟨hname, hnamed, houtside, d, _, hd, hspec, rfl⟩
  | unexpected hother =>
    refine absurd ⟨hclass ▸ hother, ?_, d, hd⟩ hround
    rw [hnamed]
    exact Option.some_ne_none _

private theorem describes_of_refusesComparison
    (hd : (Schema.ofFields fields).resolve condition.field condition.classification = .ok d)
    (h : d.RefusesComparison condition.method condition.arguments e) :
    e.Describes (Schema.ofFields fields) location condition := by
  have hname := (Schema.resolve_ofFields hd).1
  cases h with
  | method hundefined =>
    rw [← ComparisonMethod.supports_eq_true_iff, Bool.not_eq_true] at hundefined
    exact ⟨hname, rfl, hundefined, d, hd, rfl⟩
  | count _ hmiscounted =>
    rw [← ComparisonMethod.accepts_arity_iff, Bool.not_eq_true] at hmiscounted
    exact ⟨rfl, rfl, hmiscounted, d, hd, rfl⟩
  | argument _ _ hsplit _ hbad =>
    have hmem : _ ∈ condition.arguments := hsplit ▸ List.mem_append_right _ List.mem_cons_self
    exact ⟨hname, hmem, d, hd, rfl, hbad⟩

/-- The first check that a condition fails is told truly, unless it is that of a stray round. -/
theorem Refused.describes
    (h : condition.Refused (Schema.ofFields fields) location.context e)
    (hround : ¬ condition.NamesStrayRound (Schema.ofFields fields)) :
    e.Describes (Schema.ofFields fields) location condition := by
  cases h with
  | unknown hunlisted => exact ⟨rfl, hunlisted⟩
  | misplaced hunlisted _ _ hlisted =>
    refine ⟨rfl, rfl, ?_, hlisted⟩
    rintro rfl
    obtain ⟨d, hd, hname⟩ := hlisted
    exact hunlisted d hd hname
  | round hd hname hrefused =>
    exact describes_of_refusesRound (resolve_of_listed hd hname) hrefused hround
  | owner hd hname _ hforeign =>
    exact ⟨hname, location.context_eq_household_iff, hforeign, _, resolve_of_listed hd hname, rfl⟩
  | comparison hd hname _ _ hrefused =>
    exact describes_of_refusesComparison (resolve_of_listed hd hname) hrefused

/-- A stray round is refused as if the condition declared a periodic field. -/
theorem compile_of_namesStrayRound {context : EntityKind} {asOf : Date}
    (h : condition.NamesStrayRound (Schema.ofFields fields)) :
    condition.compile (Schema.ofFields fields).resolve asOf context =
      .error (.classificationMismatch condition.field .periodic condition.classification) := by
  obtain ⟨hdeclared, hnamed, d, hd⟩ := h
  obtain ⟨hname, hclass⟩ := Schema.resolve_ofFields hd
  obtain ⟨number, hnumber⟩ := Option.ne_none_iff_exists'.mp hnamed
  have hmem := (Schema.mem_of_find? (Schema.resolve_eq_ok_iff.mp hd)).1
  refine compile_eq_error_iff.mpr (.round hmem hname ?_)
  rw [hnumber, ← hname, ← hclass]
  exact .unexpected (hclass ▸ hdeclared)

end Condition

/-- Errors describe their conditions. The condition that an error carries stands at the place of the
error. What the error says of it is true, unless the condition names a round for a field that is
found under a classification other than the periodic one. Then the error is always that the
condition declares a periodic field, and this is not what the condition declares. -/
theorem Criteria.errors_describe_conditions (fields : ProgramFields) (criteria : Criteria)
    (asOf : Date) (e : CompileError)
    (h : criteria.compile (Schema.ofFields fields).resolve asOf = .error e) :
    criteria.conditionAt? e.location = some e.condition ∧
      (e.cause.Describes (Schema.ofFields fields) e.location e.condition ↔
        ¬ e.condition.NamesStrayRound (Schema.ofFields fields)) ∧
      (e.condition.NamesStrayRound (Schema.ofFields fields) →
        e.cause =
          .classificationMismatch e.condition.field .periodic e.condition.classification) := by
  obtain ⟨hfound, hcause, -⟩ := (criteria.compile_eq_error_iff e).mp h
  have hstray (hround : e.condition.NamesStrayRound (Schema.ofFields fields)) :
      e.cause = .classificationMismatch e.condition.field .periodic e.condition.classification :=
    Except.error.inj (hcause.symm.trans (Condition.compile_of_namesStrayRound hround))
  refine ⟨hfound, ⟨?_, (Condition.compile_eq_error_iff.mp hcause).describes⟩, hstray⟩
  intro hdescribes hround
  rw [hstray hround] at hdescribes
  exact hround.1 hdescribes.2.1.symm

/-- Criteria whose second rule asks for a third round of a score that is collected twice. -/
def belatedCriteria : Criteria :=
  { rules :=
      [{ householdFilters := [.core "size" .greaterThan ["9"]], blocks := [] },
       { householdFilters := [.flex "water" .equals ["WELL"]]
         blocks :=
          [{ headOnly := true, filters := [] },
           { headOnly := false
             filters :=
              [.core "age" .lessThan ["5"], .periodic "score" (some 3) .range ["2", "3"]] }] }] }

/-- The error of a third round is described: the condition stands in the second block of the second
rule, names that round, and its field has two. -/
theorem Criteria.belatedCriteria_described :
    ∃ e, belatedCriteria.compile (Schema.ofFields exampleFields).resolve exampleDate = .error e ∧
      e.location = ⟨1, some 1, 1⟩ ∧ e.cause = .roundOutOfRange "score" 3 2 ∧
      belatedCriteria.conditionAt? e.location = some e.condition ∧
      e.cause.Describes (Schema.ofFields exampleFields) e.location e.condition := by
  have hrun : belatedCriteria.compile (Schema.ofFields exampleFields).resolve exampleDate =
      .error { cause := .roundOutOfRange "score" 3 2, location := ⟨1, some 1, 1⟩
               condition := .periodic "score" (some 3) .range ["2", "3"] } := by
    rfl
  obtain ⟨hfound, hdescribes, -⟩ := errors_describe_conditions exampleFields _ _ _ hrun
  refine ⟨_, hrun, rfl, rfl, hfound, hdescribes.mpr ?_⟩
  rintro ⟨hdeclared, -⟩
  exact hdeclared rfl

/-- A program with an attribute and a periodic field of one name. -/
def twinFields : ProgramFields :=
  { exampleFields with
    flexAttributes :=
      [{ id := ⟨13⟩, programId := ⟨1⟩, name := "score", owner := .individual
         valueType := .number, label := none, choices := []
         createdAt := exampleRecord.household.createdAt }] }

/-- A round of the attribute, which has none. -/
def strayRound : Condition :=
  { Condition.flex "score" .greaterThan ["1"] with round := some 1 }

/-- The error of a round that is named for an attribute says that the condition declares a periodic
field and that the field is an attribute, where it is the other way round. -/
theorem Criteria.strayRound_misdescribed :
    ∃ e, Criteria.compile (Schema.ofFields twinFields).resolve exampleDate
        { rules :=
            [{ householdFilters := [], blocks := [{ headOnly := false, filters := [strayRound] }] }]
        } = .error e ∧
      e.condition.classification = .flex ∧
      e.cause = .classificationMismatch "score" .periodic .flex ∧
      ¬ e.cause.Describes (Schema.ofFields twinFields) e.location e.condition := by
  refine ⟨_, rfl, rfl, rfl, ?_⟩
  rintro ⟨-, hdeclared, -⟩
  cases hdeclared

end Beneficiary
