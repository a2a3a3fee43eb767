import Beneficiary.Proofs.Criteria.Complement
import Beneficiary.Proofs.Criteria.Meaning
import Beneficiary.Targeting.Selection

/-!
# Selections by a filter and by its negation

A rule may hold one filter on the household and nothing else. Without exclusions it selects the
records whose households satisfy the filter. So the rule with an equality and the rule with its
negation split any population between them.
-/

namespace Beneficiary

variable {resolve : Resolver} {asOf : Date} {condition : Condition}

/-- The criteria of one rule with one filter on the household. -/
def Criteria.ofHouseholdFilter (condition : Condition) : Criteria :=
  { rules := [{ householdFilters := [condition], blocks := [] }] }

/-- The exclusions of a request that states none. -/
def ExclusionSpec.none (mode : ProgramMode) : ExclusionSpec := { ids := [], mode }

/-- Stated exclusions without ids exclude no record. -/
theorem ExclusionFilter.excludes_none (mode : ProgramMode) (record : HouseholdRecord) :
    (ofSpec (.none mode)).excludes record = false := by
  have hset : (ofSpec (.none mode)).set.ids = [] := by cases mode <;> decide
  unfold excludes
  rw [hset]
  cases (ofSpec (.none mode)).mode <;> simp

/-- A rule of one filter, without exclusions, selects the records whose households satisfy it. -/
theorem Targeting.exists_compile_ofHouseholdFilter {atom : Atom}
    (h : condition.compile resolve asOf .household = .ok atom) (mode : ProgramMode) :
    ∃ targeting, compile resolve (.ofHouseholdFilter condition) (.none mode) asOf = .ok targeting ∧
      ∀ records, targeting.select records = records.filter fun r => atom.holds r.household := by
  have hcompile : (Criteria.ofHouseholdFilter condition).compile resolve asOf =
      .ok { rules := [{ household := [atom], blocks := [] }] } := by
    simp [Criteria.compile, Criteria.ofHouseholdFilter, traverseFrom, Rule.compile, compileFilters,
      h, Except.mapError, Except.map, bind, Except.bind, pure, Except.pure]
  refine ⟨_, map_eq_ok_iff.mpr ⟨_, hcompile, rfl⟩, ?_⟩
  intro records
  unfold select
  congr 1
  funext record
  simp [selects, qualifies, Predicate.holds, RulePredicate.holds, ExclusionFilter.excludes_none]

/-- Two selections from a population share nothing, and together they are the population. -/
structure Splits {α : Type} (population selected others : List α) : Prop where
  disjoint : selected.Disjoint others
  perm : (selected ++ others).Perm population

/-- A test splits any list into what passes and what does not. -/
theorem splits_filter {α : Type} (passes : α → Bool) (population : List α) :
    Splits population (population.filter passes) (population.filter fun a => !passes a) := by
  refine ⟨?_, List.filter_append_perm passes population⟩
  intro a hpasses hfails
  rw [List.mem_filter] at hpasses hfails
  simp [hpasses.2] at hfails

/-- Negation is the complement of equality. For any field and arguments, the one comparison is
accepted where the other is, and both are refused for one reason, up to the method that it names;
and a value, which may be missing or of any type, satisfies exactly one of them. So of a condition
on a household that compiles, the rule with its equality alone and the rule with its negation alone
split any population. -/
theorem Condition.notEquals_complements_equals (d : FieldDescriptor) (arguments : List String)
    (schema : Schema) (condition : Condition) (asOf : Date) (mode : ProgramMode) :
    ((∃ c, d.comparison .notEquals arguments = .ok c) ↔
      ∃ c, d.comparison .equals arguments = .ok c) ∧
    (∀ e, d.comparison .equals arguments = .error e →
      d.comparison .notEquals arguments = .error (e.withMethod .notEquals)) ∧
    (∀ e, d.comparison .notEquals arguments = .error e →
      d.comparison .equals arguments = .error (e.withMethod .equals)) ∧
    (∀ c c', d.comparison .equals arguments = .ok c → d.comparison .notEquals arguments = .ok c' →
      ∀ value : Option Value, c'.holds value = !c.holds value) ∧
    (Compiles schema.resolve asOf .household { condition with method := .notEquals } ↔
      Compiles schema.resolve asOf .household { condition with method := .equals }) ∧
    (Compiles schema.resolve asOf .household { condition with method := .equals } →
      ∃ equal unequal : Targeting,
        Targeting.compile schema.resolve
          (.ofHouseholdFilter { condition with method := .equals }) (.none mode) asOf =
            .ok equal ∧
        Targeting.compile schema.resolve
          (.ofHouseholdFilter { condition with method := .notEquals }) (.none mode) asOf =
            .ok unequal ∧
        ∀ population,
          Splits population (equal.select population) (unequal.select population)) := by
  refine ⟨FieldDescriptor.exists_comparison_notEquals_iff,
    fun e => FieldDescriptor.comparison_notEquals_eq_error,
    fun e => FieldDescriptor.comparison_equals_eq_error,
    fun c c' h h' => (FieldDescriptor.complements_of_comparison h h').holds_eq,
    compiles_notEquals_iff, ?_⟩
  intro hcompiles
  obtain ⟨atom, hatom⟩ := hcompiles
  obtain ⟨atom', hatom'⟩ := compiles_notEquals_iff.mpr ⟨atom, hatom⟩
  obtain ⟨equal, hequal, hselect⟩ := Targeting.exists_compile_ofHouseholdFilter hatom mode
  obtain ⟨unequal, hunequal, hselect'⟩ := Targeting.exists_compile_ofHouseholdFilter hatom' mode
  refine ⟨equal, unequal, hequal, hunequal, ?_⟩
  intro population
  rw [hselect, hselect']
  simp only [holds_notEquals hatom hatom']
  exact splits_filter _ population

/-- A selection of two options. -/
def exampleSelection : FieldDescriptor :=
  { name := "aid", owner := .household, valueType := .list, classification := .flex, label := none
    choices := ["CASH", "FOOD"], periodic := none }

/-- The example household, with nothing known of its water. -/
def waterlessRecord : HouseholdRecord :=
  { exampleRecord with
    household := { exampleRecord.household with flexFields := .of [] } }

/-- Both comparisons refuse what is no option, and both ask for some; of an empty selection and of a
missing one, one of them holds. The households with a well, and those without one or of which it is
not known, make up the population. -/
theorem Condition.exampleSelection_complemented :
    exampleSelection.comparison .notEquals ["CASH", "GOLD"] =
        .error (.argumentType "aid" .list "GOLD") ∧
      exampleSelection.comparison .notEquals [] =
        .error (.argumentCount .notEquals (.atLeast 1) 0) ∧
      (∃ c c', exampleSelection.comparison .equals ["FOOD"] = .ok c ∧
        exampleSelection.comparison .notEquals ["FOOD"] = .ok c' ∧
        c'.holds (some (.list [])) = !c.holds (some (.list [])) ∧
        c'.holds none = !c.holds none) ∧
      ∃ equal unequal : Targeting,
        Targeting.compile (Schema.ofFields exampleFields).resolve
          (.ofHouseholdFilter (.flex "water" .equals ["WELL"])) (.none .household) exampleDate =
            .ok equal ∧
        Targeting.compile (Schema.ofFields exampleFields).resolve
          (.ofHouseholdFilter (.flex "water" .notEquals ["WELL"])) (.none .household)
            exampleDate = .ok unequal ∧
        Splits [exampleRecord, waterlessRecord] (equal.select [exampleRecord, waterlessRecord])
          (unequal.select [exampleRecord, waterlessRecord]) := by
  let schema := Schema.ofFields exampleFields
  let condition : Condition := .flex "water" .equals ["WELL"]
  have hrefused := (notEquals_complements_equals exampleSelection ["CASH", "GOLD"] schema condition
    exampleDate .household).2.1 (.argumentType "aid" .list "GOLD") (by decide)
  have hmiscounted := (notEquals_complements_equals exampleSelection [] schema condition
    exampleDate .household).2.1 (.argumentCount .equals (.atLeast 1) 0) (by decide)
  obtain ⟨-, -, -, hcomplement, -, hsplit⟩ :=
    notEquals_complements_equals exampleSelection ["FOOD"] schema condition exampleDate .household
  have hequal : exampleSelection.comparison .equals ["FOOD"] = .ok (.within ["FOOD"]) := by decide
  have hunequal : exampleSelection.comparison .notEquals ["FOOD"] = .ok (.notWithin ["FOOD"]) := by
    decide
  have hcompiles : (condition.compile schema.resolve exampleDate .household).toOption.isSome =
      true := by
    decide +kernel
  obtain ⟨atom, hatom⟩ := Option.isSome_iff_exists.mp hcompiles
  obtain ⟨equal, unequal, hcompile, hcompile', hsplits⟩ :=
    hsplit ⟨atom, toOption_eq_some_iff.mp hatom⟩
  exact ⟨hrefused, hmiscounted,
    ⟨_, _, hequal, hunequal, hcomplement _ _ hequal hunequal _, hcomplement _ _ hequal hunequal _⟩,
    equal, unequal, hcompile, hcompile', hsplits _⟩

end Beneficiary
