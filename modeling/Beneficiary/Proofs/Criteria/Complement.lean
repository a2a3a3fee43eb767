import Beneficiary.Proofs.Criteria.Arguments
import Beneficiary.Proofs.Criteria.FirstError

/-!
# Equality and its complement

Two comparisons are made for equality and for its negation, each in one form for single values and
one for selections. They take the same arguments and refuse the others for the same reason; and
whatever the value, missing or of whatever type, it satisfies exactly one of the two. The same goes
for conditions that differ in nothing else.
-/

namespace Beneficiary

/-- The error, naming another method where it names one. -/
def ConditionError.withMethod (method : ComparisonMethod) : ConditionError → ConditionError
  | argumentCount _ expected actual => .argumentCount method expected actual
  | unsupportedComparison field _ valueType => .unsupportedComparison field method valueType
  | e => e

/-- An equality and its negation, of a value or of a set of options. -/
inductive Comparison.Complements : Comparison → Comparison → Prop where
  | value (value : Value) : Complements (.equals value) (.notEquals value)
  | options (options : List String) : Complements (.within options) (.notWithin options)

/-- A value that may be missing satisfies the negation just where it does not satisfy the
equality. -/
theorem Comparison.Complements.holds_eq {comparison other : Comparison}
    (h : comparison.Complements other) (value : Option Value) :
    other.holds value = !comparison.holds value := by
  cases h <;> cases value <;> rfl

namespace FieldDescriptor

variable {d : FieldDescriptor} {method other : ComparisonMethod} {arguments : List String}

/-- Methods that are defined for the field, and take as many arguments, refuse arguments for the
same reason. -/
theorem RefusesComparison.withMethod {e : ConditionError}
    (h : d.RefusesComparison method arguments e) (hmethod : method.IsDefinedFor d.valueType)
    (hother : other.IsDefinedFor d.valueType)
    (harity : other.arity d.valueType = method.arity d.valueType) :
    d.RefusesComparison other arguments (e.withMethod other) := by
  have hcount (count : Nat) :
      other.TakesCount d.valueType count ↔ method.TakesCount d.valueType count := by
    rw [← other.accepts_arity_iff, ← method.accepts_arity_iff, harity]
  cases h with
  | method hundefined => exact absurd hmethod hundefined
  | count _ hmiscounted =>
    rw [ConditionError.withMethod, ← harity]
    exact .count hother (mt (hcount _).mp hmiscounted)
  | argument _ hcounted hsplit hbefore hbad =>
    exact .argument hother ((hcount _).mpr hcounted) hsplit hbefore hbad

/-- An equality and its negation take the same number of arguments. -/
theorem arity_notEquals (type : ValueType) :
    ComparisonMethod.arity .notEquals type = ComparisonMethod.arity .equals type := by
  cases type <;> rfl

/-- A negation is accepted exactly where the equality is. -/
theorem exists_comparison_notEquals_iff :
    (∃ c, d.comparison .notEquals arguments = .ok c) ↔
      ∃ c, d.comparison .equals arguments = .ok c := by
  have hcount : ComparisonMethod.TakesCount .notEquals d.valueType arguments.length ↔
      ComparisonMethod.TakesCount .equals d.valueType arguments.length := by
    rw [← ComparisonMethod.accepts_arity_iff, ← ComparisonMethod.accepts_arity_iff,
      arity_notEquals]
  rw [exists_comparison_eq_ok_iff, exists_comparison_eq_ok_iff, hcount]
  rfl

/-- An equality and its negation that are both accepted are complements. -/
theorem complements_of_comparison {c c' : Comparison}
    (h : d.comparison .equals arguments = .ok c)
    (h' : d.comparison .notEquals arguments = .ok c') : c.Complements c' := by
  obtain ⟨hdefined, hcount, -⟩ := exists_comparison_eq_ok_iff.mp ⟨c, h⟩
  obtain ⟨hdefined', hcount', -⟩ := exists_comparison_eq_ok_iff.mp ⟨c', h'⟩
  rw [comparison_eq_comparisonOf hdefined hcount] at h
  rw [comparison_eq_comparisonOf hdefined' hcount'] at h'
  by_cases hlist : d.valueType = .list
  · simp only [comparisonOf, hlist] at h h'
    obtain ⟨options, hoptions, rfl⟩ := map_eq_ok_iff.mp h
    obtain ⟨options', hoptions', rfl⟩ := map_eq_ok_iff.mp h'
    obtain rfl : options = options' := Except.ok.inj (hoptions.symm.trans hoptions')
    exact .options _
  · obtain ⟨text, rfl⟩ : ∃ text, arguments = [text] := by
      simpa [ComparisonMethod.TakesCount, hlist, List.length_eq_one_iff] using hcount
    rw [comparisonOf_equals hlist] at h
    rw [comparisonOf_notEquals hlist] at h'
    obtain ⟨value, hvalue, rfl⟩ := map_eq_ok_iff.mp h
    obtain ⟨value', hvalue', rfl⟩ := map_eq_ok_iff.mp h'
    obtain rfl : value = value' := Except.ok.inj (hvalue.symm.trans hvalue')
    exact .value value

/-- A negation is refused for what the equality is refused for. -/
theorem comparison_notEquals_eq_error {e : ConditionError}
    (h : d.comparison .equals arguments = .error e) :
    d.comparison .notEquals arguments = .error (e.withMethod .notEquals) :=
  comparison_eq_error_iff.mpr
    ((comparison_eq_error_iff.mp h).withMethod trivial trivial (arity_notEquals _))

/-- An equality is refused for what its negation is refused for. -/
theorem comparison_equals_eq_error {e : ConditionError}
    (h : d.comparison .notEquals arguments = .error e) :
    d.comparison .equals arguments = .error (e.withMethod .equals) :=
  comparison_eq_error_iff.mpr
    ((comparison_eq_error_iff.mp h).withMethod trivial trivial (arity_notEquals _).symm)

end FieldDescriptor

variable {resolve : Resolver} {asOf : Date} {context : EntityKind} {condition : Condition}

namespace Condition

private theorem compile_by_eq_ok_iff {method : ComparisonMethod} {atom : Atom} :
    Condition.compile resolve asOf context { condition with method } = .ok atom ↔
      ∃ d selector source comparison,
        resolve condition.field condition.classification = .ok d ∧
        condition.selector d = .ok selector ∧ d.owner = context ∧
        Condition.source d selector = .ok source ∧
        d.comparison method condition.arguments = .ok comparison ∧
        atom = { field := d.name, source, comparison, asOf } :=
  compile_eq_ok_iff

private theorem compiles_by_iff {method : ComparisonMethod} :
    Compiles resolve asOf context { condition with method } ↔
      ∃ d selector source,
        resolve condition.field condition.classification = .ok d ∧
        condition.selector d = .ok selector ∧ d.owner = context ∧
        Condition.source d selector = .ok source ∧
        ∃ comparison, d.comparison method condition.arguments = .ok comparison := by
  simp only [Compiles, compile_by_eq_ok_iff]
  constructor
  · rintro ⟨-, d, selector, source, c, hd, hselector, howner, hsource, hc, rfl⟩
    exact ⟨d, selector, source, hd, hselector, howner, hsource, c, hc⟩
  · rintro ⟨d, selector, source, hd, hselector, howner, hsource, c, hc⟩
    exact ⟨_, d, selector, source, c, hd, hselector, howner, hsource, hc, rfl⟩

/-- A condition by negation compiles exactly where the one by equality does. -/
theorem compiles_notEquals_iff :
    Compiles resolve asOf context { condition with method := .notEquals } ↔
      Compiles resolve asOf context { condition with method := .equals } := by
  simp only [compiles_by_iff, FieldDescriptor.exists_comparison_notEquals_iff]

/-- An entity satisfies a compiled condition by negation just where it does not satisfy the one by
equality. -/
theorem holds_notEquals {α : Type} [FieldSubject α] {equal unequal : Atom}
    (h : Condition.compile resolve asOf context { condition with method := .equals } = .ok equal)
    (h' : Condition.compile resolve asOf context { condition with method := .notEquals } =
      .ok unequal) (subject : α) :
    unequal.holds subject = !equal.holds subject := by
  obtain ⟨d, selector, source, c, hd, hselector, -, hsource, hc, rfl⟩ :=
    compile_by_eq_ok_iff.mp h
  obtain ⟨d', selector', source', c', hd', hselector', -, hsource', hc', rfl⟩ :=
    compile_by_eq_ok_iff.mp h'
  -- Both find the same field and read the same value.
  obtain rfl : d = d' := Except.ok.inj (hd.symm.trans hd')
  obtain rfl : selector = selector' := Except.ok.inj (hselector.symm.trans hselector')
  obtain rfl : source = source' := Except.ok.inj (hsource.symm.trans hsource')
  exact (FieldDescriptor.complements_of_comparison hc hc').holds_eq (source.read asOf subject)

end Condition

end Beneficiary
