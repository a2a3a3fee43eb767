import Beneficiary.Criteria.Comparison
import Beneficiary.Proofs.Outcome

/-!
# Which arguments a comparison takes

Three checks are made of a comparison, in this order: the method is defined for the type of the
field, it takes that many arguments, and the field admits each of them. Arguments are judged from
the left, so the error of a bad one names the leftmost.
-/

namespace Beneficiary

/-- A method is defined for a type: equality for all, containment for texts and selections, and the
order for numbers and dates. -/
def ComparisonMethod.IsDefinedFor (type : ValueType) : ComparisonMethod → Prop
  | equals => True
  | notEquals => True
  | contains => type = .string ∨ type = .list
  | range => type = .number ∨ type = .date
  | greaterThan => type = .number ∨ type = .date
  | lessThan => type = .number ∨ type = .date

/-- A method takes a number of arguments: two for a range, some for the options of a selection, and
one otherwise. -/
def ComparisonMethod.TakesCount (method : ComparisonMethod) (type : ValueType) (count : Nat) :
    Prop :=
  if method = .range then count = 2
  else if type = .list ∧ method ∈ [equals, notEquals, contains] then 1 ≤ count
  else count = 1

/-- A field admits an argument: it reads as the type of the field, and where there are options to
choose from it is one of them. -/
def FieldDescriptor.Admits (d : FieldDescriptor) (text : String) : Prop :=
  (Value.ofArgument? d.valueType text).isSome = true ∧
    (d.valueType = .enum ∨ d.valueType = .list → d.choices ≠ [] → text ∈ d.choices)

/-- What is wrong with a method and its arguments for a field, by the first check that fails. -/
inductive FieldDescriptor.RefusesComparison (d : FieldDescriptor) (method : ComparisonMethod)
    (arguments : List String) : ConditionError → Prop where
  | method (undefined : ¬ method.IsDefinedFor d.valueType) :
      d.RefusesComparison method arguments (.unsupportedComparison d.name method d.valueType)
  | count (defined : method.IsDefinedFor d.valueType)
      (miscounted : ¬ method.TakesCount d.valueType arguments.length) :
      d.RefusesComparison method arguments
        (.argumentCount method (method.arity d.valueType) arguments.length)
  | argument {before after : List String} {text : String}
      (defined : method.IsDefinedFor d.valueType)
      (counted : method.TakesCount d.valueType arguments.length)
      (split : arguments = before ++ text :: after) (admitted : ∀ t ∈ before, d.Admits t)
      (bad : ¬ d.Admits text) :
      d.RefusesComparison method arguments (.argumentType d.name d.valueType text)

/-- A method is defined for a type exactly when the type supports it. -/
theorem ComparisonMethod.supports_eq_true_iff (method : ComparisonMethod) (type : ValueType) :
    method.supports type = true ↔ method.IsDefinedFor type := by
  cases method <;> cases type <;> simp [supports, IsDefinedFor, ValueType.isOrdered]

/-- A method takes exactly the numbers of arguments that its arity accepts. -/
theorem ComparisonMethod.accepts_arity_iff (method : ComparisonMethod) (type : ValueType)
    (count : Nat) :
    (method.arity type).accepts count = true ↔ method.TakesCount type count := by
  cases method <;> cases type <;> simp [arity, Arity.accepts, TakesCount]

namespace FieldDescriptor

variable {d : FieldDescriptor} {method : ComparisonMethod} {arguments : List String}

instance (d : FieldDescriptor) (text : String) : Decidable (d.Admits text) :=
  inferInstanceAs (Decidable (_ ∧ _))

-- The leftmost argument that the field does not admit.
private def firstBad? (d : FieldDescriptor) (arguments : List String) : Option String :=
  arguments.find? fun text => !decide (d.Admits text)

-- The outcome of reading arguments of which one may be bad.
private def refusalOf (d : FieldDescriptor) : Option String → Except ConditionError Unit
  | none => .ok ()
  | some text => .error (.argumentType d.name d.valueType text)

private theorem firstBad?_cons (text : String) (rest : List String) :
    d.firstBad? (text :: rest) = if d.Admits text then d.firstBad? rest else some text := by
  by_cases h : d.Admits text <;> simp [firstBad?, h]

/-- A field allows a choice exactly when it has none to choose from or this is one of them. -/
theorem allowsChoice_eq_true_iff (text : String) :
    d.allowsChoice text = true ↔ (d.choices ≠ [] → text ∈ d.choices) := by
  by_cases h : d.choices = [] <;> simp [allowsChoice, h]

/-- A field of selections admits the choices that it allows. -/
theorem admits_iff_of_list (h : d.valueType = .list) (text : String) :
    d.Admits text ↔ d.allowsChoice text = true := by
  simp [Admits, h, allowsChoice_eq_true_iff, Value.ofArgument?]

private theorem optionArguments_outcome (h : d.valueType = .list) (arguments : List String) :
    (d.optionArguments arguments).map (fun _ => ()) = d.refusalOf (d.firstBad? arguments) := by
  induction arguments with
  | nil => rfl
  | cons text rest ih =>
    rw [firstBad?_cons, optionArguments]
    by_cases hallowed : d.allowsChoice text = true
    · rw [if_pos hallowed, if_pos ((admits_iff_of_list h text).mpr hallowed), ← ih]
      cases d.optionArguments rest <;> rfl
    · rw [if_neg hallowed, if_neg (mt (admits_iff_of_list h text).mp hallowed)]
      rfl

private theorem argument_outcome (h : d.valueType ≠ .list) (text : String) :
    (d.argument text).map (fun _ => ()) = d.refusalOf (d.firstBad? [text]) := by
  have hchoice : d.Admits text ↔ (Value.ofArgument? d.valueType text).isSome = true ∧
      ¬ (d.valueType = .enum ∧ d.allowsChoice text = false) := by
    simp only [Admits, h, or_false, ← allowsChoice_eq_true_iff, not_and, Bool.not_eq_false]
  rw [firstBad?_cons, argument]
  cases hread : Value.ofArgument? d.valueType text with
  | none =>
    rw [if_neg (by simp [hchoice, hread])]
    rfl
  | some value =>
    dsimp only
    by_cases hbad : d.valueType = .enum ∧ d.allowsChoice text = false
    · rw [if_pos hbad, if_neg (by simp [hchoice, hbad])]
      rfl
    · rw [if_neg hbad, if_pos (hchoice.mpr ⟨by rw [hread]; rfl, hbad⟩)]
      rfl

private theorem range_outcome (h : d.valueType ≠ .list) (low high : String) :
    ((d.argument low >>= fun least => d.argument high >>= fun greatest =>
      .ok (Comparison.range least greatest)).map fun _ => ()) =
      d.refusalOf (d.firstBad? [low, high]) := by
  have hlow := argument_outcome h low
  have hhigh := argument_outcome h high
  rw [firstBad?_cons] at hlow ⊢
  by_cases hadmits : d.Admits low
  · rw [if_pos hadmits] at hlow ⊢
    rw [← hhigh]
    cases hl : d.argument low with
    | error e =>
      rw [hl] at hlow
      cases hlow
    | ok least => cases d.argument high <;> rfl
  · rw [if_neg hadmits] at hlow ⊢
    rw [← hlow]
    cases hl : d.argument low with
    | error e => rfl
    | ok least =>
      rw [hl] at hlow
      cases hlow

/-- A single value is asked to equal the argument. -/
theorem comparisonOf_equals (h : d.valueType ≠ .list) (text : String) :
    d.comparisonOf .equals [text] = (d.argument text).map .equals := by
  cases hv : d.valueType <;> simp_all only [comparisonOf, ne_eq, not_true_eq_false]

/-- A single value is asked to differ from the argument. -/
theorem comparisonOf_notEquals (h : d.valueType ≠ .list) (text : String) :
    d.comparisonOf .notEquals [text] = (d.argument text).map .notEquals := by
  cases hv : d.valueType <;> simp_all only [comparisonOf, ne_eq, not_true_eq_false]

private theorem comparisonOf_outcome_of_list (h : d.valueType = .list)
    (hdefined : method.IsDefinedFor d.valueType) :
    (d.comparisonOf method arguments).map (fun _ => ()) =
      d.refusalOf (d.firstBad? arguments) := by
  have hselection (make : List String → Comparison) :
      (d.selectionComparison make arguments).map (fun _ => ()) =
        d.refusalOf (d.firstBad? arguments) := by
    rw [← optionArguments_outcome h, selectionComparison]
    cases d.optionArguments arguments <;> rfl
  cases method with
  | equals => simpa only [comparisonOf, h] using hselection .within
  | notEquals => simpa only [comparisonOf, h] using hselection .notWithin
  | contains => simpa only [comparisonOf, h] using hselection .intersects
  | range => simp [ComparisonMethod.IsDefinedFor, h] at hdefined
  | greaterThan => simp [ComparisonMethod.IsDefinedFor, h] at hdefined
  | lessThan => simp [ComparisonMethod.IsDefinedFor, h] at hdefined

private theorem comparisonOf_outcome_of_scalar (h : d.valueType ≠ .list)
    (hdefined : method.IsDefinedFor d.valueType)
    (hcount : method.TakesCount d.valueType arguments.length) :
    (d.comparisonOf method arguments).map (fun _ => ()) =
      d.refusalOf (d.firstBad? arguments) := by
  have hscalar (make : Value → Comparison) (text : String) :
      ((d.argument text).map make).map (fun _ => ()) = d.refusalOf (d.firstBad? [text]) := by
    rw [← argument_outcome h]
    cases d.argument text <;> rfl
  by_cases hrange : method = .range
  · subst hrange
    obtain ⟨low, high, rfl⟩ := List.length_eq_two.mp hcount
    exact range_outcome h low high
  · obtain ⟨text, rfl⟩ : ∃ text, arguments = [text] := by
      simpa [ComparisonMethod.TakesCount, hrange, h, List.length_eq_one_iff] using hcount
    cases method with
    | equals =>
      rw [comparisonOf_equals h]
      exact hscalar .equals text
    | notEquals =>
      rw [comparisonOf_notEquals h]
      exact hscalar .notEquals text
    | contains =>
      have hstring : d.valueType = .string := hdefined.resolve_right h
      have hadmits : d.Admits text := by simp [Admits, hstring, Value.ofArgument?]
      have hmake : d.comparisonOf .contains [text] = .ok (.substring text) := by
        simp only [comparisonOf, hstring]
      rw [hmake, firstBad?_cons, if_pos hadmits]
      rfl
    | range => exact absurd rfl hrange
    | greaterThan => exact hscalar .greaterThan text
    | lessThan => exact hscalar .lessThan text

/-- A method that is defined and counted leaves the arguments alone to be judged. -/
theorem comparison_eq_comparisonOf (hdefined : method.IsDefinedFor d.valueType)
    (hcount : method.TakesCount d.valueType arguments.length) :
    d.comparison method arguments = d.comparisonOf method arguments := by
  have hsupports := (method.supports_eq_true_iff d.valueType).mpr hdefined
  have haccepts := (method.accepts_arity_iff d.valueType arguments.length).mpr hcount
  rw [comparison, if_neg (by simp [hsupports]), if_neg (by simp [haccepts])]

private theorem comparison_outcome (hdefined : method.IsDefinedFor d.valueType)
    (hcount : method.TakesCount d.valueType arguments.length) :
    (d.comparison method arguments).map (fun _ => ()) =
      d.refusalOf (d.firstBad? arguments) := by
  rw [comparison_eq_comparisonOf hdefined hcount]
  by_cases hlist : d.valueType = .list
  · exact comparisonOf_outcome_of_list hlist hdefined
  · exact comparisonOf_outcome_of_scalar hlist hdefined hcount

private theorem comparison_eq_of_undefined (h : ¬ method.IsDefinedFor d.valueType) :
    d.comparison method arguments =
      .error (.unsupportedComparison d.name method d.valueType) := by
  rw [← method.supports_eq_true_iff, Bool.not_eq_true] at h
  rw [comparison, if_pos h]

private theorem comparison_eq_of_miscounted (hdefined : method.IsDefinedFor d.valueType)
    (h : ¬ method.TakesCount d.valueType arguments.length) :
    d.comparison method arguments =
      .error (.argumentCount method (method.arity d.valueType) arguments.length) := by
  have hsupports := (method.supports_eq_true_iff d.valueType).mpr hdefined
  rw [← method.accepts_arity_iff, Bool.not_eq_true] at h
  rw [comparison, if_neg (by simp [hsupports]), if_pos h]

private theorem firstBad?_eq_none_iff :
    d.firstBad? arguments = none ↔ ∀ text ∈ arguments, d.Admits text := by
  simp [firstBad?]

private theorem firstBad?_eq_some_iff {text : String} :
    d.firstBad? arguments = some text ↔ ¬ d.Admits text ∧
      ∃ before after, arguments = before ++ text :: after ∧ ∀ t ∈ before, d.Admits t := by
  simp [firstBad?, List.find?_eq_some_iff_append]

/-- A comparison is accepted exactly when its method is defined for the type of the field and takes
that many arguments, each of which the field admits. -/
theorem exists_comparison_eq_ok_iff :
    (∃ comparison, d.comparison method arguments = .ok comparison) ↔
      method.IsDefinedFor d.valueType ∧ method.TakesCount d.valueType arguments.length ∧
        ∀ text ∈ arguments, d.Admits text := by
  by_cases hdefined : method.IsDefinedFor d.valueType
  · by_cases hcount : method.TakesCount d.valueType arguments.length
    · have houtcome := comparison_outcome hdefined hcount
      rw [← firstBad?_eq_none_iff]
      cases hbad : d.firstBad? arguments with
      | none =>
        obtain ⟨comparison, h, -⟩ := map_eq_ok_iff.mp (hbad ▸ houtcome)
        exact ⟨fun _ => ⟨hdefined, hcount, rfl⟩, fun _ => ⟨comparison, h⟩⟩
      | some text =>
        have h := map_eq_error_iff.mp (hbad ▸ houtcome)
        simp [h]
    · simp [comparison_eq_of_miscounted hdefined hcount, hcount]
  · simp [comparison_eq_of_undefined hdefined, hdefined]

/-- A comparison is refused exactly for the first check that it fails. -/
theorem comparison_eq_error_iff {e : ConditionError} :
    d.comparison method arguments = .error e ↔ d.RefusesComparison method arguments e := by
  constructor
  · intro h
    by_cases hdefined : method.IsDefinedFor d.valueType
    · by_cases hcount : method.TakesCount d.valueType arguments.length
      · have houtcome := comparison_outcome hdefined hcount
        rw [h] at houtcome
        cases hbad : d.firstBad? arguments with
        | none =>
          rw [hbad] at houtcome
          cases houtcome
        | some text =>
          rw [hbad] at houtcome
          obtain rfl : e = .argumentType d.name d.valueType text := Except.error.inj houtcome
          obtain ⟨hbad, before, after, hsplit, hbefore⟩ := firstBad?_eq_some_iff.mp hbad
          exact .argument hdefined hcount hsplit hbefore hbad
      · rw [comparison_eq_of_miscounted hdefined hcount] at h
        obtain rfl := Except.error.inj h
        exact .count hdefined hcount
    · rw [comparison_eq_of_undefined hdefined] at h
      obtain rfl := Except.error.inj h
      exact .method hdefined
  · intro h
    cases h with
    | method hundefined => exact comparison_eq_of_undefined hundefined
    | count hdefined hmiscounted => exact comparison_eq_of_miscounted hdefined hmiscounted
    | argument hdefined hcount hsplit hbefore hbad =>
      have houtcome := comparison_outcome hdefined hcount
      rw [firstBad?_eq_some_iff.mpr ⟨hbad, _, _, hsplit, hbefore⟩] at houtcome
      exact map_eq_error_iff.mp houtcome

end FieldDescriptor

end Beneficiary
