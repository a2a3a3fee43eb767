import Beneficiary.Proofs.Criteria.Arguments
import Beneficiary.Proofs.Criteria.Typing

/-!
# The order of numbers and of dates

Numbers and dates are compared by equality, by a bound and by a range. All of these agree on one
order: the values of a type stand at places in a line, equality is of places, and the others ask on
which side of the places of their arguments a value stands. A value that is missing, or is of
another type, stands nowhere, and no such comparison holds of it.
-/

namespace Beneficiary

namespace Value

/-- The place of a value in the order of its type: that of a number, and the year, month and day of
a date. -/
def place : Value → ℤ ×ₗ ℕ ×ₗ ℕ
  | number x => toLex (x.place, toLex (0, 0))
  | date d => toLex (d.year, toLex (d.month, d.day))
  | _ => toLex (0, toLex (0, 0))

variable {type : ValueType} {v w : Value}

/-- A number has the type of numbers exactly when its pattern stands for one. -/
@[simp]
theorem hasType_number_iff {x : Binary64} : (number x).HasType .number ↔ x.isNaN = false :=
  ⟨fun h => by cases h; assumption, .number⟩

/-- Dates have the type of dates. -/
@[simp]
theorem hasType_date (d : Date) : (date d).HasType .date := .date d

private theorem compare_place_number (x y : Binary64) :
    compare (number x).place (number y).place = compare x.place y.place := by
  simp [place, Prod.Lex.compare_def, compareLex, compareOn]

private theorem compare?_number_eq_some_iff {x y : Binary64} (hy : y.isNaN = false)
    {order : Ordering} :
    (number x).compare? (number y) = some order ↔
      x.isNaN = false ∧ compare x.place y.place = order := by
  by_cases hx : x.isNaN = true <;> simp [compare?, Binary64.compare?, hx, hy]

/-- A value is ordered against one of an ordered type just where it has that type, and then as their
places are. -/
theorem compare?_eq_some_iff (hordered : type.isOrdered = true) (hw : w.HasType type)
    {order : Ordering} :
    v.compare? w = some order ↔ v.HasType type ∧ compare v.place w.place = order := by
  cases hw with
  | number hy =>
    cases v with
    | number x => rw [compare?_number_eq_some_iff hy, hasType_number_iff, compare_place_number]
    | _ => exact ⟨nofun, nofun⟩
  | date b =>
    cases v with
    -- Dates are compared by their components in turn, as their places are.
    | date a => exact ⟨fun h => ⟨.date a, Option.some.inj h⟩, fun h => congrArg some h.2⟩
    | _ => exact ⟨nofun, nofun⟩
  | _ => cases hordered

/-- A value equals one of an ordered type just where it has that type and the same place. -/
theorem equal_eq_true_iff (hordered : type.isOrdered = true) (hw : w.HasType type) :
    v.equal w = true ↔ v.HasType type ∧ v.place = w.place := by
  cases hw with
  | number hy =>
    cases v with
    | number x => simp [equal, Binary64.equal, hy, place]
    | _ => exact ⟨nofun, nofun⟩
  | date b =>
    cases v with
    | date a =>
      obtain ⟨year, month, day, hvalid⟩ := a
      obtain ⟨year', month', day', hvalid'⟩ := b
      simp [equal, place]
    | _ => exact ⟨nofun, nofun⟩
  | _ => cases hordered

end Value

/-- The method that asks whether a value stands to its argument in an order. -/
def ComparisonMethod.ofOrder : Ordering → ComparisonMethod
  | .lt => lessThan
  | .eq => equals
  | .gt => greaterThan

namespace Comparison

/-- The comparison that holds of what stands to a value in an order. -/
def ofOrder (value : Value) : Ordering → Comparison
  | .lt => lessThan value
  | .eq => equals value
  | .gt => greaterThan value

variable {type : ValueType} {x y : Value} {value : Option Value}

/-- What stands to an argument in an order is there, has its type, and a place in that order to the
place of the argument. -/
theorem holds_ofOrder_iff (hordered : type.isOrdered = true) (hx : x.HasType type)
    (order : Ordering) :
    (ofOrder x order).holds value = true ↔
      ∃ v ∈ value, v.HasType type ∧ compare v.place x.place = order := by
  cases value with
  | none => cases order <;> simp [ofOrder, holds, holdsForMissing]
  | some v =>
    cases order with
    | lt => simp [ofOrder, holds, holdsFor, Value.compare?_eq_some_iff hordered hx]
    | eq =>
      -- Equality does not go through the order, and agrees with it.
      simp [ofOrder, holds, holdsFor, Value.equal_eq_true_iff hordered hx, compare_eq_iff_eq]
    | gt => simp [ofOrder, holds, holdsFor, Value.compare?_eq_some_iff hordered hx]

/-- What is in a range is there, has the type of the ends, and a place between theirs, these
included. -/
theorem holds_range_iff (hordered : type.isOrdered = true) (hx : x.HasType type)
    (hy : y.HasType type) :
    (range x y).holds value = true ↔
      ∃ v ∈ value, v.HasType type ∧ x.place ≤ v.place ∧ v.place ≤ y.place := by
  cases value with
  | none => simp [holds, holdsForMissing]
  | some v =>
    have hlow : (v.compare? x).any (fun order => order != .lt) = true ↔
        v.HasType type ∧ x.place ≤ v.place := by
      simp [Option.any_eq_true, Value.compare?_eq_some_iff hordered hx, compare_lt_iff_lt]
    have hhigh : (v.compare? y).any (fun order => order != .gt) = true ↔
        v.HasType type ∧ v.place ≤ y.place := by
      simp [Option.any_eq_true, Value.compare?_eq_some_iff hordered hy, compare_gt_iff_gt]
    simp only [holds, holdsFor, Bool.and_eq_true, hlow, hhigh, ← and_and_left, Option.mem_some_iff,
      exists_eq_left']

end Comparison

namespace FieldDescriptor

/-- The arguments are accepted, and a value, which may be missing, satisfies the method with
them. -/
def Passes (d : FieldDescriptor) (method : ComparisonMethod) (arguments : List String)
    (value : Option Value) : Prop :=
  d.evaluate method arguments value = .ok true

variable {d : FieldDescriptor} {method : ComparisonMethod} {arguments : List String}
  {a b : String} {x y : Value} {value : Option Value}

/-- With arguments that are accepted, what passes is that of which the comparison holds. -/
theorem passes_iff {comparison : Comparison} (h : d.comparison method arguments = .ok comparison) :
    d.Passes method arguments value ↔ comparison.holds value = true := by
  rw [Passes, evaluate, h, Except.map, Except.ok.injEq]

section

variable (hordered : d.valueType.isOrdered = true) (ha : d.argument a = .ok x)
  (hb : d.argument b = .ok y)
include hordered ha

omit ha in
private theorem valueType_ne_list : d.valueType ≠ .list := by
  intro hlist
  rw [hlist] at hordered
  cases hordered

/-- An ordered field can be asked for each order to an argument. -/
theorem comparison_ofOrder (order : Ordering) :
    d.comparison (.ofOrder order) [a] = .ok (.ofOrder x order) := by
  have hlist := valueType_ne_list hordered
  have hdefined : (ComparisonMethod.ofOrder order).IsDefinedFor d.valueType := by
    rw [← ComparisonMethod.supports_eq_true_iff]
    cases order <;> first | rfl | exact hordered
  have hcount : (ComparisonMethod.ofOrder order).TakesCount d.valueType [a].length := by
    cases order <;> simp [ComparisonMethod.ofOrder, ComparisonMethod.TakesCount, hlist]
  have hcomparison : d.comparisonOf (.ofOrder order) [a] =
      (d.argument a).map fun x => .ofOrder x order := by
    cases order with
    | lt => rfl
    | eq => exact comparisonOf_equals hlist a
    | gt => rfl
  rw [comparison_eq_comparisonOf hdefined hcount, hcomparison, ha, Except.map]

include hb in
/-- An ordered field can be asked for a range. -/
theorem comparison_range : d.comparison .range [a, b] = .ok (.range x y) := by
  have hdefined : ComparisonMethod.IsDefinedFor d.valueType .range := by
    rw [← ComparisonMethod.supports_eq_true_iff]
    exact hordered
  have hcount : ComparisonMethod.TakesCount .range d.valueType [a, b].length := by
    simp [ComparisonMethod.TakesCount]
  rw [comparison_eq_comparisonOf hdefined hcount, comparisonOf, ha, hb]
  rfl

private theorem hasType_of_ordered : x.HasType d.valueType := by
  cases hasType_of_comparison (comparison_ofOrder hordered ha .eq) with
  | equals _ htyped _ => exact htyped

/-- What passes for an order has a place in that order to the place of the argument. -/
theorem passes_ofOrder_iff (order : Ordering) :
    d.Passes (.ofOrder order) [a] value ↔
      ∃ v ∈ value, v.HasType d.valueType ∧ compare v.place x.place = order := by
  rw [passes_iff (comparison_ofOrder hordered ha order),
    Comparison.holds_ofOrder_iff hordered (hasType_of_ordered hordered ha)]

/-- What passes for equality has the place of the argument. -/
theorem passes_equals_iff :
    d.Passes .equals [a] value ↔ ∃ v ∈ value, v.HasType d.valueType ∧ v.place = x.place := by
  simpa only [ComparisonMethod.ofOrder, compare_eq_iff_eq] using
    passes_ofOrder_iff hordered ha .eq

/-- What passes for being below has a place below that of the argument. -/
theorem passes_lessThan_iff :
    d.Passes .lessThan [a] value ↔ ∃ v ∈ value, v.HasType d.valueType ∧ v.place < x.place := by
  simpa only [ComparisonMethod.ofOrder, compare_lt_iff_lt] using
    passes_ofOrder_iff hordered ha .lt

/-- What passes for being above has a place above that of the argument. -/
theorem passes_greaterThan_iff :
    d.Passes .greaterThan [a] value ↔
      ∃ v ∈ value, v.HasType d.valueType ∧ x.place < v.place := by
  simpa only [ComparisonMethod.ofOrder, compare_gt_iff_gt] using
    passes_ofOrder_iff hordered ha .gt

include hb in
/-- What passes for a range has a place between those of the ends. -/
theorem passes_range_iff :
    d.Passes .range [a, b] value ↔
      ∃ v ∈ value, v.HasType d.valueType ∧ x.place ≤ v.place ∧ v.place ≤ y.place := by
  rw [passes_iff (comparison_range hordered ha hb),
    Comparison.holds_range_iff hordered (hasType_of_ordered hordered ha)
      (hasType_of_ordered hordered hb)]

/-- A value of the type stands in exactly one order to an argument. -/
theorem existsUnique_passes_ofOrder {v : Value} (hv : v.HasType d.valueType) :
    ∃! order, d.Passes (.ofOrder order) [a] (some v) := by
  simp [passes_ofOrder_iff hordered ha, hv]

/-- The range from an argument to itself is equality with it. -/
theorem passes_range_self_iff : d.Passes .range [a, a] value ↔ d.Passes .equals [a] value := by
  rw [passes_range_iff hordered ha ha, passes_equals_iff hordered ha]
  simp only [← le_antisymm_iff, eq_comm]

include hb

/-- A value of the type is in a range just where it is neither below the one end nor above the
other. -/
theorem passes_range_iff_not {v : Value} (hv : v.HasType d.valueType) :
    d.Passes .range [a, b] (some v) ↔
      ¬ d.Passes .lessThan [a] (some v) ∧ ¬ d.Passes .greaterThan [b] (some v) := by
  rw [passes_range_iff hordered ha hb, passes_lessThan_iff hordered ha,
    passes_greaterThan_iff hordered hb]
  simp [hv]

/-- A range whose ends are the wrong way round is empty. -/
theorem not_passes_range_of_below (h : d.Passes .lessThan [a] (some y)) :
    ¬ d.Passes .range [a, b] value := by
  simp only [passes_lessThan_iff hordered ha, Option.mem_some_iff, exists_eq_left'] at h
  obtain ⟨-, hbelow⟩ := h
  rw [passes_range_iff hordered ha hb]
  rintro ⟨v, -, -, hlow, hhigh⟩
  exact absurd (hlow.trans hhigh) hbelow.not_ge

private theorem place_le_of_not_above (h : ¬ d.Passes .greaterThan [b] (some x)) :
    x.place ≤ y.place := by
  rw [passes_greaterThan_iff hordered hb] at h
  simpa [hasType_of_ordered hordered ha] using h

/-- What is below an argument is below every argument that this is not above. -/
theorem passes_lessThan_of_not_above (h : ¬ d.Passes .greaterThan [b] (some x))
    (hbelow : d.Passes .lessThan [a] value) : d.Passes .lessThan [b] value := by
  rw [passes_lessThan_iff hordered ha] at hbelow
  rw [passes_lessThan_iff hordered hb]
  obtain ⟨v, hv, htyped, hlt⟩ := hbelow
  exact ⟨v, hv, htyped, hlt.trans_le (place_le_of_not_above hordered ha hb h)⟩

/-- What is above an argument is above every argument that is not above this. -/
theorem passes_greaterThan_of_not_above (h : ¬ d.Passes .greaterThan [b] (some x))
    (habove : d.Passes .greaterThan [b] value) : d.Passes .greaterThan [a] value := by
  rw [passes_greaterThan_iff hordered hb] at habove
  rw [passes_greaterThan_iff hordered ha]
  obtain ⟨v, hv, htyped, hlt⟩ := habove
  exact ⟨v, hv, htyped, (place_le_of_not_above hordered ha hb h).trans_lt hlt⟩

end

/-- The comparisons of numbers and of dates form one order. Every argument that the field takes can
be compared with in each of these ways. A value of the type is below an argument, equal to it or
above it, and but one of these; it is in a range just where it is neither below the one end nor above
the other. The range from an argument to itself is equality, one whose ends are the wrong way round
is empty, and an argument that is not above another has no more below it and no less above it. Of a
missing value none of the comparisons holds. -/
theorem comparisons_form_one_order (d : FieldDescriptor) (a b : String) (x y : Value)
    (hordered : d.valueType = .number ∨ d.valueType = .date) (ha : d.argument a = .ok x)
    (hb : d.argument b = .ok y) :
    (∀ order, d.comparison (.ofOrder order) [a] = .ok (.ofOrder x order) ∧
      d.comparison (.ofOrder order) [b] = .ok (.ofOrder y order)) ∧
    (d.comparison .range [a, b] = .ok (.range x y) ∧
      d.comparison .range [a, a] = .ok (.range x x)) ∧
    (∀ v : Value, v.HasType d.valueType →
      (∃! order, d.Passes (.ofOrder order) [a] (some v)) ∧
      (d.Passes .range [a, b] (some v) ↔
        ¬ d.Passes .lessThan [a] (some v) ∧ ¬ d.Passes .greaterThan [b] (some v))) ∧
    (∀ value, d.Passes .range [a, a] value ↔ d.Passes .equals [a] value) ∧
    (d.Passes .lessThan [a] (some y) → ∀ value, ¬ d.Passes .range [a, b] value) ∧
    (¬ d.Passes .greaterThan [b] (some x) → ∀ value,
      (d.Passes .lessThan [a] value → d.Passes .lessThan [b] value) ∧
      (d.Passes .greaterThan [b] value → d.Passes .greaterThan [a] value)) ∧
    (∀ order, ¬ d.Passes (.ofOrder order) [a] none) ∧ ¬ d.Passes .range [a, b] none := by
  replace hordered : d.valueType.isOrdered = true := by
    rcases hordered with h | h <;> rw [h] <;> rfl
  refine ⟨?_, ⟨comparison_range hordered ha hb, comparison_range hordered ha ha⟩, ?_,
    fun _ => passes_range_self_iff hordered ha,
    fun h _ => not_passes_range_of_below hordered ha hb h, ?_, ?_, ?_⟩
  · intro order
    exact ⟨comparison_ofOrder hordered ha order, comparison_ofOrder hordered hb order⟩
  · intro v hv
    exact ⟨existsUnique_passes_ofOrder hordered ha hv, passes_range_iff_not hordered ha hb hv⟩
  · intro h value
    exact ⟨passes_lessThan_of_not_above hordered ha hb h,
      passes_greaterThan_of_not_above hordered ha hb h⟩
  · intro order
    simp [passes_ofOrder_iff hordered ha]
  · simp [passes_range_iff hordered ha hb]

/-- A field of numbers. -/
def exampleNumber : FieldDescriptor :=
  { name := "score", owner := .individual, valueType := .number, classification := .flex
    label := none, choices := [], periodic := none }

/-- The zeros of either sign differ and are equal, so the range from the one to itself has the other
in it. The range from ten down to zero is empty. -/
theorem exampleNumber_orders_spellings :
    ∃ negative zero ten,
      exampleNumber.argument "-0.0" = .ok negative ∧ exampleNumber.argument " 0 " = .ok zero ∧
      exampleNumber.argument "1e1" = .ok ten ∧ negative ≠ zero ∧
      exampleNumber.Passes .equals ["-0.0"] (some zero) ∧
      (∃! order, exampleNumber.Passes (.ofOrder order) ["-0.0"] (some zero)) ∧
      exampleNumber.Passes .range ["-0.0", "-0.0"] (some zero) ∧
      exampleNumber.Passes .lessThan ["1e1"] (some zero) ∧
      ∀ value, ¬ exampleNumber.Passes .range ["1e1", " 0 "] value := by
  let zero (negative : Bool) : Value := .number (.zero negative)
  let ten : Value := .number ⟨false, 4621819117588971520, by decide⟩
  have hnegative : exampleNumber.argument "-0.0" = .ok (zero true) := by decide +kernel
  have hzero : exampleNumber.argument " 0 " = .ok (zero false) := by decide +kernel
  have hten : exampleNumber.argument "1e1" = .ok ten := by decide +kernel
  have htyped : (zero false).HasType exampleNumber.valueType := .number rfl
  have hequal : exampleNumber.Passes .equals ["-0.0"] (some (zero false)) := by
    unfold Passes
    decide +kernel
  have hbelow : exampleNumber.Passes .lessThan ["1e1"] (some (zero false)) := by
    unfold Passes
    decide +kernel
  obtain ⟨-, -, hvalues, hself, -, -, -, -⟩ :=
    comparisons_form_one_order exampleNumber "-0.0" " 0 " _ _ (.inl rfl) hnegative hzero
  obtain ⟨-, -, -, -, hempty, -, -, -⟩ :=
    comparisons_form_one_order exampleNumber "1e1" " 0 " _ _ (.inl rfl) hten hzero
  exact ⟨_, _, _, hnegative, hzero, hten, by decide, hequal, (hvalues _ htyped).1,
    (hself _).mpr hequal, hbelow, hempty hbelow⟩

end FieldDescriptor

end Beneficiary
