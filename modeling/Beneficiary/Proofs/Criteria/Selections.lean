import Beneficiary.Proofs.Criteria.Order

/-!
# The algebra of selections

A field of selections is compared with sets of options: equality asks that something is selected and
nothing outside the set, containment that something in the set is selected. Neither the order of the
arguments nor their repetition matters, and what holds for several sets follows from what the sets
have in common. A selection of nothing is to every comparison what a missing value is.
-/

namespace Beneficiary

variable {option : String} {options others : List String}

/-- A set with an option put into it holds that option and those that it held before. -/
theorem mem_insertOption {other : String} :
    other ∈ insertOption option options ↔ other = option ∨ other ∈ options := by
  induction options with
  | nil => simp [insertOption]
  | cons first rest ih =>
    rw [insertOption]
    split
    · rw [List.mem_cons, ih, List.mem_cons, or_left_comm]
    · split
      · next heq =>
        subst heq
        simp
      · rw [List.mem_cons]

/-- Putting an option into a set keeps it strictly ascending. -/
theorem pairwise_insertOption (h : options.Pairwise (· < ·)) :
    (insertOption option options).Pairwise (· < ·) := by
  induction options with
  | nil => exact List.pairwise_singleton _ _
  | cons first rest ih =>
    obtain ⟨hfirst, hrest⟩ := List.pairwise_cons.mp h
    rw [insertOption]
    split
    · next hlt =>
      refine List.pairwise_cons.mpr ⟨fun other hother => ?_, ih hrest⟩
      rcases mem_insertOption.mp hother with rfl | hother
      · exact hlt
      · exact hfirst other hother
    · next hlt =>
      split
      · exact h
      · next hne =>
        have hgt : option < first := lt_of_le_of_ne (not_lt.mp hlt) (Ne.symm hne)
        refine List.pairwise_cons.mpr ⟨fun other hother => ?_, h⟩
        rcases List.mem_cons.mp hother with rfl | hother
        · exact hgt
        · exact hgt.trans (hfirst other hother)

private theorem optionSet_concat (options : List String) (option : String) :
    optionSet (options ++ [option]) = insertOption option (optionSet options) :=
  List.foldl_append

/-- The set of some options holds just these. -/
theorem mem_optionSet : option ∈ optionSet options ↔ option ∈ options := by
  induction options using List.reverseRecOn with
  | nil => rfl
  | append_singleton options other ih =>
    rw [optionSet_concat, mem_insertOption, ih, List.mem_append, List.mem_singleton, or_comm]

/-- The set of some options ascends strictly. -/
theorem pairwise_optionSet (options : List String) : (optionSet options).Pairwise (· < ·) := by
  induction options using List.reverseRecOn with
  | nil => exact .nil
  | append_singleton options option ih =>
    rw [optionSet_concat]
    exact pairwise_insertOption ih

/-- The set of some options depends neither on their order nor on their repetition. -/
theorem optionSet_congr (h : ∀ option, option ∈ options ↔ option ∈ others) :
    optionSet options = optionSet others := by
  have hnodup (options : List String) : (optionSet options).Nodup :=
    (pairwise_optionSet options).imp fun hlt => ne_of_lt hlt
  have hperm : (optionSet options).Perm (optionSet others) := by
    refine (List.perm_ext_iff_of_nodup (hnodup options) (hnodup others)).mpr fun option => ?_
    rw [mem_optionSet, mem_optionSet, h]
  refine hperm.eq_of_pairwise ?_ (pairwise_optionSet options) (pairwise_optionSet others)
  intro a b _ _ hab hba
  exact absurd hab (lt_asymm hba)

/-- The options that are selected, none when the value is missing. -/
def Value.selected (value : Option Value) : List String := value.elim [] Value.options

namespace Comparison

variable {value : Option Value}

/-- A selection is within a set when there is one and the set has all of it. -/
theorem holds_within_iff :
    (within (optionSet options)).holds value = true ↔
      Value.selected value ≠ [] ∧ ∀ option ∈ Value.selected value, option ∈ options := by
  cases value with
  | none => simp [holds, holdsForMissing, Value.selected]
  | some v => simp [holds, holdsFor, isWithin, Value.selected, mem_optionSet]

/-- A selection meets a set when something selected is in the set. -/
theorem holds_intersects_iff :
    (intersects (optionSet options)).holds value = true ↔
      ∃ option ∈ Value.selected value, option ∈ options := by
  cases value with
  | none => simp [holds, holdsForMissing, Value.selected]
  | some v => simp [holds, holdsFor, Value.selected, mem_optionSet]

end Comparison

/-- How a selection can be compared with options. -/
inductive SelectionMethod where
  | equals
  | notEquals
  | contains
deriving DecidableEq, Repr

namespace SelectionMethod

/-- The method of conditions. -/
def method : SelectionMethod → ComparisonMethod
  | equals => .equals
  | notEquals => .notEquals
  | contains => .contains

/-- The comparison with a set of options. -/
def comparison : SelectionMethod → List String → Comparison
  | equals => .within
  | notEquals => .notWithin
  | contains => .intersects

/-- A comparison with a set does not tell a missing value from a selection of nothing. -/
theorem holds_none (m : SelectionMethod) (options : List String) :
    (m.comparison options).holds none = (m.comparison options).holds (some (.list [])) := by
  cases m <;> rfl

end SelectionMethod

namespace FieldDescriptor

/-- The field can be compared with the arguments by some method. -/
def Takes (d : FieldDescriptor) (arguments : List String) : Prop :=
  ∃ method comparison, d.comparison method arguments = .ok comparison

/-- The options are some, and the field admits each of them. -/
def Offers (d : FieldDescriptor) (options : List String) : Prop :=
  options ≠ [] ∧ ∀ option ∈ options, d.Admits option

variable {d : FieldDescriptor} {S T U : List String} {value : Option Value}

/-- Arguments that are all on offer are so in any order, with or without some of them. -/
theorem Offers.of_subset (h : d.Offers S) (hne : T ≠ []) (hsubset : T ⊆ S) : d.Offers T :=
  ⟨hne, fun option hoption => h.2 option (hsubset hoption)⟩

/-- Options on offer are on offer together with others. -/
theorem Offers.append (hS : d.Offers S) (hT : d.Offers T) : d.Offers (S ++ T) :=
  ⟨List.append_ne_nil_of_left_ne_nil hS.1 T, List.forall_mem_append.mpr ⟨hS.2, hT.2⟩⟩

section

variable (hlist : d.valueType = .list)
include hlist

/-- The three methods of selections take options on offer, and nothing else. -/
theorem exists_comparison_iff_offers (m : SelectionMethod) :
    (∃ comparison, d.comparison m.method S = .ok comparison) ↔ d.Offers S := by
  have hdefined : m.method.IsDefinedFor d.valueType := by
    cases m <;> simp [SelectionMethod.method, ComparisonMethod.IsDefinedFor, hlist]
  have hcount : m.method.TakesCount d.valueType S.length ↔ S ≠ [] := by
    cases m <;>
      simp [SelectionMethod.method, ComparisonMethod.TakesCount, hlist, Nat.one_le_iff_ne_zero]
  rw [exists_comparison_eq_ok_iff, hcount]
  exact and_iff_right hdefined

/-- A selection can be compared with options on offer, and with nothing else. -/
theorem takes_iff_offers : d.Takes S ↔ d.Offers S := by
  constructor
  · rintro ⟨method, h⟩
    have hdefined := (exists_comparison_eq_ok_iff.mp h).1
    rw [hlist] at hdefined
    cases method with
    | equals => exact (exists_comparison_iff_offers hlist .equals).mp h
    | notEquals => exact (exists_comparison_iff_offers hlist .notEquals).mp h
    | contains => exact (exists_comparison_iff_offers hlist .contains).mp h
    | range | greaterThan | lessThan => simp [ComparisonMethod.IsDefinedFor] at hdefined
  · intro h
    exact ⟨.equals, (exists_comparison_iff_offers hlist .equals).mpr h⟩

/-- A field of selections has its choices on offer. -/
theorem offers_of_choices (hne : S ≠ []) (h : ∀ option ∈ S, option ∈ d.choices) : d.Offers S := by
  refine ⟨hne, fun option hoption => (admits_iff_of_list hlist option).mpr ?_⟩
  exact (allowsChoice_eq_true_iff option).mpr fun _ => h option hoption

private theorem optionArguments_of_admits (h : ∀ option ∈ S, d.Admits option) :
    d.optionArguments S = .ok S := by
  induction S with
  | nil => rfl
  | cons option rest ih =>
    obtain ⟨hoption, hrest⟩ := List.forall_mem_cons.mp h
    have hallowed := (allowsChoice_eq_true_iff option).mpr (hoption.2 (.inr hlist))
    rw [optionArguments, if_pos hallowed, ih hrest, Except.map]

/-- Options on offer are compared with as a set. -/
theorem comparison_of_offers (m : SelectionMethod) (h : d.Offers S) :
    d.comparison m.method S = .ok (m.comparison (optionSet S)) := by
  obtain ⟨hdefined, hcount, -⟩ :=
    exists_comparison_eq_ok_iff.mp ((exists_comparison_iff_offers hlist m).mpr h)
  have hread := optionArguments_of_admits hlist h.2
  rw [comparison_eq_comparisonOf hdefined hcount]
  cases m <;>
    simp only [SelectionMethod.method, comparisonOf, hlist, selectionComparison, hread, Except.map,
      SelectionMethod.comparison]

/-- What passes for equality is some selection of nothing but the arguments. -/
theorem passes_equals_iff_selected (h : d.Offers S) :
    d.Passes .equals S value ↔
      Value.selected value ≠ [] ∧ ∀ option ∈ Value.selected value, option ∈ S :=
  (passes_iff (comparison_of_offers hlist .equals h)).trans Comparison.holds_within_iff

/-- What passes for containment is a selection of one of the arguments. -/
theorem passes_contains_iff_selected (h : d.Offers S) :
    d.Passes .contains S value ↔ ∃ option ∈ Value.selected value, option ∈ S :=
  (passes_iff (comparison_of_offers hlist .contains h)).trans Comparison.holds_intersects_iff

/-- Options on offer in another order, or repeated, make the same comparison. -/
theorem comparison_congr (m : SelectionMethod) (h : d.Offers S)
    (hsame : ∀ option, option ∈ T ↔ option ∈ S) :
    d.comparison m.method T = d.comparison m.method S := by
  have hne : T ≠ [] := by
    obtain ⟨option, hoption⟩ := List.exists_mem_of_ne_nil S h.1
    exact List.ne_nil_of_mem ((hsame option).mpr hoption)
  have hoffers := h.of_subset hne fun option => (hsame option).mp
  rw [comparison_of_offers hlist m h, comparison_of_offers hlist m hoffers, optionSet_congr hsame]

/-- A missing value and a selection of nothing are compared alike. -/
theorem evaluate_none (m : SelectionMethod) (h : d.Offers S) :
    d.evaluate m.method S none = d.evaluate m.method S (some (.list [])) := by
  rw [evaluate, evaluate, comparison_of_offers hlist m h, Except.map, Except.map, m.holds_none]

/-- Equality with two sets is equality with what they have in common, if anything. -/
theorem passes_equals_common (hS : d.Offers S) (hT : d.Offers T) (hU : U ≠ [])
    (hcommon : ∀ option, option ∈ U ↔ option ∈ S ∧ option ∈ T) :
    d.Passes .equals S value ∧ d.Passes .equals T value ↔ d.Passes .equals U value := by
  have hoffers := hS.of_subset hU fun option hoption => ((hcommon option).mp hoption).1
  rw [passes_equals_iff_selected hlist hS, passes_equals_iff_selected hlist hT,
    passes_equals_iff_selected hlist hoffers]
  simp only [hcommon]
  constructor
  · rintro ⟨⟨hsome, hinS⟩, -, hinT⟩
    exact ⟨hsome, fun option hoption => ⟨hinS option hoption, hinT option hoption⟩⟩
  · rintro ⟨hsome, hin⟩
    exact ⟨⟨hsome, fun option hoption => (hin option hoption).1⟩, hsome,
      fun option hoption => (hin option hoption).2⟩

/-- Nothing equals two sets that have nothing in common. -/
theorem not_passes_equals_of_disjoint (hS : d.Offers S) (hT : d.Offers T) (h : S.Disjoint T) :
    ¬ (d.Passes .equals S value ∧ d.Passes .equals T value) := by
  rw [passes_equals_iff_selected hlist hS, passes_equals_iff_selected hlist hT]
  rintro ⟨⟨hsome, hinS⟩, -, hinT⟩
  obtain ⟨option, hoption⟩ := List.exists_mem_of_ne_nil _ hsome
  exact h (hinS option hoption) (hinT option hoption)

/-- What passes for equality passes for containment. -/
theorem passes_contains_of_equals (hS : d.Offers S) (h : d.Passes .equals S value) :
    d.Passes .contains S value := by
  rw [passes_equals_iff_selected hlist hS] at h
  rw [passes_contains_iff_selected hlist hS]
  obtain ⟨option, hoption⟩ := List.exists_mem_of_ne_nil _ h.1
  exact ⟨option, hoption, h.2 option hoption⟩

/-- What passes for equality or containment does so for more arguments. -/
theorem passes_mono (hS : d.Offers S) (hT : d.Offers T) (h : S ⊆ T) :
    (d.Passes .equals S value → d.Passes .equals T value) ∧
      (d.Passes .contains S value → d.Passes .contains T value) := by
  rw [passes_equals_iff_selected hlist hS, passes_equals_iff_selected hlist hT,
    passes_contains_iff_selected hlist hS, passes_contains_iff_selected hlist hT]
  constructor
  · rintro ⟨hsome, hin⟩
    exact ⟨hsome, fun option hoption => h (hin option hoption)⟩
  · rintro ⟨option, hoption, hin⟩
    exact ⟨option, hoption, h hin⟩

/-- Containment of one of two sets together is containment of one of either. -/
theorem passes_contains_append_iff (hS : d.Offers S) (hT : d.Offers T) :
    d.Passes .contains (S ++ T) value ↔
      d.Passes .contains S value ∨ d.Passes .contains T value := by
  rw [passes_contains_iff_selected hlist (hS.append hT), passes_contains_iff_selected hlist hS,
    passes_contains_iff_selected hlist hT]
  simp only [List.mem_append, and_or_left, exists_or]

end

/-- Selections are compared by the laws of sets. The arguments that a field of selections takes are
taken by all three methods, and neither their order nor their repetition has a part in the
comparison. Equality implies containment; both hold for more arguments where they hold for some.
Containment distributes over the arguments, equality with two sets is equality with what they have
in common, and never holds when that is nothing. A missing value and a selection of nothing are
compared alike. -/
theorem selections_compared_as_sets (d : FieldDescriptor) (S T : List String)
    (hlist : d.valueType = .list) (hS : d.Takes S) (hT : d.Takes T) :
    (∀ m : SelectionMethod, (∃ c, d.comparison m.method S = .ok c) ∧
      ∀ S', (∀ option, option ∈ S' ↔ option ∈ S) →
        d.comparison m.method S' = d.comparison m.method S ∧
        ∀ value, d.evaluate m.method S' value = d.evaluate m.method S value) ∧
    (∀ value, d.Passes .equals S value → d.Passes .contains S value) ∧
    (S ⊆ T → ∀ value,
      (d.Passes .equals S value → d.Passes .equals T value) ∧
      (d.Passes .contains S value → d.Passes .contains T value)) ∧
    (∀ value, d.Passes .contains (S ++ T) value ↔
      d.Passes .contains S value ∨ d.Passes .contains T value) ∧
    (S.Disjoint T → ∀ value, ¬ (d.Passes .equals S value ∧ d.Passes .equals T value)) ∧
    (∀ U, U ≠ [] → (∀ option, option ∈ U ↔ option ∈ S ∧ option ∈ T) → ∀ value,
      (d.Passes .equals S value ∧ d.Passes .equals T value ↔ d.Passes .equals U value)) ∧
    ∀ m : SelectionMethod,
      d.evaluate m.method S none = d.evaluate m.method S (some (.list [])) := by
  replace hS := (takes_iff_offers hlist).mp hS
  replace hT := (takes_iff_offers hlist).mp hT
  refine ⟨?_, fun _ => passes_contains_of_equals hlist hS,
    fun hsubset _ => passes_mono hlist hS hT hsubset,
    fun _ => passes_contains_append_iff hlist hS hT,
    fun hdisjoint _ => not_passes_equals_of_disjoint hlist hS hT hdisjoint,
    fun U hU hcommon _ => passes_equals_common hlist hS hT hU hcommon,
    fun m => evaluate_none hlist m hS⟩
  intro m
  refine ⟨(exists_comparison_iff_offers hlist m).mpr hS, fun S' hsame => ?_⟩
  have hcomparison := comparison_congr hlist m hS hsame
  exact ⟨hcomparison, fun value => by rw [evaluate, evaluate, hcomparison]⟩

/-- A selection of difficulties. -/
def exampleDifficulties : FieldDescriptor :=
  { name := "difficulties", owner := .individual, valueType := .list, classification := .flex
    label := none, choices := ["SEEING", "HEARING", "WALKING"], periodic := none }

/-- A text that names one difficulty twice is a selection within two sets that have it in common,
so it is one within what they have in common. Where nothing is selected the negation holds, as it
does where the value is missing. -/
theorem exampleDifficulties_compared :
    ∃ value,
      Value.ofStored? .list (.string "HEARING,, HEARING") = some value ∧
      exampleDifficulties.valueType = .list ∧
      exampleDifficulties.Takes ["SEEING", "HEARING"] ∧
      exampleDifficulties.Takes ["HEARING", "WALKING"] ∧
      (exampleDifficulties.Passes .equals ["SEEING", "HEARING"] (some value) ∧
        exampleDifficulties.Passes .equals ["HEARING", "WALKING"] (some value)) ∧
      exampleDifficulties.Passes .equals ["HEARING"] (some value) ∧
      exampleDifficulties.Passes .contains ["SEEING", "HEARING"] (some value) ∧
      exampleDifficulties.evaluate .notEquals ["HEARING", "SEEING", "HEARING"] (some value) =
        .ok false ∧
      Value.ofStored? .list (.string " , ") = some (.list []) ∧
      exampleDifficulties.evaluate .notEquals ["SEEING", "HEARING"] none =
        exampleDifficulties.evaluate .notEquals ["SEEING", "HEARING"] (some (.list [])) := by
  let value : Value := .list ["HEARING", "HEARING"]
  have hread : Value.ofStored? .list (.string "HEARING,, HEARING") = some value := by
    decide +kernel
  have hS : exampleDifficulties.Takes ["SEEING", "HEARING"] :=
    ⟨.equals, .within ["HEARING", "SEEING"], by decide +kernel⟩
  have hT : exampleDifficulties.Takes ["HEARING", "WALKING"] :=
    ⟨.contains, .intersects ["HEARING", "WALKING"], by decide +kernel⟩
  have hcommon : exampleDifficulties.Passes .equals ["HEARING"] (some value) := by
    unfold Passes
    decide +kernel
  have hrefused : exampleDifficulties.evaluate .notEquals ["SEEING", "HEARING"] (some value) =
      .ok false := by
    decide +kernel
  obtain ⟨hset, hcontains, -, -, -, hequals, hempty⟩ :=
    selections_compared_as_sets exampleDifficulties _ _ rfl hS hT
  have hboth := (hequals ["HEARING"] (by decide) (by grind) (some value)).mpr hcommon
  have hrepeated :=
    ((hset .notEquals).2 ["HEARING", "SEEING", "HEARING"] (by simp [or_comm])).2 (some value)
  exact ⟨value, hread, rfl, hS, hT, hboth, hcommon, hcontains _ hboth.1, hrepeated.trans hrefused,
    by decide +kernel, hempty .notEquals⟩

end FieldDescriptor

end Beneficiary
