import Beneficiary.Proofs.Criteria.Meaning
import Beneficiary.Proofs.Criteria.Schema

/-!
# Types of compiled conditions

A field declares the type of its values, and what a compiled condition finds on an entity has that
type, whether it is read by a core field, from a flex attribute or from a round. The arguments are
values of the same type, options for selections, so a range or a bound can always be compared with
a value that is there. Numbers of stored documents are taken to be finite.
-/

namespace Beneficiary

namespace Binary64

/-- A finite pattern stands for a number. -/
theorem isNaN_eq_false_of_isFinite {x : Binary64} (h : x.isFinite = true) : x.isNaN = false := by
  simp only [isFinite, decide_eq_true_eq] at h
  simp only [isNaN, decide_eq_false_iff_not]
  omega

/-- A magnitude that passes infinity is taken for infinity, which is a number. -/
theorem isNaN_ofMagnitude (negative : Bool) (magnitude : Nat) :
    (ofMagnitude negative magnitude).isNaN = false := by
  unfold ofMagnitude
  split
  · next h => exact isNaN_eq_false_of_isFinite (decide_eq_true h)
  · exact decide_eq_false (lt_irrefl _)

/-- An integer is rounded to a number. -/
theorem isNaN_ofInt (z : Int) : (ofInt z).isNaN = false := by
  unfold ofInt ofRatio
  split
  · exact isNaN_eq_false_of_isFinite rfl
  · exact isNaN_ofMagnitude _ _

/-- Any two numbers are ordered. -/
theorem isSome_compare? {x y : Binary64} (hx : x.isNaN = false) (hy : y.isNaN = false) :
    (x.compare? y).isSome = true := by
  simp [compare?, hx, hy]

end Binary64

namespace Json

/-- A number that is written as an integer, or is finite. -/
def Number.IsFinite : Number → Prop
  | .integer _ => True
  | .float x => x.isFinite = true

/-- A number stands somewhere in a value. -/
inductive Holds (n : Number) : Json → Prop where
  | number : Holds n (.number n)
  | item {items : List Json} {item : Json} (mem : item ∈ items) (holds : Holds n item) :
      Holds n (.array items)
  | field {fields : List (String × Json)} {name : String} {value : Json}
      (mem : (name, value) ∈ fields) (holds : Holds n value) : Holds n (.object fields)

/-- Every number in a value is finite. -/
def HasFiniteNumbers (value : Json) : Prop := ∀ n, Holds n value → n.IsFinite

/-- What a finite literal denotes is a number. -/
theorem Number.isNaN_toBinary64 {n : Number} (h : n.IsFinite) : n.toBinary64.isNaN = false := by
  cases n with
  | integer z => exact Binary64.isNaN_ofInt z
  | float x => exact Binary64.isNaN_eq_false_of_isFinite h

/-- A number has finite numbers exactly when it is finite. -/
theorem hasFiniteNumbers_number {n : Number} :
    (Json.number n).HasFiniteNumbers ↔ n.IsFinite := by
  constructor
  · intro h
    exact h n .number
  · rintro h m ⟨⟩
    exact h

/-- An object has finite numbers exactly when each of its values has. -/
theorem hasFiniteNumbers_object {fields : List (String × Json)} :
    (Json.object fields).HasFiniteNumbers ↔
      ∀ name value, (name, value) ∈ fields → value.HasFiniteNumbers := by
  constructor
  · intro h name value hmem n hn
    exact h n (.field hmem hn)
  · intro h n hn
    cases hn with
    | field hmem hn => exact h _ _ hmem n hn

private theorem hasFiniteNumbers_of_lookup {fields : List (String × Json)} {name : String}
    {value : Json} (h : (Json.object fields).HasFiniteNumbers)
    (hvalue : fields.lookup name = some value) : value.HasFiniteNumbers := by
  obtain ⟨before, after, rfl, -⟩ := List.lookup_eq_some_iff.mp hvalue
  exact hasFiniteNumbers_object.mp h name value (List.mem_append_right _ List.mem_cons_self)

/-- The numbers of a field of an object are numbers of the object. -/
theorem HasFiniteNumbers.field {object value : Json} {name : String}
    (h : object.HasFiniteNumbers) (hvalue : object.field? name = some value) :
    value.HasFiniteNumbers := by
  cases object with
  | object fields => exact hasFiniteNumbers_of_lookup h hvalue
  | _ => cases hvalue

/-- The numbers of a stored value are numbers of the stored fields. -/
theorem HasFiniteNumbers.get {fields : Fields} {value : Json} {name : String}
    (h : fields.toJson.HasFiniteNumbers) (hvalue : fields.get? name = some value) :
    value.HasFiniteNumbers :=
  hasFiniteNumbers_of_lookup h hvalue

end Json

namespace Value

/-- A value is of a declared type. The pattern that stands for no number is of none. -/
inductive HasType : Value → ValueType → Prop where
  | number {x : Binary64} (valued : x.isNaN = false) : HasType (.number x) .number
  | boolean (b : Bool) : HasType (.bool b) .boolean
  | date (date : Date) : HasType (.date date) .date
  | string (text : String) : HasType (.string text) .string
  | enum (option : String) : HasType (.string option) .enum
  | list (options : List String) : HasType (.list options) .list

/-- A value that is finite if it is a number. -/
def IsFinite : Value → Prop
  | .number x => x.isFinite = true
  | _ => True

variable {type : ValueType} {v w : Value}

/-- An argument for a single value has the type that it is read as. -/
theorem hasType_of_ofArgument? {text : String} (h : ofArgument? type text = some v)
    (hscalar : type ≠ .list) : v.HasType type ∧ v.IsFinite := by
  cases type with
  | number =>
    simp only [ofArgument?, readNumber?, Option.map_eq_some_iff, Option.filter_eq_some_iff] at h
    obtain ⟨x, ⟨-, hfinite⟩, rfl⟩ := h
    exact ⟨.number (Binary64.isNaN_eq_false_of_isFinite hfinite), hfinite⟩
  | boolean =>
    simp only [ofArgument?, Option.map_eq_some_iff] at h
    obtain ⟨b, -, rfl⟩ := h
    exact ⟨.boolean b, trivial⟩
  | date =>
    simp only [ofArgument?, Option.map_eq_some_iff] at h
    obtain ⟨date, -, rfl⟩ := h
    exact ⟨.date date, trivial⟩
  | string =>
    obtain rfl := Option.some.inj h
    exact ⟨.string text, trivial⟩
  | enum =>
    obtain rfl := Option.some.inj h
    exact ⟨.enum text, trivial⟩
  | list => exact absurd rfl hscalar

private theorem hasType_of_scalarText? {stored : Json} {make : String → Value}
    (hmake : ∀ text, (make text).HasType type) (h : (scalarText? stored).map make = some v) :
    v.HasType type := by
  obtain ⟨text, -, rfl⟩ := Option.map_eq_some_iff.mp h
  exact hmake text

private theorem hasType_of_storedNumber? {stored : Json} (hfinite : stored.HasFiniteNumbers)
    (h : storedNumber? stored = some v) : v.HasType .number := by
  cases stored with
  | number n =>
    obtain rfl : number n.toBinary64 = v := Option.some.inj h
    exact .number (Json.Number.isNaN_toBinary64 (hfinite n .number))
  | string text =>
    have hread : ofArgument? .number text = some v := by
      simpa only [storedNumber?, ofArgument?] using h
    exact (hasType_of_ofArgument? hread (by decide)).1
  | _ => cases h

private theorem hasType_of_storedBool? {stored : Json} (h : storedBool? stored = some v) :
    v.HasType .boolean := by
  unfold storedBool? at h
  split at h
  · obtain rfl := Option.some.inj h
    exact .boolean _
  · obtain ⟨b, -, rfl⟩ := Option.map_eq_some_iff.mp h
    exact .boolean b
  · split at h
    · obtain rfl := Option.some.inj h
      exact .boolean false
    · split at h
      · obtain rfl := Option.some.inj h
        exact .boolean true
      · cases h
  · cases h

private theorem hasType_of_storedDate? {stored : Json} (h : storedDate? stored = some v) :
    v.HasType .date := by
  unfold storedDate? at h
  split at h
  · obtain ⟨date, -, rfl⟩ := Option.map_eq_some_iff.mp h
    exact .date date
  · cases h

private theorem hasType_of_storedList? {stored : Json} (h : storedList? stored = some v) :
    v.HasType .list := by
  unfold storedList? at h
  split at h
  · obtain rfl := Option.some.inj h
    exact .list _
  · obtain rfl := Option.some.inj h
    exact .list _
  · cases h

/-- A stored value has the type that it is read as. -/
theorem hasType_of_ofStored? {stored : Json} (hfinite : stored.HasFiniteNumbers)
    (h : ofStored? type stored = some v) : v.HasType type := by
  cases type with
  | number => exact hasType_of_storedNumber? hfinite h
  | boolean => exact hasType_of_storedBool? h
  | date => exact hasType_of_storedDate? h
  | string => exact hasType_of_scalarText? .string h
  | enum => exact hasType_of_scalarText? .enum h
  | list => exact hasType_of_storedList? h

/-- Two values of an ordered type are ordered. -/
theorem isSome_compare? (hordered : type.isOrdered = true) (hv : v.HasType type)
    (hw : w.HasType type) : (v.compare? w).isSome = true := by
  cases hv with
  | number hx =>
    cases hw with
    | number hy => exact Binary64.isSome_compare? hx hy
  | date a =>
    cases hw with
    | date b => rfl
  | _ => cases hordered

end Value

namespace Comparison

/-- A comparison is one of values of a type, its arguments of that type: options for a selection,
and finite numbers. -/
inductive HasType (type : ValueType) : Comparison → Prop where
  | equals {v : Value} (scalar : type ≠ .list) (typed : v.HasType type) (finite : v.IsFinite) :
      HasType type (.equals v)
  | notEquals {v : Value} (scalar : type ≠ .list) (typed : v.HasType type)
      (finite : v.IsFinite) : HasType type (.notEquals v)
  | within (options : List String) (selection : type = .list) : HasType type (.within options)
  | notWithin (options : List String) (selection : type = .list) :
      HasType type (.notWithin options)
  | substring (needle : String) (text : type = .string) : HasType type (.substring needle)
  | intersects (options : List String) (selection : type = .list) :
      HasType type (.intersects options)
  | range {low high : Value} (ordered : type.isOrdered = true) (low_typed : low.HasType type)
      (low_finite : low.IsFinite) (high_typed : high.HasType type) (high_finite : high.IsFinite) :
      HasType type (.range low high)
  | greaterThan {v : Value} (ordered : type.isOrdered = true) (typed : v.HasType type)
      (finite : v.IsFinite) : HasType type (.greaterThan v)
  | lessThan {v : Value} (ordered : type.isOrdered = true) (typed : v.HasType type)
      (finite : v.IsFinite) : HasType type (.lessThan v)

/-- Every order that evaluating the comparison on a value asks for is there: to each end of a range,
or to a bound. -/
def Orders (v : Value) : Comparison → Prop
  | range low high => (v.compare? low).isSome = true ∧ (v.compare? high).isSome = true
  | greaterThan bound => (v.compare? bound).isSome = true
  | lessThan bound => (v.compare? bound).isSome = true
  | _ => True

variable {type : ValueType} {comparison : Comparison} {v : Value}

/-- A comparison of values of a type orders every value of the type. -/
theorem HasType.orders (h : comparison.HasType type) (hv : v.HasType type) :
    comparison.Orders v := by
  cases h with
  | range hordered hlow _ hhigh _ =>
    exact ⟨Value.isSome_compare? hordered hv hlow, Value.isSome_compare? hordered hv hhigh⟩
  | greaterThan hordered hbound _ => exact Value.isSome_compare? hordered hv hbound
  | lessThan hordered hbound _ => exact Value.isSome_compare? hordered hv hbound
  | _ => trivial

end Comparison

namespace FieldDescriptor

variable {d : FieldDescriptor} {method : ComparisonMethod} {arguments : List String}
  {comparison : Comparison}

private theorem hasType_of_argument {text : String} {v : Value} (h : d.argument text = .ok v)
    (hscalar : d.valueType ≠ .list) : v.HasType d.valueType ∧ v.IsFinite := by
  unfold argument at h
  split at h
  · next value hread =>
    split at h
    · cases h
    · obtain rfl := Except.ok.inj h
      exact Value.hasType_of_ofArgument? hread hscalar
  · cases h

private theorem hasType_of_scalar {text : String} {make : Value → Comparison}
    (h : (d.argument text).map make = .ok comparison) (hscalar : d.valueType ≠ .list)
    (hmake : ∀ v, v.HasType d.valueType → v.IsFinite → (make v).HasType d.valueType) :
    comparison.HasType d.valueType := by
  obtain ⟨v, hv, rfl⟩ := map_eq_ok_iff.mp h
  obtain ⟨htyped, hfinite⟩ := hasType_of_argument hv hscalar
  exact hmake v htyped hfinite

private theorem hasType_of_selection {make : List String → Comparison}
    (h : d.selectionComparison make arguments = .ok comparison)
    (hmake : ∀ options, (make options).HasType d.valueType) : comparison.HasType d.valueType := by
  obtain ⟨options, -, rfl⟩ := map_eq_ok_iff.mp h
  exact hmake (optionSet options)

private theorem hasType_of_range {low high : String}
    (h : (d.argument low >>= fun least => d.argument high >>= fun greatest =>
      .ok (Comparison.range least greatest)) = .ok comparison)
    (hordered : d.valueType.isOrdered = true) (hscalar : d.valueType ≠ .list) :
    comparison.HasType d.valueType := by
  obtain ⟨least, hleast, h⟩ := bind_eq_ok_iff.mp h
  obtain ⟨greatest, hgreatest, h⟩ := bind_eq_ok_iff.mp h
  obtain rfl := Except.ok.inj h
  obtain ⟨hlow, hlow_finite⟩ := hasType_of_argument hleast hscalar
  obtain ⟨hhigh, hhigh_finite⟩ := hasType_of_argument hgreatest hscalar
  exact .range hordered hlow hlow_finite hhigh hhigh_finite

private theorem hasType_of_comparisonOf (hsupports : method.supports d.valueType = true)
    (h : d.comparisonOf method arguments = .ok comparison) : comparison.HasType d.valueType := by
  have hscalar (hordered : d.valueType.isOrdered = true) : d.valueType ≠ .list := by
    intro hlist
    rw [hlist] at hordered
    cases hordered
  unfold comparisonOf at h
  split at h
  · next hlist => exact hasType_of_selection h fun options => .within options hlist
  · next hlist => exact hasType_of_selection h fun options => .notWithin options hlist
  · next hlist => exact hasType_of_selection h fun options => .intersects options hlist
  · next hlist => exact hasType_of_scalar h hlist fun v => .equals hlist
  · next hlist => exact hasType_of_scalar h hlist fun v => .notEquals hlist
  · next hlist =>
    obtain rfl := Except.ok.inj h
    have hstring : d.valueType = .string ∨ d.valueType = .list := by
      simpa [ComparisonMethod.supports] using hsupports
    exact .substring _ (hstring.resolve_right hlist)
  · exact hasType_of_range h hsupports (hscalar hsupports)
  · exact hasType_of_scalar h (hscalar hsupports) fun v => .greaterThan hsupports
  · exact hasType_of_scalar h (hscalar hsupports) fun v => .lessThan hsupports
  · cases h

/-- A comparison that a field makes is one of values of the type of the field. -/
theorem hasType_of_comparison (h : d.comparison method arguments = .ok comparison) :
    comparison.HasType d.valueType := by
  unfold FieldDescriptor.comparison at h
  split at h
  · cases h
  · next hsupports =>
    split at h
    · cases h
    · exact hasType_of_comparisonOf (by simpa using hsupports) h

end FieldDescriptor

/-- What a core field reads has the type of the field. -/
def CoreField.IsTyped (f : CoreField) : Prop :=
  match f.reader with
  | .household read => ∀ household v, read household = some v → v.HasType f.valueType
  | .individual read => ∀ individual asOf v, read individual asOf = some v → v.HasType f.valueType

private theorem hasType_of_map {α : Type} {type : ValueType} {make : α → Value}
    (hmake : ∀ a, (make a).HasType type) (stored : Option α) (v : Value)
    (h : stored.map make = some v) : v.HasType type := by
  obtain ⟨a, -, rfl⟩ := Option.map_eq_some_iff.mp h
  exact hmake a

private theorem hasType_of_coreSelection (options : List String) (v : Value)
    (h : CoreField.selection options = some v) : v.HasType .list := by
  unfold CoreField.selection at h
  split at h
  · cases h
  · obtain rfl := Option.some.inj h
    exact .list options

/-- What every core field reads has the type of the field. -/
theorem CoreField.isTyped_of_mem_all : ∀ f ∈ CoreField.all, f.IsTyped := by
  simp only [CoreField.all, List.forall_mem_cons]
  refine ⟨fun h => hasType_of_map (fun n => .number (Binary64.isNaN_ofInt _)) h.size,
    fun h => hasType_of_map .enum h.residenceStatus,
    fun h => hasType_of_map .string h.admin1,
    fun h => hasType_of_map .string h.admin2,
    fun h => hasType_of_map .string h.village,
    fun h => hasType_of_map .string h.address,
    fun h => hasType_of_map .date h.firstRegistrationDate,
    fun h => hasType_of_map .boolean h.returnee,
    fun h => hasType_of_coreSelection h.consentSharing,
    fun i _ => hasType_of_map .string (some i.fullName),
    fun i _ => hasType_of_map .enum i.sex,
    fun i _ => hasType_of_map .date i.birthDate,
    fun i asOf => hasType_of_map (fun n => .number (Binary64.isNaN_ofInt _)) _,
    fun i _ => hasType_of_map .enum i.maritalStatus,
    fun i _ => hasType_of_map .enum i.relationship,
    fun i _ => hasType_of_map .boolean i.disability,
    fun i _ => hasType_of_coreSelection i.observedDisability,
    fun i _ => hasType_of_map .boolean i.pregnant,
    fun i _ => hasType_of_map .string i.phoneNo, ?_⟩
  simp

/-- What a core field reads from a household has the type of the field. -/
theorem Household.hasType_of_coreValue {household : Household} {f : CoreField} {asOf : Date}
    {v : Value} (hf : f ∈ CoreField.all)
    (h : FieldSubject.coreValue household f asOf = some v) : v.HasType f.valueType := by
  have htyped := CoreField.isTyped_of_mem_all f hf
  unfold CoreField.IsTyped at htyped
  simp only [FieldSubject.coreValue] at h
  split at h
  · next read hread =>
    rw [hread] at htyped
    exact htyped household v h
  · cases h

/-- What a core field reads from an individual has the type of the field. -/
theorem Individual.hasType_of_coreValue {individual : Individual} {f : CoreField} {asOf : Date}
    {v : Value} (hf : f ∈ CoreField.all)
    (h : FieldSubject.coreValue individual f asOf = some v) : v.HasType f.valueType := by
  have htyped := CoreField.isTyped_of_mem_all f hf
  unfold CoreField.IsTyped at htyped
  simp only [FieldSubject.coreValue] at h
  split at h
  · cases h
  · next read hread =>
    rw [hread] at htyped
    exact htyped individual asOf v h

/-- A stored round has the type that its selector reads it as. -/
theorem RoundSelector.hasType_of_read {selector : RoundSelector} {stored : Json.Fields} {v : Value}
    (hfinite : stored.toJson.HasFiniteNumbers) (h : selector.read stored = some v) :
    v.HasType selector.valueType := by
  obtain ⟨rounds, hrounds, h⟩ := Option.bind_eq_some_iff.mp h
  obtain ⟨entry, hentry, h⟩ := Option.bind_eq_some_iff.mp h
  obtain ⟨value, hvalue, h⟩ := Option.bind_eq_some_iff.mp h
  have hrounds_finite := hfinite.get hrounds
  exact Value.hasType_of_ofStored? ((hrounds_finite.field hentry).field hvalue) h

/-- A round is read as the type of its field. -/
theorem RoundSelector.valueType_of {d : FieldDescriptor} {round : Option UInt32}
    {selector : RoundSelector} (h : RoundSelector.of d round = .ok selector) :
    selector.valueType = d.valueType := by
  unfold RoundSelector.of at h
  split at h
  · cases h
  · split at h
    · cases h
    · split at h
      · cases h
      · obtain rfl := Except.ok.inj h
        rfl

/-- What is read of a listed field has the type of the field. -/
theorem FieldDescriptor.Reads.hasType {α : Type} [FieldSubject α] {fields : ProgramFields}
    {c : FieldClassification} {d : FieldDescriptor} {round : Option UInt32} {asOf : Date}
    {subject : α} {v : Value}
    (hd : d ∈ (Schema.ofFields fields).table c)
    (hcore : ∀ f ∈ CoreField.all, ∀ v, FieldSubject.coreValue subject f asOf = some v →
      v.HasType f.valueType)
    (hfinite : (FieldSubject.flexFields subject).toJson.HasFiniteNumbers)
    (h : d.Reads round asOf subject (some v)) : v.HasType d.valueType := by
  generalize hvalue : some v = value at h
  cases h with
  | core hclassified hfound =>
    obtain ⟨-, f, hf, rfl⟩ | ⟨-, a, -, rfl⟩ | ⟨-, f, -, rfl⟩ := Schema.mem_table_ofFields hd
    · obtain rfl := Option.some.inj (hf.symm.trans hfound)
      exact hcore f (List.mem_of_find?_eq_some hf) v hvalue.symm
    · cases hclassified
    · cases hclassified
  | flex =>
    obtain ⟨stored, hstored, h⟩ := Option.bind_eq_some_iff.mp hvalue.symm
    exact Value.hasType_of_ofStored? (hfinite.get hstored) h
  | periodic _ hfound =>
    obtain ⟨selector, hselector, rfl⟩ := map_eq_ok_iff.mp hfound
    rw [← RoundSelector.valueType_of hselector]
    exact RoundSelector.hasType_of_read hfinite hvalue.symm

namespace Condition

/-- Compiled conditions are well typed. A condition that compiles compares its field with arguments
of the declared type. On every household and individual whose stored numbers are finite, a value
that is found has that type too, so it stands in an order to each end of a range and to a bound. -/
theorem compile_keeps_types (fields : ProgramFields) (condition : Condition) (context : EntityKind)
    (asOf : Date) (atom : Atom)
    (h : condition.compile (Schema.ofFields fields).resolve asOf context = .ok atom) :
    ∃ d, (Schema.ofFields fields).resolve condition.field condition.classification = .ok d ∧
      atom.comparison.HasType d.valueType ∧
      (∀ household : Household, household.flexFields.toJson.HasFiniteNumbers →
        ∀ v, atom.value household = some v →
          v.HasType d.valueType ∧ atom.comparison.Orders v) ∧
      ∀ individual : Individual, individual.flexFields.toJson.HasFiniteNumbers →
        ∀ v, atom.value individual = some v →
          v.HasType d.valueType ∧ atom.comparison.Orders v := by
  obtain ⟨d, selector, source, comparison, hd, hselector, -, hsource, hcomparison, rfl⟩ :=
    compile_eq_ok_iff.mp h
  have hmem := (Schema.mem_of_find? (Schema.resolve_eq_ok_iff.mp hd)).1
  have htyped := FieldDescriptor.hasType_of_comparison hcomparison
  refine ⟨d, hd, htyped, ?_, ?_⟩
  · intro household hfinite v hv
    have hreads : d.Reads condition.round asOf household (some v) :=
      (reads_iff hselector hsource).mpr hv.symm
    have hv := hreads.hasType hmem (fun f hf v => Household.hasType_of_coreValue hf) hfinite
    exact ⟨hv, htyped.orders hv⟩
  · intro individual hfinite v hv
    have hreads : d.Reads condition.round asOf individual (some v) :=
      (reads_iff hselector hsource).mpr hv.symm
    have hv := hreads.hasType hmem (fun f hf v => Individual.hasType_of_coreValue hf) hfinite
    exact ⟨hv, htyped.orders hv⟩

/-- A member whose score of the second round is stored as a number. -/
def exampleMember : Individual :=
  { exampleRecord.members.getLast (List.cons_ne_nil _ _) with
    flexFields := .of [("score", .object [("2", .object [("value", .ofInt 7)])])] }

/-- A range of scores in the second round. -/
def exampleRange : Condition := .periodic "score" (some 2) .range ["2.5", "10"]

private theorem exampleMember_hasFiniteNumbers :
    exampleMember.flexFields.toJson.HasFiniteNumbers := by
  have hfields : exampleMember.flexFields.toJson =
      .object [("score", .object [("2", .object [("value", .ofInt 7)])])] := by
    rfl
  simp [hfields, Json.hasFiniteNumbers_object, Json.ofInt, Json.hasFiniteNumbers_number,
    Json.Number.IsFinite]

/-- The score of the example is a number, and stands in an order to both ends of the range. -/
theorem exampleRange_keeps_types :
    ∃ d atom v,
      exampleRange.compile (Schema.ofFields exampleFields).resolve exampleDate .individual =
        .ok atom ∧
      (Schema.ofFields exampleFields).resolve "score" .periodic = .ok d ∧
      exampleMember.flexFields.toJson.HasFiniteNumbers ∧ atom.value exampleMember = some v ∧
      v.HasType d.valueType ∧ atom.comparison.Orders v := by
  have hrun : ((exampleRange.compile (Schema.ofFields exampleFields).resolve exampleDate
      .individual).toOption.bind fun atom => atom.value exampleMember).isSome = true := by
    decide +kernel
  obtain ⟨v, hv⟩ := Option.isSome_iff_exists.mp hrun
  obtain ⟨atom, hatom, hv⟩ := Option.bind_eq_some_iff.mp hv
  have h := toOption_eq_some_iff.mp hatom
  obtain ⟨d, hd, -, -, hmember⟩ := compile_keeps_types _ _ _ _ _ h
  obtain ⟨htyped, horders⟩ := hmember exampleMember exampleMember_hasFiniteNumbers v hv
  exact ⟨d, atom, v, h, hd, exampleMember_hasFiniteNumbers, hv, htyped, horders⟩

end Condition

end Beneficiary
