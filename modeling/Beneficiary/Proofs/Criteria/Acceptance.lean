import Beneficiary.Proofs.Criteria.Arguments
import Beneficiary.Proofs.Criteria.FirstError
import Beneficiary.Proofs.Criteria.Schema

/-!
# Which conditions are accepted

A condition on an entity passes six checks, in this order: its table lists a field of its name; the
field takes the round that is named, or none; the field describes the entity; the method is defined
for the type of the field; it takes that many arguments; and the field admits each argument. A
condition is accepted exactly when it passes them all. Otherwise its error is that of the first
check that it fails, and of the leftmost argument that is not admitted.
-/

namespace Beneficiary

/-- A field takes the round that a condition names: a periodic field one of its rounds, any other
field none. -/
def FieldDescriptor.TakesRound (d : FieldDescriptor) (round : Option UInt32) : Prop :=
  if d.classification = .periodic then
    ∃ spec number, d.periodic = some spec ∧ round = some number ∧
      1 ≤ number ∧ number ≤ spec.numberOfRounds
  else round = none

/-- A condition on an entity of a kind passes the checks that are made once its field is found. -/
structure Condition.Fits (condition : Condition) (context : EntityKind) (d : FieldDescriptor) :
    Prop where
  round : d.TakesRound condition.round
  owner : d.owner = context
  method : condition.method.IsDefinedFor d.valueType
  count : condition.method.TakesCount d.valueType condition.arguments.length
  arguments : ∀ text ∈ condition.arguments, d.Admits text

/-- What is wrong with the round that a condition names for a field, or leaves out. -/
inductive FieldDescriptor.RefusesRound (d : FieldDescriptor) :
    Option UInt32 → ConditionError → Prop where
  | missing (classified : d.classification = .periodic) :
      d.RefusesRound none (.missingRound d.name)
  | outOfRange {spec : PeriodicSpec} {number : UInt32} (classified : d.classification = .periodic)
      (rounds : d.periodic = some spec) (outside : ¬ (1 ≤ number ∧ number ≤ spec.numberOfRounds)) :
      d.RefusesRound (some number) (.roundOutOfRange d.name number spec.numberOfRounds)
  | unexpected {number : UInt32} (classified : d.classification ≠ .periodic) :
      d.RefusesRound (some number) (.classificationMismatch d.name .periodic d.classification)

/-- What is wrong with a condition on an entity of a kind, by the first check that fails. -/
inductive Condition.Refused (schema : Schema) (context : EntityKind) (condition : Condition) :
    ConditionError → Prop where
  /-- No table lists the name. -/
  | unknown (unlisted : ∀ d ∈ schema.fields, d.name ≠ condition.field) :
      condition.Refused schema context (.unknownField condition.field)
  /-- The table does not list the name, and of the others this one is the first that does. -/
  | misplaced {before after : List FieldClassification} {actual : FieldClassification}
      (unlisted : ∀ d ∈ schema.table condition.classification, d.name ≠ condition.field)
      (order : FieldClassification.all = before ++ actual :: after)
      (earlier : ∀ c ∈ before, ∀ d ∈ schema.table c, d.name ≠ condition.field)
      (listed : ∃ d ∈ schema.table actual, d.name = condition.field) :
      condition.Refused schema context
        (.classificationMismatch condition.field condition.classification actual)
  | round {d : FieldDescriptor} {e : ConditionError}
      (listed : d ∈ schema.table condition.classification) (name : d.name = condition.field)
      (refused : d.RefusesRound condition.round e) : condition.Refused schema context e
  | owner {d : FieldDescriptor}
      (listed : d ∈ schema.table condition.classification) (name : d.name = condition.field)
      (round : d.TakesRound condition.round) (foreign : d.owner ≠ context) :
      condition.Refused schema context (.crossEntity d.name d.owner context)
  | comparison {d : FieldDescriptor} {e : ConditionError}
      (listed : d ∈ schema.table condition.classification) (name : d.name = condition.field)
      (round : d.TakesRound condition.round) (owner : d.owner = context)
      (refused : d.RefusesComparison condition.method condition.arguments e) :
      condition.Refused schema context e

namespace Schema

variable {fields : ProgramFields} {c : FieldClassification} {d : FieldDescriptor}

/-- A listed periodic field has rounds. -/
theorem exists_periodic_of_mem_table (h : d ∈ (ofFields fields).table c)
    (hp : d.classification = .periodic) : ∃ spec, d.periodic = some spec := by
  obtain ⟨-, f, -, rfl⟩ | ⟨-, a, -, rfl⟩ | ⟨-, f, -, rfl⟩ := mem_table_ofFields h
  · cases hp
  · cases hp
  · exact ⟨f.spec, rfl⟩

/-- The value of a listed field is found once its round is selected; a listed core field is found by
its name. -/
theorem exists_source_of_mem_table {condition : Condition} {selector : Option RoundSelector}
    (h : d ∈ (ofFields fields).table c) (hselector : condition.selector d = .ok selector) :
    ∃ source, Condition.source d selector = .ok source := by
  obtain ⟨-, s, -, rfl⟩ | ⟨hp, -, rfl⟩ := Condition.selector_cases hselector
  · exact ⟨.periodic s, rfl⟩
  · obtain ⟨-, f, hf, rfl⟩ | ⟨-, a, -, rfl⟩ | ⟨-, f, -, rfl⟩ := mem_table_ofFields h
    · have hfound : CoreField.find? f.name = some f := hf
      exact ⟨.core f, by simp [Condition.source, hfound, CoreField.descriptor]⟩
    · exact ⟨.flex a.name a.valueType, rfl⟩
    · exact absurd rfl hp

end Schema

namespace Condition

variable {condition : Condition} {d : FieldDescriptor} {e : ConditionError}

private theorem selector_of_periodic {spec : PeriodicSpec} (hp : d.classification = .periodic)
    (hspec : d.periodic = some spec) :
    condition.selector d =
      match condition.round with
      | none => .error (.missingRound d.name)
      | some number =>
        if 1 ≤ number ∧ number ≤ spec.numberOfRounds then
          .ok (some { field := d.name, round := number, valueType := d.valueType })
        else .error (.roundOutOfRange d.name number spec.numberOfRounds) := by
  rw [selector, if_pos (.inl hp)]
  cases condition.round with
  | none => simp [RoundSelector.of, FieldDescriptor.rounds?, hp, hspec, Except.map]
  | some number =>
    have houtside : (number = 0 ∨ spec.numberOfRounds < number) ↔
        ¬ (1 ≤ number ∧ number ≤ spec.numberOfRounds) := by
      simp only [UInt32.le_iff_toNat_le, UInt32.lt_iff_toNat_lt, ← UInt32.toNat_inj,
        UInt32.toNat_zero, UInt32.toNat_one]
      omega
    simp only [RoundSelector.of, FieldDescriptor.rounds?, hp, hspec, ↓reduceIte, houtside]
    by_cases hinside : 1 ≤ number ∧ number ≤ spec.numberOfRounds
    · rw [if_neg (not_not_intro hinside), if_pos hinside]
      rfl
    · rw [if_pos hinside, if_neg hinside]
      rfl

private theorem selector_of_other (hp : d.classification ≠ .periodic) :
    condition.selector d =
      match condition.round with
      | none => .ok none
      | some _ => .error (.classificationMismatch d.name .periodic d.classification) := by
  unfold selector
  cases condition.round with
  | none => simp [hp]
  | some number => simp [hp, RoundSelector.of, FieldDescriptor.rounds?, Except.map]

/-- The round of a condition can be selected exactly when the field takes it. -/
theorem exists_selector_eq_ok_iff
    (hrounds : d.classification = .periodic → ∃ spec, d.periodic = some spec) :
    (∃ selector, condition.selector d = .ok selector) ↔ d.TakesRound condition.round := by
  by_cases hp : d.classification = .periodic
  · obtain ⟨spec, hspec⟩ := hrounds hp
    rw [selector_of_periodic hp hspec, FieldDescriptor.TakesRound, if_pos hp]
    cases condition.round with
    | none => simp
    | some number =>
      by_cases hinside : 1 ≤ number ∧ number ≤ spec.numberOfRounds
      · simp [hinside, hspec]
      · simp [hinside, hspec]
  · rw [selector_of_other hp, FieldDescriptor.TakesRound, if_neg hp]
    cases condition.round <;> simp

/-- Selecting the round of a condition fails exactly with what is wrong about it. -/
theorem selector_eq_error_iff
    (hrounds : d.classification = .periodic → ∃ spec, d.periodic = some spec) :
    condition.selector d = .error e ↔ d.RefusesRound condition.round e := by
  by_cases hp : d.classification = .periodic
  · obtain ⟨spec, hspec⟩ := hrounds hp
    rw [selector_of_periodic hp hspec]
    cases condition.round with
    | none =>
      constructor
      · intro h
        obtain rfl : .missingRound d.name = e := Except.error.inj h
        exact .missing hp
      · rintro ⟨⟩
        rfl
    | some number =>
      dsimp only
      constructor
      · intro h
        split at h
        · cases h
        · next houtside =>
          obtain rfl : .roundOutOfRange d.name number spec.numberOfRounds = e :=
            Except.error.inj h
          exact .outOfRange hp hspec houtside
      · intro h
        cases h with
        | outOfRange _ hrounds houtside =>
          obtain rfl := Option.some.inj (hspec.symm.trans hrounds)
          rw [if_neg houtside]
        | unexpected hother => exact absurd hp hother
  · rw [selector_of_other hp]
    cases condition.round with
    | none =>
      constructor
      · intro h
        cases h
      · rintro ⟨hperiodic⟩
        exact absurd hperiodic hp
    | some number =>
      constructor
      · intro h
        obtain rfl : .classificationMismatch d.name .periodic d.classification = e :=
          Except.error.inj h
        exact .unexpected hp
      · intro h
        cases h with
        | outOfRange hperiodic => exact absurd hperiodic hp
        | unexpected _ => rfl

variable {fields : ProgramFields} {context : EntityKind} {asOf : Date}

/-- A condition compiles exactly when its table lists a field of its name that it fits. -/
theorem compiles_iff :
    condition.Compiles (Schema.ofFields fields).resolve asOf context ↔
      ∃ d ∈ (Schema.ofFields fields).table condition.classification,
        d.name = condition.field ∧ condition.Fits context d := by
  unfold Compiles
  simp only [compile_eq_ok_iff, Schema.resolve_eq_ok_iff, Schema.find?_ofFields_eq_some_iff]
  constructor
  · rintro ⟨-, d, selector, source, comparison, ⟨hd, hname⟩, hselector, howner, -, hcomparison, -⟩
    have hrounds := Schema.exists_periodic_of_mem_table hd
    have hround := (exists_selector_eq_ok_iff hrounds).mp ⟨selector, hselector⟩
    obtain ⟨hmethod, hcount, harguments⟩ :=
      FieldDescriptor.exists_comparison_eq_ok_iff.mp ⟨comparison, hcomparison⟩
    exact ⟨d, hd, hname, hround, howner, hmethod, hcount, harguments⟩
  · rintro ⟨d, hd, hname, hround, howner, hmethod, hcount, harguments⟩
    have hrounds := Schema.exists_periodic_of_mem_table hd
    obtain ⟨selector, hselector⟩ := (exists_selector_eq_ok_iff hrounds).mpr hround
    obtain ⟨source, hsource⟩ := Schema.exists_source_of_mem_table hd hselector
    obtain ⟨comparison, hcomparison⟩ :=
      FieldDescriptor.exists_comparison_eq_ok_iff.mpr ⟨hmethod, hcount, harguments⟩
    exact ⟨_, d, selector, source, comparison, ⟨hd, hname⟩, hselector, howner, hsource,
      hcomparison, rfl⟩

private theorem compile_eq_of_listed
    (hd : d ∈ (Schema.ofFields fields).table condition.classification)
    (hname : d.name = condition.field) :
    condition.compile (Schema.ofFields fields).resolve asOf context =
      condition.selector d >>= fun selector =>
        if d.owner = context then
          source d selector >>= fun source =>
            (d.comparison condition.method condition.arguments).map fun comparison =>
              { field := d.name, source, comparison, asOf }
        else .error (.crossEntity d.name d.owner context) := by
  have hfound := Schema.find?_ofFields_eq_some_iff.mpr ⟨hd, hname⟩
  rw [compile_eq, Schema.resolve_eq_ok_iff.mpr hfound]
  rfl

private theorem compile_eq_of_unlisted
    (h : ∀ d ∈ (Schema.ofFields fields).table condition.classification, d.name ≠ condition.field) :
    condition.compile (Schema.ofFields fields).resolve asOf context =
      match (Schema.ofFields fields).otherClassification? condition.field
        condition.classification with
      | some actual =>
        .error (.classificationMismatch condition.field condition.classification actual)
      | none => .error (.unknownField condition.field) := by
  rw [compile_eq, Schema.resolve_eq_of_unlisted (Schema.find?_eq_none_iff.mpr h)]
  cases (Schema.ofFields fields).otherClassification? condition.field condition.classification <;>
    rfl

private theorem refused_of_unlisted
    (hlisted : ∀ d ∈ (Schema.ofFields fields).table condition.classification,
      d.name ≠ condition.field)
    (h : condition.compile (Schema.ofFields fields).resolve asOf context = .error e) :
    condition.Refused (Schema.ofFields fields) context e := by
  have hdeclared := Schema.find?_eq_none_iff.mpr hlisted
  rw [compile_eq_of_unlisted hlisted] at h
  split at h
  · next actual hactual =>
    obtain rfl := Except.error.inj h
    obtain ⟨hother, before, after, horder, hearlier⟩ :=
      (Schema.otherClassification?_eq_some_iff hdeclared).mp hactual
    exact .misplaced hlisted horder hearlier hother
  · next hnone =>
    obtain rfl := Except.error.inj h
    exact .unknown ((Schema.otherClassification?_eq_none_iff hdeclared).mp hnone)

private theorem refused_of_listed
    (hd : d ∈ (Schema.ofFields fields).table condition.classification)
    (hname : d.name = condition.field)
    (h : condition.compile (Schema.ofFields fields).resolve asOf context = .error e) :
    condition.Refused (Schema.ofFields fields) context e := by
  have hrounds := Schema.exists_periodic_of_mem_table hd
  rw [compile_eq_of_listed hd hname] at h
  rcases bind_eq_error_iff.mp h with hselector | ⟨selector, hselector, h⟩
  · exact .round hd hname ((selector_eq_error_iff hrounds).mp hselector)
  · have hround := (exists_selector_eq_ok_iff hrounds).mp ⟨selector, hselector⟩
    by_cases howner : d.owner = context
    · obtain ⟨source, hsource⟩ := Schema.exists_source_of_mem_table hd hselector
      rw [if_pos howner, hsource] at h
      exact .comparison hd hname hround howner
        (FieldDescriptor.comparison_eq_error_iff.mp (map_eq_error_iff.mp h))
    · rw [if_neg howner] at h
      obtain rfl := Except.error.inj h
      exact .owner hd hname hround howner

/-- A condition fails exactly with the error of the first check that it does not pass. -/
theorem compile_eq_error_iff :
    condition.compile (Schema.ofFields fields).resolve asOf context = .error e ↔
      condition.Refused (Schema.ofFields fields) context e := by
  constructor
  · intro h
    by_cases hlisted : ∃ d ∈ (Schema.ofFields fields).table condition.classification,
        d.name = condition.field
    · obtain ⟨d, hd, hname⟩ := hlisted
      exact refused_of_listed hd hname h
    · push Not at hlisted
      exact refused_of_unlisted hlisted h
  · intro h
    cases h with
    | unknown hunlisted =>
      have hlisted : ∀ d ∈ (Schema.ofFields fields).table condition.classification,
          d.name ≠ condition.field :=
        fun d hd => hunlisted d (Schema.mem_fields.mpr ⟨_, hd⟩)
      have hnone := (Schema.otherClassification?_eq_none_iff
        (Schema.find?_eq_none_iff.mpr hlisted)).mpr hunlisted
      rw [compile_eq_of_unlisted hlisted, hnone]
    | misplaced hlisted horder hearlier hother =>
      have hsome := (Schema.otherClassification?_eq_some_iff
        (Schema.find?_eq_none_iff.mpr hlisted)).mpr ⟨hother, _, _, horder, hearlier⟩
      rw [compile_eq_of_unlisted hlisted, hsome]
    | round hd hname hrefused =>
      have hrounds := Schema.exists_periodic_of_mem_table hd
      rw [compile_eq_of_listed hd hname, (selector_eq_error_iff hrounds).mpr hrefused]
      rfl
    | owner hd hname hround hforeign =>
      have hrounds := Schema.exists_periodic_of_mem_table hd
      obtain ⟨selector, hselector⟩ := (exists_selector_eq_ok_iff hrounds).mpr hround
      rw [compile_eq_of_listed hd hname, hselector]
      exact if_neg hforeign
    | comparison hd hname hround howner hrefused =>
      have hrounds := Schema.exists_periodic_of_mem_table hd
      obtain ⟨selector, hselector⟩ := (exists_selector_eq_ok_iff hrounds).mpr hround
      obtain ⟨source, hsource⟩ := Schema.exists_source_of_mem_table hd hselector
      have hcomparison := FieldDescriptor.comparison_eq_error_iff.mpr hrefused
      rw [compile_eq_of_listed hd hname]
      refine bind_eq_error_iff.mpr (.inr ⟨selector, hselector, ?_⟩)
      rw [if_pos howner, hsource]
      exact map_eq_error_iff.mpr hcomparison

/-- What is accepted and what is refused of one condition is decided by six checks in turn. It
compiles just when its table lists a field of its name, which takes its round, describes the entity
at hand, and compares by its method with that many arguments, each of them admitted. It fails just
with the error of the first check that it does not pass, and of the leftmost argument that is not
admitted. -/
theorem compile_decides (fields : ProgramFields) (condition : Condition) (context : EntityKind)
    (asOf : Date) :
    (condition.Compiles (Schema.ofFields fields).resolve asOf context ↔
      ∃ d ∈ (Schema.ofFields fields).table condition.classification,
        d.name = condition.field ∧ condition.Fits context d) ∧
    ∀ e, condition.compile (Schema.ofFields fields).resolve asOf context = .error e ↔
      condition.Refused (Schema.ofFields fields) context e :=
  ⟨compiles_iff, fun _ => compile_eq_error_iff⟩

end Condition

end Beneficiary
