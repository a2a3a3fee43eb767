import Beneficiary.Proofs.Store.Recording
import Beneficiary.Proofs.Targeting.Verdicts

/-!
# Why operations are refused

An operation can name what is not registered, state what breaks a rule, register what is there
already, or target with criteria that do not compile. The first of these that holds is the kind of
its failure, and an operation of which none holds is done.
-/

namespace Beneficiary

/-- What a failure is about. -/
inductive Failure.Kind where
  /-- The tables were never made. -/
  | unavailable
  /-- Something that is named is not registered. -/
  | unknown
  /-- A rule is broken by what is stated. -/
  | invalid
  /-- A name or id is registered already. -/
  | taken
  /-- Criteria do not compile. -/
  | uncompiled
deriving DecidableEq, Repr

/-- What a failure is about, by its cause. -/
def Failure.kind : Failure → Failure.Kind
  | .missingTable _ => .unavailable
  | .unknownProgram => .unknown
  | .unknownPeriodicField _ => .unknown
  | .fieldNameTaken _ => .taken
  | .householdIdTaken _ => .taken
  | .individualIdTaken _ => .taken
  | .criteria _ => .uncompiled
  | _ => .invalid

namespace Store

/-- A periodic field of a name is registered in the program of an individual. -/
structure IsRoundField (s : Store) (individualId : Uuid) (name : String) (field : PeriodicField) :
    Prop where
  mem : field ∈ s.periodicFields
  name_eq : field.name = name
  registered : ∃ i ∈ s.individuals, i.id = individualId ∧
    ∃ h ∈ s.households, h.id = i.householdId ∧ h.programId = field.programId

end Store

namespace Operation

/-- The operation names a program, a household, an individual or, for it, a periodic field that is
not registered. -/
def NamesUnknown (s : Store) : Operation → Prop
  | .getProgram id => ∀ p ∈ s.programs, p.id ≠ id
  | .getFieldDescriptors id => ∀ p ∈ s.programs, p.id ≠ id
  | .getHouseholds id => ∀ p ∈ s.programs, p.id ≠ id
  | .createFlexAttribute id _ => ∀ p ∈ s.programs, p.id ≠ id
  | .createPeriodicField id _ => ∀ p ∈ s.programs, p.id ≠ id
  | .createHousehold id _ => ∀ p ∈ s.programs, p.id ≠ id
  | .validate id _ _ => ∀ p ∈ s.programs, p.id ≠ id
  | .preview id _ _ => ∀ p ∈ s.programs, p.id ≠ id
  | .getHousehold id => ∀ h ∈ s.households, h.id ≠ id
  | .withdrawHousehold id => ∀ h ∈ s.households, h.id ≠ id
  | .getIndividual id => ∀ i ∈ s.individuals, i.id ≠ id
  | .withdrawIndividual id => ∀ i ∈ s.individuals, i.id ≠ id
  | .recordRound id input => ∀ field, ¬ s.IsRoundField id input.field field
  | _ => False

/-- What the operation states keeps the rules, whatever else is registered under its names and
ids. -/
def IsValid (s : Store) : Operation → Prop
  | .createProgram input => Text.isBlankText input.name = false
  | .createFlexAttribute _ input =>
    Text.isBlankText input.name = false ∧ CoreField.find? input.name = none ∧
      (input.choices = [] ∨ input.valueType.hasChoices = true)
  | .createPeriodicField _ input =>
    Text.isBlankText input.name = false ∧ CoreField.find? input.name = none ∧
      input.numberOfRounds ≠ 0 ∧ input.subtype.hasChoices = false ∧
      input.roundNames.length ≤ input.numberOfRounds.toNat
  | .createHousehold id input =>
    ∀ p ∈ s.programs, p.id = id → ∃ headIndex, input.check p.mode = .ok headIndex
  | .recordRound id input => ∀ field, s.IsRoundField id input.field field →
    field.owner = .individual ∧ input.round ≠ 0 ∧ input.round ≤ field.spec.numberOfRounds
  | .validate id request _ =>
    ∀ p ∈ s.programs, p.id = id → ∀ spec ∈ request.exclusions, spec.mode = p.mode
  | .preview id request _ =>
    ∀ p ∈ s.programs, p.id = id → ∀ spec ∈ request.exclusions, spec.mode = p.mode
  | _ => True

/-- A field name, or the registration id of a household or a member, is registered already or
repeated. -/
def Repeats (s : Store) : Operation → Prop
  | .createFlexAttribute id input => ∃ d ∈ s.registeredDescriptors id, d.name = input.name
  | .createPeriodicField id input => ∃ d ∈ s.registeredDescriptors id, d.name = input.name
  | .createHousehold _ input =>
    (∃ h ∈ s.households, h.unicefId = input.unicefId) ∨
      (∃ person ∈ input.members, ∃ i ∈ s.individuals, i.unicefId = person.unicefId) ∨
      ¬ (input.members.map NewIndividual.unicefId).Nodup
  | _ => False

/-- The criteria of the operation compile against the schema of its program. -/
def Compiles (s : Store) : Operation → Prop
  | .validate id request asOf =>
    ∃ predicate, request.criteria.compile (s.schemaOf id).resolve asOf = .ok predicate
  | .preview id request asOf =>
    ∃ predicate, request.criteria.compile (s.schemaOf id).resolve asOf = .ok predicate
  | _ => True

/-- The first thing wrong with an operation is of a kind. -/
def IsWrong (s : Store) (operation : Operation) : Failure.Kind → Prop
  | .unavailable => False
  | .unknown => operation.NamesUnknown s
  | .invalid => ¬ operation.NamesUnknown s ∧ ¬ operation.IsValid s
  | .taken => ¬ operation.NamesUnknown s ∧ operation.IsValid s ∧ operation.Repeats s
  | .uncompiled =>
    ¬ operation.NamesUnknown s ∧ operation.IsValid s ∧ ¬ operation.Repeats s ∧
      ¬ operation.Compiles s

/-- Nothing is wrong with an operation. -/
structure IsRight (s : Store) (operation : Operation) : Prop where
  known : ¬ operation.NamesUnknown s
  valid : operation.IsValid s
  free : ¬ operation.Repeats s
  compiles : operation.Compiles s

/-- The first thing wrong with an operation is of one kind. -/
theorem IsWrong.unique {s : Store} {operation : Operation} {kind kind' : Failure.Kind}
    (h : operation.IsWrong s kind) (h' : operation.IsWrong s kind') : kind = kind' := by
  cases kind <;> cases kind' <;> grind [IsWrong]

/-- Something is wrong with an operation or nothing is. -/
theorem IsWrong.not_isRight {s : Store} {operation : Operation} {kind : Failure.Kind}
    (h : operation.IsWrong s kind) : ¬ operation.IsRight s := by
  rintro ⟨hknown, hvalid, hfree, hcompiles⟩
  cases kind with
  | unavailable => exact h
  | unknown => exact hknown h
  | invalid => exact h.2 hvalid
  | taken => exact hfree h.2.2
  | uncompiled => exact h.2.2.2 hcompiles

/-- The names and ids that the operation states, as a refusal may quote them. -/
def quoted : Operation → List String
  | .createFlexAttribute _ input => [input.name]
  | .createPeriodicField _ input => [input.name]
  | .createHousehold _ input => input.unicefId :: input.members.map NewIndividual.unicefId
  | .recordRound _ input => [input.field]
  | _ => []

end Operation

/-- What a failure quotes, the texts of core fields aside, is stated by the operation. -/
def Failure.QuotesFrom (texts : List String) : Failure → Prop
  | .coreFieldName name => (CoreField.find? name).isSome = true
  | .notAChoice field choices => .notAChoice field choices ∈ NewHousehold.refusals
  | .fieldNameTaken name => name ∈ texts
  | .householdIdTaken id => id ∈ texts
  | .individualIdTaken id => id ∈ texts
  | .notIndividualField name => name ∈ texts
  | _ => True

namespace Store

variable {s t : Store} {now : Moment} {failure : Failure}

/-! ### Registered or not -/

/-- A program is not found exactly when none has the identifier. -/
theorem program?_eq_none_iff {id : Uuid} : s.program? id = none ↔ ∀ p ∈ s.programs, p.id ≠ id := by
  simp [program?]

/-- A household is not found exactly when none has the identifier. -/
theorem household?_eq_none_iff {id : Uuid} :
    s.household? id = none ↔ ∀ h ∈ s.households, h.id ≠ id := by
  simp [household?]

/-- An individual is not found exactly when none has the identifier. -/
theorem individual?_eq_none_iff {id : Uuid} :
    s.individual? id = none ↔ ∀ i ∈ s.individuals, i.id ≠ id := by
  simp [individual?]

/-- A required program is unknown when it is not found. -/
theorem requireProgram_refused {id : Uuid} (h : s.requireProgram id = .error failure) :
    failure = .unknownProgram ∧ ∀ p ∈ s.programs, p.id ≠ id := by
  unfold requireProgram at h
  split at h
  · cases h
  · next hnone => exact ⟨(Except.error.inj h).symm, program?_eq_none_iff.mp hnone⟩

/-- A program that is found is registered. -/
theorem not_unknown_of_program? {id : Uuid} {program : Program}
    (h : s.program? id = some program) : ¬ ∀ p ∈ s.programs, p.id ≠ id := by
  intro hunknown
  rw [program?_eq_none_iff.mpr hunknown] at h
  cases h

/-- A household that is found is registered. -/
theorem not_unknown_of_household? {id : Uuid} {household : Household}
    (h : s.household? id = some household) : ¬ ∀ h ∈ s.households, h.id ≠ id := by
  intro hunknown
  rw [household?_eq_none_iff.mpr hunknown] at h
  cases h

/-- An individual that is found is registered. -/
theorem not_unknown_of_individual? {id : Uuid} {individual : Individual}
    (h : s.individual? id = some individual) : ¬ ∀ i ∈ s.individuals, i.id ≠ id := by
  intro hunknown
  rw [individual?_eq_none_iff.mpr hunknown] at h
  cases h

/-- An id that is taken is one of the ids asked for. -/
theorem mem_of_firstTaken? {taken ids : List String} {id : String}
    (h : firstTaken? taken ids = some id) : id ∈ ids := by
  induction ids generalizing taken with
  | nil => cases h
  | cons first rest ih =>
    rw [firstTaken?] at h
    split at h
    · exact Option.some.inj h ▸ List.mem_cons_self
    · exact List.mem_cons_of_mem _ (ih h)

/-! ### Refusals -/

/-- A failure is the right one for an operation: the operation is wrong as its kind tells, and what
it quotes is stated there. -/
def IsRefusal (s : Store) (operation : Operation) (failure : Failure) : Prop :=
  operation.IsWrong s failure.kind ∧ failure.QuotesFrom operation.quoted

/-- What the checks of a household on its own refuse is invalid, and quotes core fields at most. -/
theorem refusals_quote (h : failure ∈ NewHousehold.refusals) :
    failure.kind = .invalid ∧ ∀ texts, failure.QuotesFrom texts := by
  have hkinds : ∀ failure ∈ NewHousehold.refusals, failure.kind = .invalid := by decide
  refine ⟨hkinds failure h, fun texts => ?_⟩
  cases failure with
  | notAChoice field choices => exact h
  | coreFieldName name => simp [NewHousehold.refusals] at h
  | fieldNameTaken name => simp [NewHousehold.refusals] at h
  | householdIdTaken id => simp [NewHousehold.refusals] at h
  | individualIdTaken id => simp [NewHousehold.refusals] at h
  | notIndividualField name => simp [NewHousehold.refusals] at h
  | _ => trivial

/-- A field name fails its check by being blank or that of a core field. -/
theorem checkFieldName_refused {name : String} (h : checkFieldName name = .error failure) :
    failure.kind = .invalid ∧ (∀ texts, failure.QuotesFrom texts) ∧
      ¬ (Text.isBlankText name = false ∧ CoreField.find? name = none) := by
  rcases check_bind_eq_error_iff.mp h with hfails | ⟨-, hcore⟩
  · obtain ⟨hblank, rfl⟩ := require_eq_error_iff.mp hfails
    refine ⟨rfl, fun _ => trivial, fun hvalid => ?_⟩
    rw [hvalid.1] at hblank
    cases hblank
  · obtain ⟨hcoreWrong, rfl⟩ := require_eq_error_iff.mp hcore
    refine ⟨rfl, fun _ => ?_, fun hvalid => ?_⟩
    · cases hfound : CoreField.find? name with
      | none =>
        rw [hfound] at hcore
        cases hcore
      | some field => rw [Failure.QuotesFrom, hfound, Option.isSome_some]
    · rw [hvalid.2] at hcore
      cases hcore

/-- A field name passes its check exactly when it is neither blank nor that of a core field. -/
theorem checkFieldName_eq_ok_iff {name : String} :
    checkFieldName name = .ok () ↔
      Text.isBlankText name = false ∧ CoreField.find? name = none := by
  simp only [checkFieldName, check_bind_eq_ok_iff, require_eq_ok_iff, Bool.not_eq_true',
    Option.isNone_iff_eq_none]

/-- A name that is taken is one of the registered fields. -/
theorem hasField_eq_true_iff {id : Uuid} {name : String} :
    s.hasField id name = true ↔ ∃ d ∈ s.registeredDescriptors id, d.name = name := by
  rw [← not_iff_not, Bool.not_eq_true, hasField_eq_false_iff]
  simp

/-- A program is refused for its name. -/
theorem createProgram_refused {input : NewProgram}
    (h : s.createProgram now input = .error failure) :
    s.IsRefusal (.createProgram input) failure := by
  rcases check_bind_eq_error_iff.mp h with hfails | ⟨-, h⟩
  · obtain ⟨hblank, rfl⟩ := require_eq_error_iff.mp hfails
    refine ⟨⟨not_false, fun hvalid => ?_⟩, trivial⟩
    rw [show Text.isBlankText input.name = false from hvalid] at hblank
    cases hblank
  · cases h

/-- A flex attribute is refused for its program, for what it states, or for its name being taken. -/
theorem createFlexAttribute_refused {id : Uuid} {input : NewFlexAttribute}
    (h : s.createFlexAttribute now id input = .error failure) :
    s.IsRefusal (.createFlexAttribute id input) failure := by
  rcases bind_eq_error_iff.mp h with hprogram | ⟨program, hprogram, h⟩
  · obtain ⟨rfl, hunknown⟩ := requireProgram_refused hprogram
    exact ⟨hunknown, trivial⟩
  have hknown := not_unknown_of_program? (requireProgram_eq_ok_iff.mp hprogram)
  rcases check_bind_eq_error_iff.mp h with hname | ⟨hname, h⟩
  · obtain ⟨hkind, hquotes, hinvalid⟩ := checkFieldName_refused hname
    refine ⟨?_, hquotes _⟩
    rw [hkind]
    exact ⟨hknown, fun hvalid => hinvalid ⟨hvalid.1, hvalid.2.1⟩⟩
  rcases check_bind_eq_error_iff.mp h with hfails | ⟨hchoices, h⟩
  · obtain ⟨hchoices, rfl⟩ := require_eq_error_iff.mp hfails
    refine ⟨⟨hknown, fun hvalid => ?_⟩, trivial⟩
    rcases hvalid.2.2 with hempty | hhas
    · simp [hempty] at hchoices
    · simp [hhas] at hchoices
  rcases check_bind_eq_error_iff.mp h with hfails | ⟨-, h⟩
  · obtain ⟨hfree, rfl⟩ := require_eq_error_iff.mp hfails
    obtain ⟨hblank, hcore⟩ := checkFieldName_eq_ok_iff.mp hname
    refine ⟨⟨hknown, ⟨hblank, hcore, ?_⟩, hasField_eq_true_iff.mp (by simpa using hfree)⟩,
      List.mem_singleton_self _⟩
    simpa using require_eq_ok_iff.mp hchoices
  · cases h

/-- A periodic field is refused for its program, for what it states, or for its name being taken. -/
theorem createPeriodicField_refused {id : Uuid} {input : NewPeriodicField}
    (h : s.createPeriodicField now id input = .error failure) :
    s.IsRefusal (.createPeriodicField id input) failure := by
  rcases bind_eq_error_iff.mp h with hprogram | ⟨program, hprogram, h⟩
  · obtain ⟨rfl, hunknown⟩ := requireProgram_refused hprogram
    exact ⟨hunknown, trivial⟩
  have hknown := not_unknown_of_program? (requireProgram_eq_ok_iff.mp hprogram)
  rcases check_bind_eq_error_iff.mp h with hname | ⟨hname, h⟩
  · obtain ⟨hkind, hquotes, hinvalid⟩ := checkFieldName_refused hname
    refine ⟨?_, hquotes _⟩
    rw [hkind]
    exact ⟨hknown, fun hvalid => hinvalid ⟨hvalid.1, hvalid.2.1⟩⟩
  rcases check_bind_eq_error_iff.mp h with hfails | ⟨hrounds, h⟩
  · obtain ⟨hrounds, rfl⟩ := require_eq_error_iff.mp hfails
    refine ⟨⟨hknown, fun hvalid => ?_⟩, trivial⟩
    exact hvalid.2.2.1 (by simpa using hrounds)
  rcases check_bind_eq_error_iff.mp h with hfails | ⟨hsubtype, h⟩
  · obtain ⟨hsubtype, rfl⟩ := require_eq_error_iff.mp hfails
    refine ⟨⟨hknown, fun hvalid => ?_⟩, trivial⟩
    simp [hvalid.2.2.2.1] at hsubtype
  rcases check_bind_eq_error_iff.mp h with hfails | ⟨hnames, h⟩
  · obtain ⟨hnames, rfl⟩ := require_eq_error_iff.mp hfails
    refine ⟨⟨hknown, fun hvalid => ?_⟩, trivial⟩
    simp [hvalid.2.2.2.2] at hnames
  rcases check_bind_eq_error_iff.mp h with hfails | ⟨-, h⟩
  · obtain ⟨hfree, rfl⟩ := require_eq_error_iff.mp hfails
    obtain ⟨hblank, hcore⟩ := checkFieldName_eq_ok_iff.mp hname
    refine ⟨⟨hknown, ⟨hblank, hcore, ?_, ?_, ?_⟩,
      hasField_eq_true_iff.mp (by simpa using hfree)⟩, List.mem_singleton_self _⟩
    · simpa using require_eq_ok_iff.mp hrounds
    · simpa using require_eq_ok_iff.mp hsubtype
    · simpa using require_eq_ok_iff.mp hnames
  · cases h

/-- Registration ids are refused when one is taken, and it is quoted. -/
theorem checkNewIds_refused {input : NewHousehold} (h : s.checkNewIds input = .error failure) :
    failure.kind = .taken ∧
      failure.QuotesFrom (input.unicefId :: input.members.map NewIndividual.unicefId) ∧
      ∀ id, Operation.Repeats s (.createHousehold id input) := by
  have hrepeats : ∀ id, Operation.Repeats s (.createHousehold id input) := by
    intro id
    by_contra hnew
    simp only [Operation.Repeats, not_or, not_exists, not_and, not_not] at hnew
    obtain ⟨hhousehold, hmembers, hnodup⟩ := hnew
    rw [checkNewIds_eq_ok_iff.mpr ⟨hhousehold, hnodup, hmembers⟩] at h
    cases h
  rcases check_bind_eq_error_iff.mp h with htaken | ⟨-, hmember⟩
  · obtain ⟨-, rfl⟩ := require_eq_error_iff.mp htaken
    exact ⟨rfl, List.mem_cons_self, hrepeats⟩
  · split at hmember
    · next id hid =>
      obtain rfl := Except.error.inj hmember
      exact ⟨rfl, List.mem_cons_of_mem _ (mem_of_firstTaken? hid), hrepeats⟩
    · cases hmember

/-- A household is refused for its program, for what it states, or for an id being taken. -/
theorem createHousehold_refused (hs : s.Keyed) {id : Uuid} {input : NewHousehold}
    (h : s.createHousehold now id input = .error failure) :
    s.IsRefusal (.createHousehold id input) failure := by
  rcases bind_eq_error_iff.mp h with hprogram | ⟨program, hprogram, h⟩
  · obtain ⟨rfl, hunknown⟩ := requireProgram_refused hprogram
    exact ⟨hunknown, trivial⟩
  have hfound := requireProgram_eq_ok_iff.mp hprogram
  have hknown := not_unknown_of_program? hfound
  obtain ⟨hmem, rfl⟩ := mem_of_program? hfound
  rcases bind_eq_error_iff.mp h with hcheck | ⟨headIndex, hcheck, h⟩
  · have hinvalid : ¬ Operation.IsValid s (.createHousehold program.id input) := by
      intro hvalid
      obtain ⟨headIndex, hpasses⟩ := hvalid program hmem rfl
      rw [hpasses] at hcheck
      cases hcheck
    rcases NewHousehold.check_eq_error hcheck with hrefusal | ⟨heads, rfl⟩
    · obtain ⟨hkind, hquotes⟩ := refusals_quote hrefusal
      refine ⟨?_, hquotes _⟩
      rw [hkind]
      exact ⟨hknown, hinvalid⟩
    · exact ⟨⟨hknown, hinvalid⟩, trivial⟩
  have hvalid : Operation.IsValid s (.createHousehold program.id input) := by
    intro p hp hid
    obtain rfl := List.inj_on_of_nodup_map hs.programs hp hmem hid
    exact ⟨headIndex, hcheck⟩
  rcases check_bind_eq_error_iff.mp h with hnew | ⟨-, h⟩
  · obtain ⟨hkind, hquotes, hrepeats⟩ := checkNewIds_refused hnew
    refine ⟨?_, hquotes⟩
    rw [hkind]
    exact ⟨hknown, hvalid, hrepeats _⟩
  · cases h

/-- The periodic fields for an individual are those of the program in which it is registered. -/
theorem isRoundField_iff (hs : s.Keyed) {i : Individual} (hi : i ∈ s.individuals) {name : String}
    {field : PeriodicField} :
    s.IsRoundField i.id name field ↔ field ∈ s.periodicFieldsFor i ∧ field.name = name := by
  have hmem : ∀ {h : Household}, h ∈ s.households → h.id = i.householdId →
      (field ∈ s.periodicFieldsFor i ↔
        field ∈ s.periodicFields ∧ field.programId = h.programId) := by
    intro h hh hid
    rw [periodicFieldsFor, ← hid, hs.household?_eq_some hh]
    simp only [periodicFieldsOf, mem_sortedBy, List.mem_filter, beq_iff_eq]
  constructor
  · rintro ⟨hfield, hname, j, hj, hid, h, hh, hhousehold, hprogram⟩
    obtain rfl := List.inj_on_of_nodup_map hs.individuals hj hi hid
    exact ⟨(hmem hh hhousehold).mpr ⟨hfield, hprogram.symm⟩, hname⟩
  · rintro ⟨hfield, hname⟩
    cases hfound : s.household? i.householdId with
    | none =>
      rw [periodicFieldsFor, hfound] at hfield
      cases hfield
    | some h =>
      have hh : h ∈ s.households := List.mem_of_find?_eq_some hfound
      have hid : h.id = i.householdId := by simpa [household?] using List.find?_some hfound
      obtain ⟨hregistered, hprogram⟩ := (hmem hh hid).mp hfield
      exact ⟨hregistered, hname, i, hi, rfl, h, hh, hid, hprogram.symm⟩

/-- A round that passes its check is one of a periodic field for its individual. -/
theorem exists_isRoundField {id : Uuid} {i : Individual} (hi : s.individual? id = some i)
    {field : String} {round : UInt32} (h : s.checkRound i field round = .ok ()) :
    ∃ f, s.IsRoundField id field f := by
  obtain ⟨household, f, hhousehold, hf, hprogram, hname, -⟩ := exists_field_of_checkRound h
  obtain ⟨hmem, hid⟩ := mem_of_individual? hi
  refine ⟨f, hf, hname, i, hmem, hid, household, List.mem_of_find?_eq_some hhousehold, ?_,
    hprogram.symm⟩
  simpa using List.find?_some hhousehold

/-- A round is refused when its field is unknown, describes households, or has no such round. -/
theorem recordRound_refused (hs : s.Keyed) {id : Uuid} {input : NewRoundValue}
    (h : s.recordRound id input = .error failure) :
    s.IsRefusal (.recordRound id input) failure := by
  unfold recordRound at h
  split at h
  · cases h
  · next i hfound =>
    obtain ⟨hi, rfl⟩ := mem_of_individual? hfound
    rcases check_bind_eq_error_iff.mp h with hround | ⟨-, h⟩
    · unfold checkRound at hround
      split at hround
      · next hnone =>
        obtain rfl := Except.error.inj hround
        refine ⟨fun field hfield => ?_, trivial⟩
        obtain ⟨hmem, hname⟩ := (isRoundField_iff hs hi).mp hfield
        have hne := List.find?_eq_none.mp hnone field hmem
        rw [beq_iff_eq] at hne
        exact hne hname
      · next field hfield =>
        have hname : field.name = input.field := by simpa using List.find?_some hfield
        have hround' : s.IsRoundField i.id input.field field :=
          (isRoundField_iff hs hi).mpr ⟨List.mem_of_find?_eq_some hfield, hname⟩
        have hknown : ¬ Operation.NamesUnknown s (.recordRound i.id input) :=
          fun hunknown => hunknown field hround'
        rcases check_bind_eq_error_iff.mp hround with hfails | ⟨-, hfails⟩
        · obtain ⟨howner, rfl⟩ := require_eq_error_iff.mp hfails
          refine ⟨⟨hknown, fun hvalid => ?_⟩, hname ▸ List.mem_singleton_self _⟩
          simp [(hvalid field hround').1] at howner
        · obtain ⟨hrange, rfl⟩ := require_eq_error_iff.mp hfails
          refine ⟨⟨hknown, fun hvalid => ?_⟩, trivial⟩
          obtain ⟨-, hzero, hle⟩ := hvalid field hround'
          simp [hzero, hle] at hrange
    · cases h

/-- Exclusions are those of a program exactly when none are stated for another mode. -/
theorem exclusionsFor_iff {program : Program} {stated : Option ExclusionSpec} :
    (∃ exclusions, exclusionsFor program stated = .ok exclusions) ↔
      ∀ spec ∈ stated, spec.mode = program.mode := by
  cases stated with
  | none => simp [exclusionsFor]
  | some spec => by_cases hmode : spec.mode = program.mode <;> simp [exclusionsFor, hmode]

/-- Exclusions are refused for their mode only. -/
theorem exclusionsFor_eq_error {program : Program} {stated : Option ExclusionSpec}
    (h : exclusionsFor program stated = .error failure) :
    failure = .otherExclusionMode program.mode := by
  unfold exclusionsFor at h
  split at h
  · cases h
  · split at h
    · cases h
    · exact (Except.error.inj h).symm

private theorem isValid_targeting_iff (hs : s.Keyed) {program : Program}
    (hmem : program ∈ s.programs) {request : TargetingRequest} {asOf : Date} :
    Operation.IsValid s (.validate program.id request asOf) ↔
      ∃ exclusions, exclusionsFor program request.exclusions = .ok exclusions := by
  rw [exclusionsFor_iff]
  constructor
  · intro hvalid
    exact hvalid program hmem rfl
  · intro hmode p hp hid
    obtain rfl := List.inj_on_of_nodup_map hs.programs hp hmem hid
    exact hmode

/-- Targeting is refused for the program, for the mode of the exclusions, or for the criteria. -/
theorem compileTargeting_refused (hs : s.Keyed) {id : Uuid} {request : TargetingRequest}
    {asOf : Date} (h : s.compileTargeting id request asOf = .error failure) :
    s.IsRefusal (.validate id request asOf) failure := by
  rcases bind_eq_error_iff.mp h with hprogram | ⟨program, hprogram, h⟩
  · obtain ⟨rfl, hunknown⟩ := requireProgram_refused hprogram
    exact ⟨hunknown, trivial⟩
  have hfound := requireProgram_eq_ok_iff.mp hprogram
  have hknown := not_unknown_of_program? hfound
  obtain ⟨hmem, rfl⟩ := mem_of_program? hfound
  rcases bind_eq_error_iff.mp h with hmode | ⟨exclusions, hmode, h⟩
  · obtain rfl := exclusionsFor_eq_error hmode
    refine ⟨⟨hknown, fun hvalid => ?_⟩, trivial⟩
    obtain ⟨exclusions, hexclusions⟩ := (isValid_targeting_iff hs hmem).mp hvalid
    rw [hexclusions] at hmode
    cases hmode
  · have hvalid : Operation.IsValid s (.validate program.id request asOf) :=
      (isValid_targeting_iff hs hmem).mpr ⟨exclusions, hmode⟩
    rcases bind_eq_error_iff.mp h with hcompile | ⟨targeting, -, h⟩
    · obtain ⟨e, he, rfl⟩ := mapError_eq_error_iff.mp hcompile
      refine ⟨⟨hknown, hvalid, not_false, ?_⟩, trivial⟩
      rintro ⟨predicate, hpredicate⟩
      rw [Targeting.compile, map_eq_error_iff, hpredicate] at he
      cases he
    · cases h

/-- An operation that is refused is so for the first thing that is wrong with it. -/
theorem isRefusal_of_run (hs : s.Keyed) {operation : Operation}
    (h : s.run now operation = .error failure) : s.IsRefusal operation failure := by
  cases operation with
  | createProgram input => exact createProgram_refused (map_eq_error_iff.mp h)
  | createFlexAttribute id input => exact createFlexAttribute_refused (map_eq_error_iff.mp h)
  | createPeriodicField id input => exact createPeriodicField_refused (map_eq_error_iff.mp h)
  | createHousehold id input => exact createHousehold_refused hs (map_eq_error_iff.mp h)
  | recordRound id input => exact recordRound_refused hs (map_eq_error_iff.mp h)
  | validate id request asOf =>
    exact compileTargeting_refused hs (validate_eq_error_iff.mp (map_eq_error_iff.mp h))
  | preview id request asOf =>
    exact compileTargeting_refused hs (preview_eq_error_iff.mp (map_eq_error_iff.mp h))
  | getFieldDescriptors id =>
    rcases bind_eq_error_iff.mp (map_eq_error_iff.mp h) with hprogram | ⟨program, -, h⟩
    · obtain ⟨rfl, hunknown⟩ := requireProgram_refused hprogram
      exact ⟨hunknown, trivial⟩
    · cases h
  | _ => cases h

/-! ### Answers -/

/-- The periodic fields for an individual have distinct names. -/
theorem nodup_periodicFieldsFor (hs : s.Catalogued) (i : Individual) :
    ((s.periodicFieldsFor i).map PeriodicField.name).Nodup := by
  unfold periodicFieldsFor
  split
  · next household hfound =>
    have hdistinct := hs.distinct household.programId
    rw [registeredDescriptors, List.map_append, List.nodup_append, periodicDescriptors,
      List.map_map] at hdistinct
    exact (((sortedBy_perm _ _).map _).nodup_iff).mpr hdistinct.2.1
  · exact List.nodup_nil

private theorem isValid_recordRound (hs : s.Keyed) (hcatalogued : s.Catalogued) {i : Individual}
    (hi : i ∈ s.individuals) {input : NewRoundValue}
    (h : s.checkRound i input.field input.round = .ok ()) :
    Operation.IsValid s (.recordRound i.id input) := by
  unfold checkRound at h
  split at h
  · cases h
  · next field hfield =>
    obtain ⟨howner, hrange⟩ := check_bind_eq_ok_iff.mp h
    have howner := beq_iff_eq.mp (require_eq_ok_iff.mp howner)
    have hrange := require_eq_ok_iff.mp hrange
    rw [Bool.and_eq_true, bne_iff_ne, decide_eq_true_eq] at hrange
    intro other hother
    obtain ⟨hmem, hname⟩ := (isRoundField_iff hs hi).mp hother
    have hfound : field.name = input.field := by simpa using List.find?_some hfield
    obtain rfl := List.inj_on_of_nodup_map (nodup_periodicFieldsFor hcatalogued i) hmem
      (List.mem_of_find?_eq_some hfield) (hname.trans hfound.symm)
    exact ⟨howner, hrange⟩

private theorem targeting_answered (hs : s.Keyed) {id : Uuid} {request : TargetingRequest}
    {asOf : Date} {program : Program} {targeting : Targeting}
    (h : s.compileTargeting id request asOf = .ok (program, targeting)) :
    Operation.IsValid s (.validate id request asOf) ∧
      Operation.Compiles s (.validate id request asOf) := by
  obtain ⟨hfound, exclusions, hmode, hpredicate, -⟩ := compileTargeting_eq_ok_iff.mp h
  obtain ⟨hmem, rfl⟩ := mem_of_program? hfound
  exact ⟨(isValid_targeting_iff hs hmem).mpr ⟨exclusions, hmode⟩, _, hpredicate⟩

/-- An operation that is answered keeps the rules, takes nothing that is registered, and compiles
what it targets with. -/
theorem answered_of_run (hs : s.Keyed) (hcatalogued : s.Catalogued) {operation : Operation}
    {answer : Answer} (h : s.run now operation = .ok (answer, t)) :
    operation.IsValid s ∧ ¬ operation.Repeats s ∧ operation.Compiles s := by
  cases operation with
  | createProgram input =>
    obtain ⟨result, hcreate, -⟩ := map_eq_ok_iff.mp h
    obtain ⟨hname, -⟩ := check_bind_eq_ok_iff.mp hcreate
    exact ⟨by simpa [Operation.IsValid] using require_eq_ok_iff.mp hname, not_false, trivial⟩
  | createFlexAttribute id input =>
    obtain ⟨⟨flex, u⟩, hcreate, -⟩ := map_eq_ok_iff.mp h
    obtain ⟨-, hname, hchoices, hfree, -, -⟩ := createFlexAttribute_eq_ok_iff.mp hcreate
    obtain ⟨hblank, hcore⟩ := checkFieldName_eq_ok_iff.mp hname
    refine ⟨⟨hblank, hcore, by simpa using hchoices⟩, ?_, trivial⟩
    rintro ⟨d, hd, heq⟩
    exact hasField_eq_false_iff.mp hfree d hd heq
  | createPeriodicField id input =>
    obtain ⟨⟨field, u⟩, hcreate, -⟩ := map_eq_ok_iff.mp h
    obtain ⟨-, hname, hrounds, hsubtype, hnames, hfree, -, -⟩ :=
      createPeriodicField_eq_ok_iff.mp hcreate
    obtain ⟨hblank, hcore⟩ := checkFieldName_eq_ok_iff.mp hname
    refine ⟨⟨hblank, hcore, hrounds, hsubtype, hnames⟩, ?_, trivial⟩
    rintro ⟨d, hd, heq⟩
    exact hasField_eq_false_iff.mp hfree d hd heq
  | createHousehold id input =>
    obtain ⟨⟨record, u⟩, hcreate, -⟩ := map_eq_ok_iff.mp h
    obtain ⟨program, headIndex, hfound, hcheck, hnew, -, -⟩ := createHousehold_eq_ok_iff.mp hcreate
    obtain ⟨hhousehold, hnodup, hmembers⟩ := checkNewIds_eq_ok_iff.mp hnew
    obtain ⟨hmem, rfl⟩ := mem_of_program? hfound
    refine ⟨?_, ?_, trivial⟩
    · intro p hp hid
      obtain rfl := List.inj_on_of_nodup_map hs.programs hp hmem hid
      exact ⟨headIndex, hcheck⟩
    · rintro (⟨h, hh, heq⟩ | ⟨person, hperson, i, hi, heq⟩ | hrepeated)
      · exact hhousehold h hh heq
      · exact hmembers person hperson i hi heq
      · exact hrepeated hnodup
  | recordRound id input =>
    obtain ⟨⟨found, u⟩, hrecord, -⟩ := map_eq_ok_iff.mp h
    refine ⟨?_, not_false, trivial⟩
    rcases recordRound_eq_ok_iff.mp hrecord with ⟨hnone, -, -⟩ | ⟨i, hfound, hround, -, -⟩
    · rintro field ⟨-, -, i, hi, hid, -⟩
      exact absurd hid (individual?_eq_none_iff.mp hnone i hi)
    · obtain ⟨hi, rfl⟩ := mem_of_individual? hfound
      exact isValid_recordRound hs hcatalogued hi hround
  | validate id request asOf =>
    obtain ⟨summary, hvalidate, -⟩ := map_eq_ok_iff.mp h
    obtain ⟨program, targeting, hcompiled, -⟩ := validate_eq_ok_iff.mp hvalidate
    obtain ⟨hvalid, hcompiles⟩ := targeting_answered hs hcompiled
    exact ⟨hvalid, not_false, hcompiles⟩
  | preview id request asOf =>
    obtain ⟨preview, hpreview, -⟩ := map_eq_ok_iff.mp h
    obtain ⟨program, targeting, hcompiled, -⟩ := preview_eq_ok_iff.mp hpreview
    obtain ⟨hvalid, hcompiles⟩ := targeting_answered hs hcompiled
    exact ⟨hvalid, not_false, hcompiles⟩
  | _ => exact ⟨trivial, not_false, trivial⟩

end Store

end Beneficiary
