import Beneficiary.Proofs.Criteria.Coincidence
import Beneficiary.Proofs.Targeting.Agreement
import Beneficiary.Proofs.Targeting.Verdicts

/-!
# What the reference date decides

The reference date is there to count ages on. No other core field asks for it, nor does an attribute
or a collected value, be it named like the age; and no verdict depends on it. So criteria without a
condition on the age select the same records on every date.
-/

namespace Beneficiary

/-- The condition is on the age that is counted from the birth date. -/
def Condition.CountsAge (condition : Condition) : Prop :=
  condition.classification = .core ∧ condition.field = "age"

instance (condition : Condition) : Decidable condition.CountsAge :=
  inferInstanceAs (Decidable (_ ∧ _))

/-- No condition of the criteria is on the age. -/
def Criteria.IsAgeless (criteria : Criteria) : Prop :=
  ∀ condition ∈ criteria.conditions, ¬ condition.CountsAge

instance (criteria : Criteria) : Decidable criteria.IsAgeless :=
  inferInstanceAs (Decidable (∀ condition ∈ criteria.conditions, ¬ condition.CountsAge))

/-- Of the core fields of an individual only the age depends on the date. -/
theorem CoreField.coreValue_eq_of_not_age {field : CoreField} (h : field ∈ CoreField.all)
    (hage : field.name ≠ "age") (i : Individual) (a b : Date) :
    FieldSubject.coreValue i field a = FieldSubject.coreValue i field b := by
  revert field
  simp [CoreField.all, FieldSubject.coreValue]

section Meaning

variable {fields : ProgramFields} {criteria : Criteria} {a b : Date}

/-- A condition that is not on the age holds on an individual on every date or on none. -/
theorem Condition.HoldsOn.onDate {condition : Condition} (hage : ¬ condition.CountsAge)
    {i : Individual} (h : condition.HoldsOn (Schema.ofFields fields).resolve a i) :
    condition.HoldsOn (Schema.ofFields fields).resolve b i := by
  refine h.congr ?_ rfl
  intro d field hd hcore hfound
  obtain ⟨hname, hclass⟩ := Schema.resolve_ofFields hd
  have hfield : field.name = d.name := by simpa using List.find?_some hfound
  apply CoreField.coreValue_eq_of_not_age (List.mem_of_find?_eq_some hfound)
  intro hfieldAge
  exact hage ⟨hclass.symm.trans hcore, hname.symm.trans (hfield.symm.trans hfieldAge)⟩

/-- Ageless criteria that qualify a record on one date qualify it on any other. -/
theorem Criteria.Qualifies.onDate (hage : criteria.IsAgeless) {record : HouseholdRecord}
    (h : criteria.Qualifies (Schema.ofFields fields).resolve a record) :
    criteria.Qualifies (Schema.ofFields fields).resolve b record := by
  apply h.transfer
  · intro condition _ hholds
    refine hholds.congr ?_ rfl
    -- no core field of a household is read on a date
    intro d field _ _ _
    rfl
  · intro block i hrange
    refine ⟨i, hrange, rfl, ?_⟩
    intro condition hcondition hholds
    exact hholds.onDate (hage condition hcondition)

/-- The predicate of ageless criteria holds on the same records on every date. -/
theorem Criteria.holds_onDate (hage : criteria.IsAgeless) {predicate : Predicate}
    (h : criteria.compile (Schema.ofFields fields).resolve a = .ok predicate) (b : Date)
    (record : HouseholdRecord) : (predicate.onDate b).holds record = predicate.holds record := by
  have hb : criteria.compile (Schema.ofFields fields).resolve b = .ok (predicate.onDate b) := by
    rw [compile_onDate _ a b, h]
    rfl
  rw [Bool.eq_iff_iff, Criteria.holds_iff hb, Criteria.holds_iff h]
  exact ⟨.onDate hage, .onDate hage⟩

end Meaning

namespace Targeting

variable {fields : ProgramFields} {criteria : Criteria} {exclusions : ExclusionSpec}
  {targeting : Targeting} {a b : Date}

/-- The compiled request, ages counted on another date. -/
def onDate (asOf : Date) (targeting : Targeting) : Targeting :=
  { targeting with predicate := targeting.predicate.onDate asOf }

/-- A request compiles on every date alike, up to the date that its comparisons keep. -/
theorem compile_onDate (resolve : Resolver) (criteria : Criteria) (exclusions : ExclusionSpec)
    (a b : Date) :
    compile resolve criteria exclusions b =
      (compile resolve criteria exclusions a).map (onDate b) := by
  unfold compile
  rw [Criteria.compile_onDate resolve a b]
  cases criteria.compile resolve a <;> rfl

/-- A compiled request has the predicate of its criteria. -/
theorem predicate_of_compile {resolve : Resolver}
    (h : compile resolve criteria exclusions a = .ok targeting) :
    criteria.compile resolve a = .ok targeting.predicate := by
  obtain ⟨predicate, hpredicate, rfl⟩ := map_eq_ok_iff.mp h
  exact hpredicate

/-- A compiled request of ageless criteria selects and splits records alike on every date. -/
theorem select_partition_onDate (hage : criteria.IsAgeless)
    (h : criteria.compile (Schema.ofFields fields).resolve a = .ok targeting.predicate) (b : Date)
    (records : List HouseholdRecord) :
    (targeting.onDate b).select records = targeting.select records ∧
      (targeting.onDate b).partition records = targeting.partition records := by
  apply select_partition_congr
  · rfl
  · intro record _
    exact Criteria.holds_onDate hage h b record

end Targeting

namespace Store

variable {s : Store} {programId : Uuid} {request : TargetingRequest} {preview : TargetingPreview}

/-- A request of ageless criteria that has a preview on one date has the same preview on any other,
save for the date that it states. -/
theorem preview_onDate {a : Date} (hage : request.criteria.IsAgeless)
    (h : s.preview programId request a = .ok preview) (b : Date) :
    s.preview programId request b = .ok { preview with asOf := b } := by
  obtain ⟨⟨program, targeting⟩, hcompiled, hpreview⟩ := bind_eq_ok_iff.mp h
  obtain rfl := Except.ok.inj hpreview
  obtain ⟨-, exclusions, -, hpredicate, -⟩ := compileTargeting_eq_ok_iff.mp hcompiled
  obtain ⟨-, hpartition⟩ :=
    Targeting.select_partition_onDate hage hpredicate b (s.population programId)
  have hsame : TargetingPreview.of program b (targeting.onDate b) (s.population programId) =
      { TargetingPreview.of program a targeting (s.population programId) with asOf := b } := by
    unfold TargetingPreview.of
    rw [hpartition]
  rw [preview_of_compileTargeting (compileTargeting_onDate hcompiled b)]
  exact congrArg Except.ok hsame

/-- A request is refused a preview on one date for the reason for which it is on any other. -/
theorem preview_eq_error_onDate {a : Date} {failure : Failure}
    (h : s.preview programId request a = .error failure) (b : Date) :
    s.preview programId request b = .error failure := by
  rw [preview_eq_error_iff, ← validate_eq_error_iff] at h ⊢
  rwa [validate_onDate programId request a b]

end Store

/-- The reference date matters through the age only. Criteria without a condition on the age compile
on any two dates or fail with the same error on both, against the schema of any fields; compiled,
they select and split any records alike. In any store a request of such criteria is refused on both
dates for the same reason, or has previews that list the same ids and count the same candidates. -/
theorem date_matters_through_age {criteria : Criteria} (hage : criteria.IsAgeless) (a b : Date) :
    (∀ fields exclusions,
      (∃ e,
        Targeting.compile (Schema.ofFields fields).resolve criteria exclusions a = .error e ∧
        Targeting.compile (Schema.ofFields fields).resolve criteria exclusions b = .error e) ∨
      ∃ x y,
        Targeting.compile (Schema.ofFields fields).resolve criteria exclusions a = .ok x ∧
        Targeting.compile (Schema.ofFields fields).resolve criteria exclusions b = .ok y ∧
        ∀ records, x.select records = y.select records ∧
          x.partition records = y.partition records) ∧
    ∀ (s : Store) (programId : Uuid) (exclusions : Option ExclusionSpec),
      (∃ failure,
        s.preview programId { criteria, exclusions } a = .error failure ∧
        s.preview programId { criteria, exclusions } b = .error failure) ∨
      ∃ x y,
        s.preview programId { criteria, exclusions } a = .ok x ∧
        s.preview programId { criteria, exclusions } b = .ok y ∧
        x.totalCandidates = y.totalCandidates ∧ x.matchedIds = y.matchedIds ∧
        x.excludedIds = y.excludedIds := by
  constructor
  · intro fields exclusions
    rw [Targeting.compile_onDate _ criteria exclusions a b]
    cases hcompiled : Targeting.compile (Schema.ofFields fields).resolve criteria exclusions a with
    | error e => exact .inl ⟨e, rfl, rfl⟩
    | ok targeting =>
      refine .inr ⟨targeting, targeting.onDate b, rfl, rfl, ?_⟩
      intro records
      have hpredicate := Targeting.predicate_of_compile hcompiled
      obtain ⟨hselect, hpartition⟩ :=
        Targeting.select_partition_onDate hage hpredicate b records
      exact ⟨hselect.symm, hpartition.symm⟩
  · intro s programId exclusions
    cases hpreview : s.preview programId { criteria, exclusions } a with
    | error failure => exact .inl ⟨failure, rfl, Store.preview_eq_error_onDate hpreview b⟩
    | ok preview =>
      exact .inr ⟨preview, _, rfl, Store.preview_onDate hage hpreview b, rfl, rfl, rfl⟩

/-- A date before the members of the example were born. -/
def earlyDate : Date := ⟨1980, 1, 1, by decide⟩

-- on the age the date does matter: nobody was of age then
example :
    (exampleCriteria.compile (Schema.ofFields exampleFields).resolve exampleDate).toOption.map
        (fun predicate => predicate.holds exampleRecord) = some true ∧
      (exampleCriteria.compile (Schema.ofFields exampleFields).resolve earlyDate).toOption.map
        (fun predicate => predicate.holds exampleRecord) = some false := by
  decide +kernel

/-- Fields that are named like the age and are stated, not counted. -/
def statedAgeFields : ProgramFields :=
  { flexAttributes := exampleFields.flexAttributes.map fun flex =>
      { flex with name := "age", owner := .individual, valueType := .number, choices := [] }
    periodicFields := exampleFields.periodicFields.map fun field => { field with name := "age" } }

/-- Criteria for members of a stated age, and for those who stated it in a round. -/
def statedAgeCriteria : Criteria :=
  { rules :=
      [{ householdFilters := []
         blocks :=
          [{ headOnly := false
             filters := [.flex "age" .greaterThan ["17"],
               .core "birth_date" .lessThan ["2000-01-01"]] }] },
       { householdFilters := []
         blocks := [{ headOnly := true, filters := [.periodic "age" (some 2) .equals ["20"]] }] }] }

/-- The household of the example, whose members state an age of 20. -/
def statedAgeRecord : HouseholdRecord :=
  { exampleRecord with
    members := exampleRecord.members.map fun member =>
      { member with flexFields := .of [("age", .ofInt 20)] } }

/-- Criteria for women who are the heads of displaced households. -/
def displacedWomenCriteria : Criteria :=
  { rules :=
      [{ householdFilters := [.core "residence_status" .equals ["IDP"]]
         blocks := [{ headOnly := true, filters := [.core "sex" .equals ["FEMALE"]] }] }] }

/-- A stated age is the same before birth, and so are the previews of a program on that date. -/
theorem statedAge_on_two_dates :
    statedAgeCriteria.IsAgeless ∧
      (∃ x y,
        Targeting.compile (Schema.ofFields statedAgeFields).resolve statedAgeCriteria
          { ids := [], mode := .household } exampleDate = .ok x ∧
        Targeting.compile (Schema.ofFields statedAgeFields).resolve statedAgeCriteria
          { ids := [], mode := .household } earlyDate = .ok y ∧
        x.qualifies statedAgeRecord = true ∧
        x.select [statedAgeRecord] = y.select [statedAgeRecord]) ∧
      displacedWomenCriteria.IsAgeless ∧
      ∃ x y,
        Store.exampleStore.preview (Store.idAfter 0)
          { criteria := displacedWomenCriteria, exclusions := none } exampleDate = .ok x ∧
        Store.exampleStore.preview (Store.idAfter 0)
          { criteria := displacedWomenCriteria, exclusions := none } earlyDate = .ok y ∧
        x.totalCandidates = y.totalCandidates ∧ x.matchedIds = y.matchedIds ∧
        x.excludedIds = y.excludedIds := by
  have hstated : statedAgeCriteria.IsAgeless := by decide
  have hwomen : displacedWomenCriteria.IsAgeless := by decide
  have hqualified : ((Targeting.compile (Schema.ofFields statedAgeFields).resolve statedAgeCriteria
      { ids := [], mode := .household } exampleDate).toOption.map fun x =>
        x.qualifies statedAgeRecord) = some true := by
    decide +kernel
  have haccepted : (Store.exampleStore.preview (Store.idAfter 0)
      { criteria := displacedWomenCriteria, exclusions := none } exampleDate).toOption.isSome =
        true := by
    decide +kernel
  obtain ⟨x, hx, hqualifies⟩ := Option.map_eq_some_iff.mp hqualified
  obtain ⟨p, hp⟩ := Option.isSome_iff_exists.mp haccepted
  have hx := toOption_eq_some_iff.mp hx
  have hp := toOption_eq_some_iff.mp hp
  obtain ⟨hcompiled, -⟩ := date_matters_through_age hstated exampleDate earlyDate
  obtain ⟨-, hpreviews⟩ := date_matters_through_age hwomen exampleDate earlyDate
  refine ⟨hstated, ?_, hwomen, ?_⟩
  · rcases hcompiled statedAgeFields { ids := [], mode := .household } with
      ⟨e, he, -⟩ | ⟨x', y, hx', hy, hsame⟩
    · rw [hx] at he
      cases he
    · obtain rfl : x = x' := Except.ok.inj (hx.symm.trans hx')
      exact ⟨x, y, hx, hy, hqualifies, (hsame _).1⟩
  · rcases hpreviews Store.exampleStore (Store.idAfter 0) none with
      ⟨failure, hfailure, -⟩ | ⟨p', q, hp', hq, hsame⟩
    · rw [hp] at hfailure
      cases hfailure
    · obtain rfl : p = p' := Except.ok.inj (hp.symm.trans hp')
      exact ⟨p, q, hp, hq, hsame⟩

end Beneficiary
