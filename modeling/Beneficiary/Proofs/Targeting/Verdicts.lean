import Beneficiary.Proofs.Store.Growth
import Beneficiary.Proofs.Targeting.Listed

/-!
# Verdicts on a request

A request is accepted or refused by the program and its fields alone, on every date alike and before
the population is read. As fields are only ever added, a verdict lasts: an accepted request compiles
to the same predicate in every later store, and a refused one is refused for the same reason, unless
the reason was that something was not known yet.
-/

namespace Beneficiary

/-- A failure that a later store may revise: the program, or the field that the first wrong
condition names, is not known. -/
def Failure.IsRevisable : Failure → Prop
  | .unknownProgram => True
  | .criteria e => e.cause.IsUnknownField
  | _ => False

namespace Store

variable {s t : Store} {programId : Uuid} {request : TargetingRequest}

private theorem Grows.requireProgram (h : s.Grows t) (id : Uuid) :
    Stands Failure.IsRevisable (s.requireProgram id) (t.requireProgram id) := by
  cases hp : s.program? id with
  | none => exact .inl ⟨.unknownProgram, by rw [Store.requireProgram, hp], trivial⟩
  | some p =>
    right
    rw [requireProgram_eq_ok_iff.mpr hp, requireProgram_eq_ok_iff.mpr (h.program?_eq_some hp)]

/-- What a request compiles to stands while the store grows. -/
theorem Grows.compileTargeting (h : s.Grows t) (hs : s.Catalogued) (ht : t.Catalogued)
    (programId : Uuid) (request : TargetingRequest) (asOf : Date) :
    Stands Failure.IsRevisable (s.compileTargeting programId request asOf)
      (t.compileTargeting programId request asOf) := by
  unfold Store.compileTargeting
  apply (h.requireProgram programId).bind
  intro program
  apply (Stands.refl _).bind
  intro exclusions
  have hcriteria := (h.refines hs ht programId).criteria asOf request.criteria
  have htargeting : Stands Failure.IsRevisable
      ((Targeting.compile (s.schemaOf programId).resolve request.criteria exclusions asOf).mapError
        Failure.criteria)
      ((Targeting.compile (t.schemaOf programId).resolve request.criteria exclusions asOf).mapError
        Failure.criteria) := by
    apply (hcriteria.map _).mapError
    intro e he
    exact he
  apply htargeting.bind
  intro targeting
  exact .refl _

/-- The verdict on a request is the same on every date. -/
theorem validate_onDate (programId : Uuid) (request : TargetingRequest) (a b : Date) :
    s.validate programId request b = s.validate programId request a := by
  unfold validate Store.compileTargeting Targeting.compile
  simp only [Criteria.compile_onDate _ a b]
  cases s.requireProgram programId with
  | error failure => rfl
  | ok program =>
    dsimp only [bind, Except.bind]
    cases exclusionsFor program request.exclusions with
    | error failure => rfl
    | ok exclusions =>
      cases request.criteria.compile (s.schemaOf programId).resolve a with
      | error e => rfl
      | ok predicate => rfl

/-- A request is refused exactly when it does not compile. -/
theorem validate_eq_error_iff {asOf : Date} {failure : Failure} :
    s.validate programId request asOf = .error failure ↔
      s.compileTargeting programId request asOf = .error failure := by
  rw [validate, bind_eq_error_iff]
  constructor
  · rintro (h | ⟨⟨program, targeting⟩, -, h⟩)
    · exact h
    · cases h
  · exact .inl

/-- A request has no preview exactly when it does not compile. -/
theorem preview_eq_error_iff {asOf : Date} {failure : Failure} :
    s.preview programId request asOf = .error failure ↔
      s.compileTargeting programId request asOf = .error failure := by
  rw [preview, bind_eq_error_iff]
  constructor
  · rintro (h | ⟨⟨program, targeting⟩, -, h⟩)
    · exact h
    · cases h
  · exact .inl

private theorem Grows.validate_eq_error (h : s.Grows t) (hs : s.Catalogued) (ht : t.Catalogued)
    {day : Date} {failure : Failure} (hrefused : s.validate programId request day = .error failure)
    (hfinal : ¬ failure.IsRevisable) (asOf : Date) :
    t.validate programId request asOf = .error failure := by
  rw [validate_onDate programId request asOf day] at hrefused
  rw [validate_eq_error_iff] at hrefused ⊢
  exact (h.compileTargeting hs ht programId request asOf).eq_of_error hrefused hfinal

/-- The verdict on a request lasts through any further calls, on every date. A request that is
accepted stays so, with the same summary, and compiles to the same program and predicate. A refusal
for the criteria is repeated unless the first wrong condition names an unknown field, and so is a
refusal for the mode of the exclusions. A request is refused exactly when it has no preview, for the
same reason. -/
theorem verdicts_last (hs : s.Reachable) {calls : List Call}
    (hcalls : (Database.mk (some s)).after calls = ⟨some t⟩) (programId : Uuid)
    (request : TargetingRequest) (day : Date) :
    (∀ summary, s.validate programId request day = .ok summary → ∀ asOf,
      t.validate programId request asOf = .ok summary ∧
      ∃ program targeting,
        s.compileTargeting programId request asOf = .ok (program, targeting) ∧
        t.compileTargeting programId request asOf = .ok (program, targeting)) ∧
    (∀ e, s.validate programId request day = .error (.criteria e) → ¬ e.cause.IsUnknownField →
      ∀ asOf, t.validate programId request asOf = .error (.criteria e)) ∧
    (∀ mode, s.validate programId request day = .error (.otherExclusionMode mode) →
      ∀ asOf, t.validate programId request asOf = .error (.otherExclusionMode mode)) ∧
    ∀ failure, s.validate programId request day = .error failure ↔
      s.preview programId request day = .error failure := by
  have hgrows : s.Grows t := .of_after hcalls
  have ht : t.Catalogued := (hs.after hcalls).catalogued
  have hs : s.Catalogued := hs.catalogued
  refine ⟨?_, ?_, ?_, ?_⟩
  · intro summary haccepted asOf
    rw [validate_onDate programId request asOf day] at haccepted
    obtain ⟨program, targeting, hcompiled, hsummary⟩ := validate_eq_ok_iff.mp haccepted
    have hlater :=
      (hgrows.compileTargeting hs ht programId request asOf).eq_of_ok hcompiled
    exact ⟨validate_eq_ok_iff.mpr ⟨program, targeting, hlater, hsummary⟩, program, targeting,
      hcompiled, hlater⟩
  · intro e hrefused hknown
    exact hgrows.validate_eq_error hs ht hrefused hknown
  · intro mode hrefused
    exact hgrows.validate_eq_error hs ht hrefused id
  · intro failure
    rw [validate_eq_error_iff, preview_eq_error_iff]

/-- Households in tents. -/
def tentRequest : TargetingRequest :=
  { criteria :=
      { rules := [{ householdFilters := [.flex "shelter" .equals ["TENT"]], blocks := [] }] }
    exclusions := none }

/-- A periodic field declared as a flex attribute. -/
def misdeclaredCondition : Condition := .flex "muac" .equals ["110"]

/-- A request with the misdeclared field, and with a field that is not registered yet after it. -/
def misdeclaredRequest : TargetingRequest :=
  { criteria :=
      { rules := [
          { householdFilters := []
            blocks := [
              { headOnly := false
                filters := [misdeclaredCondition, .flex "height" .equals ["80"]] }] }] }
    exclusions := none }

/-- The program registers the field that was missing, and another program registers fields of the
same names the other way round. -/
def fieldCalls : List Call :=
  [ .createFlexAttribute (idAfter 0)
      { name := "height", owner := .individual, valueType := .number, label := none, choices := [] },
    .createProgram { name := "Cash", businessArea := "A", mode := none },
    .createFlexAttribute (idAfter 4) { shelter with name := "muac" },
    .createPeriodicField (idAfter 4) { armCircumference with name := "shelter" }
  ].map fun operation => { now := exampleMoment, operation }

/-- The store that the further calls leave behind. -/
def fieldStore : Store :=
  ((Database.mk (some catalogStore)).after fieldCalls).tables.getD .empty

/-- Both verdicts last while the program gains a field and another program uses the same names. -/
theorem fieldStore_verdicts :
    catalogStore.Reachable ∧ (Database.mk (some catalogStore)).after fieldCalls = ⟨some fieldStore⟩ ∧
      catalogStore.validate (idAfter 0) tentRequest exampleMoment.date =
        .ok { rules := 1, householdFilters := 1, blocks := 0, excludedIds := 0 } ∧
      fieldStore.validate (idAfter 0) tentRequest exampleMoment.date =
        .ok { rules := 1, householdFilters := 1, blocks := 0, excludedIds := 0 } ∧
      fieldStore.validate (idAfter 0) misdeclaredRequest exampleMoment.date =
        .error (.criteria
          { cause := .classificationMismatch "muac" .flex .periodic
            location := { rule := 0, block := some 0, filter := 0 }
            condition := misdeclaredCondition }) := by
  have hcalls : (Database.mk (some catalogStore)).after fieldCalls = ⟨some fieldStore⟩ := by
    obtain ⟨t, ht⟩ := exists_after_eq catalogStore fieldCalls
    rw [fieldStore, ht]
    rfl
  have haccepted : catalogStore.validate (idAfter 0) tentRequest exampleMoment.date =
      .ok { rules := 1, householdFilters := 1, blocks := 0, excludedIds := 0 } := by
    cbv
  have hrefused : catalogStore.validate (idAfter 0) misdeclaredRequest exampleMoment.date =
      .error (.criteria
        { cause := .classificationMismatch "muac" .flex .periodic
          location := { rule := 0, block := some 0, filter := 0 }
          condition := misdeclaredCondition }) := by
    cbv
  obtain ⟨hstays, -⟩ :=
    verdicts_last catalogStore_reachable hcalls (idAfter 0) tentRequest exampleMoment.date
  obtain ⟨-, hrepeats, -⟩ :=
    verdicts_last catalogStore_reachable hcalls (idAfter 0) misdeclaredRequest exampleMoment.date
  have hknown : ¬ (ConditionError.classificationMismatch "muac" .flex .periodic).IsUnknownField := by
    rintro ⟨field, hfield⟩
    cases hfield
  exact ⟨catalogStore_reachable, hcalls, haccepted, (hstays _ haccepted _).1,
    hrepeats _ hrefused hknown _⟩

end Store

end Beneficiary
