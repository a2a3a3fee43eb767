import Beneficiary.Proofs.Criteria.Condition
import Beneficiary.Proofs.Criteria.Traversal

/-!
# Compiling against more fields

When further fields become known, an outcome may be revised only where it was that a field is
unknown. Every other outcome stands: a sequence of steps and a traversal stand where each of their
steps does, so criteria that were accepted compile to the same predicate, and criteria that were
refused for another reason are refused for the same one at the same place.
-/

namespace Beneficiary

section Stands

variable {ε ε' α β : Type} {revisable : ε → Prop}

/-- The later outcome is the earlier one, unless that was an error which may be revised. -/
def Stands (revisable : ε → Prop) (earlier later : Except ε α) : Prop :=
  (∃ e, earlier = .error e ∧ revisable e) ∨ later = earlier

namespace Stands

/-- An outcome stands where nothing has changed. -/
theorem refl (outcome : Except ε α) : Stands revisable outcome outcome := .inr rfl

/-- Two steps stand where the first does and the second does on every result. -/
theorem bind {earlier later : Except ε α} {next next' : α → Except ε β}
    (h : Stands revisable earlier later) (hnext : ∀ a, Stands revisable (next a) (next' a)) :
    Stands revisable (earlier >>= next) (later >>= next') := by
  rcases h with ⟨e, rfl, he⟩ | rfl
  · exact .inl ⟨e, rfl, he⟩
  · cases later with
    | error e => exact .inr rfl
    | ok a => exact hnext a

/-- A mapped step stands where the step does. -/
theorem map {earlier later : Except ε α} (h : Stands revisable earlier later) (f : α → β) :
    Stands revisable (earlier.map f) (later.map f) := by
  rcases h with ⟨e, rfl, he⟩ | rfl
  · exact .inl ⟨e, rfl, he⟩
  · exact .refl _

/-- A step with its errors placed stands where the step does, if placing keeps apart which errors
may be revised. -/
theorem mapError {revisable' : ε' → Prop} {earlier later : Except ε α}
    (h : Stands revisable earlier later) {f : ε → ε'} (hf : ∀ e, revisable e → revisable' (f e)) :
    Stands revisable' (earlier.mapError f) (later.mapError f) := by
  rcases h with ⟨e, rfl, he⟩ | rfl
  · exact .inl ⟨f e, rfl, hf e he⟩
  · exact .refl _

/-- A traversal stands where its function does on every item. -/
theorem traverseFrom {f g : Nat → α → Except ε β} (h : ∀ i a, Stands revisable (f i a) (g i a))
    (start : Nat) (items : List α) :
    Stands revisable (traverseFrom start f items) (traverseFrom start g items) := by
  induction items generalizing start with
  | nil => exact .refl _
  | cons a rest ih =>
    rw [traverseFrom_cons, traverseFrom_cons]
    apply (h start a).bind
    intro first
    apply (ih (start + 1)).bind
    intro others
    exact .refl _

/-- A success stands. -/
theorem eq_of_ok {earlier later : Except ε α} (h : Stands revisable earlier later) {a : α}
    (ha : earlier = .ok a) : later = .ok a := by
  rcases h with ⟨e, he, -⟩ | h
  · rw [ha] at he
    cases he
  · rw [h, ha]

/-- An error that may not be revised stands. -/
theorem eq_of_error {earlier later : Except ε α} (h : Stands revisable earlier later) {e : ε}
    (he : earlier = .error e) (hfinal : ¬ revisable e) : later = .error e := by
  rcases h with ⟨e', he', hrevisable⟩ | h
  · rw [he] at he'
    obtain rfl := Except.error.inj he'
    exact absurd hrevisable hfinal
  · rw [h, he]

end Stands

end Stands

/-- The error is that no field has a name. -/
def ConditionError.IsUnknownField (e : ConditionError) : Prop := ∃ field, e = .unknownField field

/-- The second resolver answers as the first does, save that it may know more names. -/
def Resolver.Refines (resolve' resolve : Resolver) : Prop :=
  ∀ name c, Stands ConditionError.IsUnknownField (resolve name c) (resolve' name c)

section Refines

variable {resolve resolve' : Resolver} (h : resolve'.Refines resolve) (asOf : Date)

include h

/-- What a condition compiles to stands when more fields become known. -/
theorem Resolver.Refines.condition (context : EntityKind) (condition : Condition) :
    Stands ConditionError.IsUnknownField (condition.compile resolve asOf context)
      (condition.compile resolve' asOf context) := by
  rw [Condition.compile_eq, Condition.compile_eq]
  apply (h condition.field condition.classification).bind
  intro d
  exact .refl _

private theorem stands_compileFilters (context : EntityKind) (place : Nat → Location)
    (filters : List Condition) :
    Stands (fun e : CompileError => e.cause.IsUnknownField)
      (compileFilters resolve asOf context place filters)
      (compileFilters resolve' asOf context place filters) := by
  apply Stands.traverseFrom
  intro index condition
  apply (h.condition asOf context condition).mapError
  intro e he
  exact he

private theorem stands_rule (index : Nat) (rule : Rule) :
    Stands (fun e : CompileError => e.cause.IsUnknownField)
      (rule.compile resolve asOf index) (rule.compile resolve' asOf index) := by
  unfold Rule.compile
  apply (stands_compileFilters h asOf .household _ rule.householdFilters).bind
  intro household
  have hblocks : Stands (fun e : CompileError => e.cause.IsUnknownField)
      (traverseFrom 0 (Block.compile resolve asOf index) rule.blocks)
      (traverseFrom 0 (Block.compile resolve' asOf index) rule.blocks) := by
    apply Stands.traverseFrom
    intro blockIndex block
    exact (stands_compileFilters h asOf .individual _ block.filters).map _
  apply hblocks.bind
  intro blocks
  exact .refl _

/-- What criteria compile to stands when more fields become known: the same predicate, or the same
error at the same place, unless the first wrong condition named an unknown field. -/
theorem Resolver.Refines.criteria (criteria : Criteria) :
    Stands (fun e : CompileError => e.cause.IsUnknownField)
      (criteria.compile resolve asOf) (criteria.compile resolve' asOf) := by
  unfold Criteria.compile
  apply Stands.map
  apply Stands.traverseFrom
  intro index rule
  exact stands_rule h asOf index rule

end Refines

end Beneficiary
