import Beneficiary.Proofs.Criteria.Traversal

/-!
# Criteria joined

Criteria are joined by writing the rules of the one after those of the other. A rule compiles by
itself, its index being there for the place of an error only; so joined criteria compile to the
joined predicates, and an error in the rules that come second is placed that many rules later.
-/

namespace Beneficiary

/-- The rules of both criteria, the first ones first. -/
instance : Append Criteria := ⟨fun first second => { rules := first.rules ++ second.rules }⟩

/-- The rules of both predicates, the first ones first. -/
instance : Append Predicate := ⟨fun first second => { rules := first.rules ++ second.rules }⟩

/-- Joined criteria have the rules of both, the first ones first. -/
theorem Criteria.rules_append (first second : Criteria) :
    (first ++ second).rules = first.rules ++ second.rules := rfl

/-- A joined predicate holds where one of its parts does. -/
theorem Predicate.holds_append (first second : Predicate) (record : HouseholdRecord) :
    (first ++ second).holds record = (first.holds record || second.holds record) :=
  List.any_append

/-- The error, placed a number of rules later. -/
def CompileError.later (rules : Nat) (e : CompileError) : CompileError :=
  { e with location := { e.location with rule := e.location.rule + rules } }

variable (resolve : Resolver) (asOf : Date)

private theorem compileFilters_later (context : EntityKind) (index rules : Nat)
    (block : Option Nat) (filters : List Condition) :
    compileFilters resolve asOf context (fun filter => ⟨index + rules, block, filter⟩) filters =
      (compileFilters resolve asOf context (fun filter => ⟨index, block, filter⟩) filters).mapError
        (CompileError.later rules) := by
  unfold compileFilters
  rw [← traverseFrom_mapError]
  congr 1
  funext filter condition
  cases condition.compile resolve asOf context <;> rfl

private theorem block_compile_later (index rules blockIndex : Nat) (block : Block) :
    block.compile resolve asOf (index + rules) blockIndex =
      (block.compile resolve asOf index blockIndex).mapError (CompileError.later rules) := by
  unfold Block.compile
  rw [compileFilters_later]
  cases compileFilters resolve asOf _ _ block.filters <;> rfl

/-- A rule compiles alike under a later index, up to the place of its error. -/
theorem Rule.compile_later (index rules : Nat) (rule : Rule) :
    rule.compile resolve asOf (index + rules) =
      (rule.compile resolve asOf index).mapError (CompileError.later rules) := by
  have hblocks : traverseFrom 0 (Block.compile resolve asOf (index + rules)) rule.blocks =
      (traverseFrom 0 (Block.compile resolve asOf index) rule.blocks).mapError
        (CompileError.later rules) := by
    rw [← traverseFrom_mapError]
    congr 1
    funext blockIndex block
    exact block_compile_later resolve asOf index rules blockIndex block
  unfold Rule.compile
  rw [compileFilters_later, hblocks]
  cases compileFilters resolve asOf _ _ rule.householdFilters with
  | error e => rfl
  | ok household => cases traverseFrom 0 (Block.compile resolve asOf index) rule.blocks <;> rfl

/-- Joined criteria compile to the joined predicates, the first criteria before the second ones. -/
theorem Criteria.compile_append (first second : Criteria) :
    (first ++ second).compile resolve asOf =
      first.compile resolve asOf >>= fun p =>
        ((second.compile resolve asOf).mapError (CompileError.later first.rules.length)).map
          (p ++ ·) := by
  have hlater : traverseFrom (0 + first.rules.length) (Rule.compile resolve asOf) second.rules =
      (traverseFrom 0 (Rule.compile resolve asOf) second.rules).mapError
        (CompileError.later first.rules.length) := by
    rw [traverseFrom_add, ← traverseFrom_mapError]
    congr 1
    funext index rule
    exact rule.compile_later resolve asOf index first.rules.length
  unfold Criteria.compile
  rw [Criteria.rules_append, traverseFrom_append, hlater]
  cases traverseFrom 0 (Rule.compile resolve asOf) first.rules with
  | error e => rfl
  | ok rules => cases traverseFrom 0 (Rule.compile resolve asOf) second.rules <;> rfl

section Outcomes

variable {resolve asOf} {first second : Criteria}

/-- Joined criteria compile exactly when both do. -/
theorem Criteria.exists_compile_append_iff :
    (∃ p, (first ++ second).compile resolve asOf = .ok p) ↔
      (∃ p, first.compile resolve asOf = .ok p) ∧ ∃ p, second.compile resolve asOf = .ok p := by
  rw [Criteria.compile_append]
  cases first.compile resolve asOf with
  | error e => simp [bind, Except.bind]
  | ok p =>
    cases second.compile resolve asOf <;> simp [bind, Except.bind, Except.mapError, Except.map]

/-- What joined criteria compile to is the join of what they compile to. -/
theorem Criteria.compile_append_ok {p q : Predicate} (hp : first.compile resolve asOf = .ok p)
    (hq : second.compile resolve asOf = .ok q) :
    (first ++ second).compile resolve asOf = .ok (p ++ q) := by
  rw [Criteria.compile_append, hp, hq]
  rfl

/-- An error of the first criteria is that of the joined ones. -/
theorem Criteria.compile_append_error {e : CompileError}
    (he : first.compile resolve asOf = .error e) :
    (first ++ second).compile resolve asOf = .error e := by
  rw [Criteria.compile_append, he]
  rfl

/-- An error of the second criteria alone is placed after the rules of the first ones. -/
theorem Criteria.compile_append_error_later {p : Predicate} {e : CompileError}
    (hp : first.compile resolve asOf = .ok p) (he : second.compile resolve asOf = .error e) :
    (first ++ second).compile resolve asOf = .error (e.later first.rules.length) := by
  rw [Criteria.compile_append, hp, he]
  rfl

end Outcomes

end Beneficiary
