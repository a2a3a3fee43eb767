import Beneficiary.Proofs.Criteria.Condition
import Beneficiary.Proofs.Criteria.Traversal

/-!
# The reference date of compiled criteria

A reference date is kept by each compiled comparison and has no part in compiling: criteria compile
on every date alike, up to the date that the comparisons keep.
-/

namespace Beneficiary

/-- The block, ages counted on another date. -/
def BlockPredicate.onDate (asOf : Date) (block : BlockPredicate) : BlockPredicate :=
  { block with atoms := block.atoms.map (Atom.onDate asOf) }

/-- The rule, ages counted on another date. -/
def RulePredicate.onDate (asOf : Date) (rule : RulePredicate) : RulePredicate :=
  { household := rule.household.map (Atom.onDate asOf)
    blocks := rule.blocks.map (BlockPredicate.onDate asOf) }

/-- The predicate, ages counted on another date. -/
def Predicate.onDate (asOf : Date) (predicate : Predicate) : Predicate :=
  { rules := predicate.rules.map (RulePredicate.onDate asOf) }

variable (resolve : Resolver) (a b : Date)

private theorem compileFilters_onDate (context : EntityKind) (place : Nat → Location)
    (filters : List Condition) :
    compileFilters resolve b context place filters =
      (compileFilters resolve a context place filters).map (List.map (Atom.onDate b)) := by
  unfold compileFilters
  rw [← traverseFrom_map]
  congr 1
  funext index condition
  rw [Condition.compile_onDate resolve a b]
  cases condition.compile resolve a context <;> rfl

private theorem block_compile_onDate (rule index : Nat) (block : Block) :
    block.compile resolve b rule index =
      (block.compile resolve a rule index).map (BlockPredicate.onDate b) := by
  unfold Block.compile
  rw [compileFilters_onDate resolve a b]
  cases compileFilters resolve a _ _ block.filters <;> rfl

private theorem rule_compile_onDate (index : Nat) (rule : Rule) :
    rule.compile resolve b index =
      (rule.compile resolve a index).map (RulePredicate.onDate b) := by
  have hblocks : traverseFrom 0 (Block.compile resolve b index) rule.blocks =
      (traverseFrom 0 (Block.compile resolve a index) rule.blocks).map
        (List.map (BlockPredicate.onDate b)) := by
    rw [← traverseFrom_map]
    congr 1
    funext blockIndex block
    exact block_compile_onDate resolve a b index blockIndex block
  unfold Rule.compile
  rw [compileFilters_onDate resolve a b, hblocks]
  cases compileFilters resolve a _ _ rule.householdFilters with
  | error e => rfl
  | ok household => cases traverseFrom 0 (Block.compile resolve a index) rule.blocks <;> rfl

/-- Criteria compile on every date alike, up to the date that the comparisons keep. -/
theorem Criteria.compile_onDate (criteria : Criteria) :
    criteria.compile resolve b = (criteria.compile resolve a).map (Predicate.onDate b) := by
  have hrules : traverseFrom 0 (Rule.compile resolve b) criteria.rules =
      (traverseFrom 0 (Rule.compile resolve a) criteria.rules).map
        (List.map (RulePredicate.onDate b)) := by
    rw [← traverseFrom_map]
    congr 1
    funext index rule
    exact rule_compile_onDate resolve a b index rule
  unfold Criteria.compile
  rw [hrules]
  cases traverseFrom 0 (Rule.compile resolve a) criteria.rules <;> rfl

end Beneficiary
