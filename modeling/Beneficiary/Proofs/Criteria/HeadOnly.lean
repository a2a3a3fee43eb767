import Beneficiary.Criteria.Compilation
import Beneficiary.Proofs.Criteria.Traversal

/-!
# Blocks for the head alone

Whether a block is for the head alone has no part in compiling, and matters on a record only where
the head is not the only member. So criteria that differ in these flags are accepted or refused
together, and on a person who is alone in a household they hold together.
-/

namespace Beneficiary

/-- The block, for any member. -/
def Block.ofAnyMember (block : Block) : Block := { block with headOnly := false }

/-- The rule, its blocks for any member. -/
def Rule.ofAnyMember (rule : Rule) : Rule :=
  { rule with blocks := rule.blocks.map Block.ofAnyMember }

/-- The criteria, their blocks for any member. -/
def Criteria.ofAnyMember (criteria : Criteria) : Criteria :=
  { rules := criteria.rules.map Rule.ofAnyMember }

/-- The criteria with the flag for the head turned over in the chosen blocks, each given by the
index of its rule and its index in the rule. -/
def Criteria.flipHeads (chosen : Nat → Nat → Bool) (criteria : Criteria) : Criteria :=
  { rules := criteria.rules.mapIdx fun r rule =>
      { rule with
        blocks := rule.blocks.mapIdx fun b block =>
          { block with headOnly := block.headOnly ^^ chosen r b } } }

private theorem map_mapIdx_eq {α β γ : Type} {f : Nat → α → β} {g : β → γ} {h : α → γ}
    (hf : ∀ i a, g (f i a) = h a) (items : List α) :
    (items.mapIdx f).map g = items.map h := by
  apply List.ext_getElem?
  intro i
  rw [List.getElem?_map, List.getElem?_mapIdx, List.getElem?_map, Option.map_map]
  congr 1
  funext a
  exact hf i a

/-- Criteria are the same for any member, whichever flags are turned over. -/
theorem Criteria.ofAnyMember_flipHeads (chosen : Nat → Nat → Bool) (criteria : Criteria) :
    (criteria.flipHeads chosen).ofAnyMember = criteria.ofAnyMember := by
  have hblocks (r : Nat) (rule : Rule) :
      (rule.blocks.mapIdx fun b block =>
        { block with headOnly := block.headOnly ^^ chosen r b }).map Block.ofAnyMember =
        rule.blocks.map Block.ofAnyMember := by
    apply map_mapIdx_eq
    intro b block
    rfl
  unfold ofAnyMember flipHeads
  congr 1
  apply map_mapIdx_eq
  intro r rule
  rw [Rule.ofAnyMember, hblocks, Rule.ofAnyMember]

/-- The compiled block, for any member. -/
def BlockPredicate.ofAnyMember (block : BlockPredicate) : BlockPredicate :=
  { block with headOnly := false }

/-- The compiled rule, its blocks for any member. -/
def RulePredicate.ofAnyMember (rule : RulePredicate) : RulePredicate :=
  { rule with blocks := rule.blocks.map BlockPredicate.ofAnyMember }

/-- The predicate, its blocks for any member. -/
def Predicate.ofAnyMember (predicate : Predicate) : Predicate :=
  { rules := predicate.rules.map RulePredicate.ofAnyMember }

variable (resolve : Resolver) (asOf : Date)

private theorem block_compile_ofAnyMember (rule index : Nat) (block : Block) :
    block.ofAnyMember.compile resolve asOf rule index =
      (block.compile resolve asOf rule index).map BlockPredicate.ofAnyMember := by
  unfold Block.compile Block.ofAnyMember
  dsimp only
  cases compileFilters resolve asOf _ _ block.filters <;> rfl

private theorem rule_compile_ofAnyMember (index : Nat) (rule : Rule) :
    rule.ofAnyMember.compile resolve asOf index =
      (rule.compile resolve asOf index).map RulePredicate.ofAnyMember := by
  have hblocks : traverseFrom 0 (Block.compile resolve asOf index) rule.ofAnyMember.blocks =
      (traverseFrom 0 (Block.compile resolve asOf index) rule.blocks).map
        (List.map BlockPredicate.ofAnyMember) := by
    rw [Rule.ofAnyMember, traverseFrom_map_items, ← traverseFrom_map]
    congr 1
    funext blockIndex block
    exact block_compile_ofAnyMember resolve asOf index blockIndex block
  unfold Rule.compile
  rw [hblocks, Rule.ofAnyMember]
  dsimp only
  cases compileFilters resolve asOf _ _ rule.householdFilters with
  | error e => rfl
  | ok household => cases traverseFrom 0 (Block.compile resolve asOf index) rule.blocks <;> rfl

/-- Criteria for any member compile as the criteria do, up to the flags in the predicate. -/
theorem Criteria.compile_ofAnyMember (criteria : Criteria) :
    criteria.ofAnyMember.compile resolve asOf =
      (criteria.compile resolve asOf).map Predicate.ofAnyMember := by
  have hrules : traverseFrom 0 (Rule.compile resolve asOf) criteria.ofAnyMember.rules =
      (traverseFrom 0 (Rule.compile resolve asOf) criteria.rules).map
        (List.map RulePredicate.ofAnyMember) := by
    rw [Criteria.ofAnyMember, traverseFrom_map_items, ← traverseFrom_map]
    congr 1
    funext index rule
    exact rule_compile_ofAnyMember resolve asOf index rule
  unfold Criteria.compile
  rw [hrules]
  cases traverseFrom 0 (Rule.compile resolve asOf) criteria.rules <;> rfl

variable {resolve asOf}

/-- Criteria that differ in the flags alone compile together, to predicates that do. -/
theorem Criteria.exists_compile_of_ofAnyMember_eq {criteria other : Criteria}
    (hsame : other.ofAnyMember = criteria.ofAnyMember) {predicate : Predicate}
    (h : criteria.compile resolve asOf = .ok predicate) :
    ∃ predicate', other.compile resolve asOf = .ok predicate' ∧
      predicate'.ofAnyMember = predicate.ofAnyMember := by
  have hother : (other.compile resolve asOf).map Predicate.ofAnyMember =
      .ok predicate.ofAnyMember := by
    rw [← compile_ofAnyMember, hsame, compile_ofAnyMember, h]
    rfl
  exact map_eq_ok_iff.mp hother

/-- The record has a single member, and this member is its head. -/
def HouseholdRecord.HasOnlyHead (record : HouseholdRecord) : Prop :=
  ∃ i, record.members = [i] ∧ record.head? = some i

variable {record : HouseholdRecord}

/-- A block is met by a person alone as a block for any member is. -/
theorem BlockPredicate.holds_ofAnyMember (h : record.HasOnlyHead) (block : BlockPredicate) :
    block.ofAnyMember.holds record = block.holds record := by
  obtain ⟨i, hmembers, hhead⟩ := h
  unfold holds
  rw [hmembers, hhead]
  cases block.headOnly with
  | true => exact Bool.or_false _
  | false => rfl

/-- A rule holds on a person alone as with blocks for any member. -/
theorem RulePredicate.holds_ofAnyMember (h : record.HasOnlyHead) (rule : RulePredicate) :
    rule.ofAnyMember.holds record = rule.holds record := by
  unfold holds ofAnyMember
  rw [List.all_map]
  congr 2
  funext block
  exact block.holds_ofAnyMember h

/-- A predicate holds on a person alone as with blocks for any member. -/
theorem Predicate.holds_ofAnyMember (h : record.HasOnlyHead) (predicate : Predicate) :
    predicate.ofAnyMember.holds record = predicate.holds record := by
  unfold holds ofAnyMember
  rw [List.any_map]
  congr 1
  funext rule
  exact rule.holds_ofAnyMember h

end Beneficiary
