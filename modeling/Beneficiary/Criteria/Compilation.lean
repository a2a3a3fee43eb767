import Beneficiary.Criteria.Predicate
import Beneficiary.Criteria.Schema

/-!
# Compiling criteria

Criteria are compiled to a predicate by finding each condition's field and reading its arguments.
Conditions are taken in the order of the criteria: rule after rule, in a rule the household filters
before the blocks. The first wrong condition is the outcome, with its place.
-/

namespace Beneficiary

namespace Condition

/-- The round that a condition selects; only a condition on a periodic field may and must name
one. -/
def selector (condition : Condition) (d : FieldDescriptor) :
    Except ConditionError (Option RoundSelector) :=
  if d.classification = .periodic ∨ condition.round.isSome then
    (RoundSelector.of d condition.round).map some
  else .ok none

/-- Where the field's value is found. -/
def source (d : FieldDescriptor) : Option RoundSelector → Except ConditionError ValueSource
  | some selector => .ok (.periodic selector)
  | none =>
    if d.classification = .flex then .ok (.flex d.name d.valueType)
    else
      match CoreField.find? d.name with
      | some field => .ok (.core field)
      | none => .error (.unknownField d.name)

/-- The condition as a comparison on an entity of a kind. -/
def compile (resolve : Resolver) (asOf : Date) (context : EntityKind) (condition : Condition) :
    Except ConditionError Atom := do
  let d ← resolve condition.field condition.classification
  let selector ← condition.selector d
  if d.owner ≠ context then throw (.crossEntity d.name d.owner context)
  let source ← source d selector
  let comparison ← d.comparison condition.method condition.arguments
  return { field := d.name, source, comparison, asOf }

end Condition

/-- Applies a function to each item and its index, counted from `start`, up to the first
failure. -/
def traverseFrom {α β ε : Type} (start : Nat) (f : Nat → α → Except ε β) :
    List α → Except ε (List β)
  | [] => .ok []
  | a :: rest => do
    let first ← f start a
    let others ← traverseFrom (start + 1) f rest
    return first :: others

/-- Conditions compiled in turn, an error placed by the index of its condition. -/
def compileFilters (resolve : Resolver) (asOf : Date) (context : EntityKind)
    (place : Nat → Location) (filters : List Condition) : Except CompileError (List Atom) :=
  traverseFrom 0
    (fun index condition =>
      (condition.compile resolve asOf context).mapError fun cause =>
        { cause, location := place index, condition })
    filters

/-- The block of an index in the rule of an index. -/
def Block.compile (resolve : Resolver) (asOf : Date) (rule index : Nat) (block : Block) :
    Except CompileError BlockPredicate :=
  (compileFilters resolve asOf .individual
      (fun filter => { rule, block := some index, filter }) block.filters).map
    fun atoms => { headOnly := block.headOnly, atoms }

/-- The rule of an index: its household filters, then its blocks. -/
def Rule.compile (resolve : Resolver) (asOf : Date) (index : Nat) (rule : Rule) :
    Except CompileError RulePredicate := do
  let household ← compileFilters resolve asOf .household
    (fun filter => { rule := index, block := none, filter }) rule.householdFilters
  let blocks ← traverseFrom 0 (Block.compile resolve asOf index) rule.blocks
  return { household, blocks }

/-- The predicate of criteria, ages counted on a reference date. -/
def Criteria.compile (resolve : Resolver) (asOf : Date) (criteria : Criteria) :
    Except CompileError Predicate :=
  (traverseFrom 0 (Rule.compile resolve asOf) criteria.rules).map fun rules => { rules }

end Beneficiary
