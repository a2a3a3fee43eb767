import Beneficiary.Criteria.Comparison
import Beneficiary.Criteria.Round
import Beneficiary.Field.Core

/-!
# Predicates on household records

A predicate is criteria with every field found and every argument read. It is evaluated on a
household and its current members; a block is met by a single member, and a withdrawn member meets
none. Evaluation cannot fail.
-/

namespace Beneficiary

/-- An entity whose fields can be read. -/
class FieldSubject (α : Type) where
  /-- The value of a core field on a reference date. -/
  coreValue : α → CoreField → Date → Option Value
  /-- The program's own attributes. -/
  flexFields : α → Json.Fields

instance : FieldSubject Household where
  coreValue household field _ :=
    match field.reader with
    | .household read => read household
    | .individual _ => none
  flexFields household := household.flexFields

instance : FieldSubject Individual where
  coreValue individual field asOf :=
    match field.reader with
    | .household _ => none
    | .individual read => read individual asOf
  flexFields individual := individual.flexFields

/-- Where the value of a field is found. -/
inductive ValueSource where
  | core (field : CoreField)
  | flex (name : String) (valueType : ValueType)
  | periodic (selector : RoundSelector)

/-- One comparison on one field of one entity, ages counted on a reference date. -/
structure Atom where
  field : String
  source : ValueSource
  comparison : Comparison
  asOf : Date

namespace ValueSource

/-- The value found on an entity. -/
def read {α : Type} [FieldSubject α] (source : ValueSource) (asOf : Date) (subject : α) :
    Option Value :=
  match source with
  | core field => FieldSubject.coreValue subject field asOf
  | flex name valueType =>
    ((FieldSubject.flexFields subject).get? name).bind (Value.ofStored? valueType)
  | periodic selector => selector.read (FieldSubject.flexFields subject)

end ValueSource

namespace Atom

/-- The value that the comparison judges on an entity. -/
def value {α : Type} [FieldSubject α] (atom : Atom) (subject : α) : Option Value :=
  atom.source.read atom.asOf subject

/-- Whether the comparison holds on an entity. -/
def holds {α : Type} [FieldSubject α] (atom : Atom) (subject : α) : Bool :=
  atom.comparison.holds (atom.value subject)

end Atom

/-- Comparisons that one member must satisfy, the head alone where stated. -/
structure BlockPredicate where
  headOnly : Bool
  atoms : List Atom

namespace BlockPredicate

/-- Whether a member is current and satisfies every comparison. -/
def isMetBy (block : BlockPredicate) (member : Individual) : Bool :=
  !member.withdrawn && block.atoms.all fun atom => atom.holds member

/-- Whether the head, or some member, meets the block. -/
def holds (block : BlockPredicate) (record : HouseholdRecord) : Bool :=
  if block.headOnly then record.head?.any block.isMetBy else record.members.any block.isMetBy

end BlockPredicate

/-- Comparisons on the household, and blocks for its members. -/
structure RulePredicate where
  household : List Atom
  blocks : List BlockPredicate

namespace RulePredicate

/-- Whether all comparisons hold on the household and every block is met. -/
def holds (rule : RulePredicate) (record : HouseholdRecord) : Bool :=
  (rule.household.all fun atom => atom.holds record.household)
    && rule.blocks.all fun block => block.holds record

end RulePredicate

/-- Rules, any of which qualifies a record. -/
structure Predicate where
  rules : List RulePredicate

namespace Predicate

/-- Whether some rule qualifies the record. -/
def holds (predicate : Predicate) (record : HouseholdRecord) : Bool :=
  predicate.rules.any fun rule => rule.holds record

end Predicate

end Beneficiary
