import Beneficiary.Criteria.Error
import Beneficiary.Field.Descriptor
import Beneficiary.Field.Value
import Beneficiary.Json.Ordered

/-!
# Rounds of periodic fields

A periodic value is kept under the field's name as an object from round numbers to entries, and the
value of an entry stands under its own key. A selector names one round that the field has.
-/

namespace Beneficiary

/-- A round of a periodic field. -/
structure RoundSelector where
  field : String
  round : UInt32
  valueType : ValueType
deriving DecidableEq, Repr

/-- The key of a round's value in its entry. -/
def roundValueKey : String := "value"

/-- The key of a round's collection date in its entry. -/
def roundDateKey : String := "collection_date"

/-- The key of a round's entry. -/
def roundKey (round : UInt32) : String := Text.decimalText round.toNat

/-- The rounds of a field, for periodic fields only. -/
def FieldDescriptor.rounds? (d : FieldDescriptor) : Option PeriodicSpec :=
  if d.classification = .periodic then d.periodic else none

namespace RoundSelector

/-- The selector of a round that a condition names: the field must be periodic, a round must be
given, and the field must have it. -/
def of (d : FieldDescriptor) (round : Option UInt32) : Except ConditionError RoundSelector :=
  match d.rounds? with
  | none => .error (.classificationMismatch d.name .periodic d.classification)
  | some spec =>
    match round with
    | none => .error (.missingRound d.name)
    | some number =>
      if number = 0 ∨ spec.numberOfRounds < number then
        .error (.roundOutOfRange d.name number spec.numberOfRounds)
      else .ok { field := d.name, round := number, valueType := d.valueType }

/-- The value of the round, missing when the round was never recorded. -/
def read (selector : RoundSelector) (fields : Json.Fields) : Option Value := do
  let rounds ← fields.get? selector.field
  let entry ← rounds.field? (roundKey selector.round)
  let stored ← entry.field? roundValueKey
  Value.ofStored? selector.valueType stored

end RoundSelector

/-- The value of a round that a condition names. -/
def FieldDescriptor.roundValue (d : FieldDescriptor) (round : Option UInt32)
    (fields : Json.Fields) : Except ConditionError (Option Value) :=
  (RoundSelector.of d round).map fun selector => selector.read fields

end Beneficiary
