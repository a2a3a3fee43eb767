import Beneficiary.Proofs.Json.Fields
import Beneficiary.Proofs.Text.Numeral
import Beneficiary.Store.Changes

/-!
# Rounds among the attributes

A collected value stands under the name of its field, the number of its round and a key of its own.
Putting a round there leaves every other name, and every other round of the field, as it was; what
stands under the name and is no object holds no rounds and gives way. So rounds of different fields
or numbers can be put in either order.
-/

namespace Beneficiary

/-- Different rounds have different keys. -/
theorem roundKey_injective : Function.Injective roundKey := by
  intro a b h
  apply UInt32.toNat_inj.mp
  exact Text.decimalText_injective h

/-- The value that is kept for a round of a field. -/
def Json.Fields.round? (fields : Json.Fields) (field : String) (round : UInt32) : Option Json :=
  ((fields.get? field).bind (Json.field? (roundKey round))).bind (Json.field? roundValueKey)

/-- A selector reads the value that is kept for its round as one of its type. -/
theorem RoundSelector.read_eq (selector : RoundSelector) (fields : Json.Fields) :
    selector.read fields =
      (fields.round? selector.field selector.round).bind (Value.ofStored? selector.valueType) := by
  unfold RoundSelector.read Json.Fields.round?
  rw [Option.bind_assoc, Option.bind_assoc]
  rfl

/-- An object is a value of no field type. -/
theorem Value.ofStored?_object (type : ValueType) (entries : List (String × Json)) :
    Value.ofStored? type (.object entries) = none := by
  cases type <;> rfl

namespace NewRoundValue

variable (input other : NewRoundValue) (fields : Json.Fields)

/-- The entry of a round holds the value that was stated. -/
theorem field?_entry : Json.field? roundValueKey input.entry.json = some input.value.json := by
  have hkeys : roundValueKey ≠ roundDateKey := by decide
  simp [entry, Json.Ordered.of, Json.order, Json.orderValues, Json.orderFields, Json.field?,
    Json.lookup_insertField, Json.order_eq_self input.value.isOrdered, hkeys]

/-- The rounds of a field are what its name holds under their keys. -/
theorem get?_roundsOf (field key : String) :
    (roundsOf fields field).get? key = (fields.get? field).bind (Json.field? key) := by
  unfold roundsOf
  cases h : fields.get? field with
  | none => rfl
  | some value =>
    cases value with
    | object entries =>
      have hordered := Json.Fields.isOrdered_of_get? h
      have hof : Json.Fields.of entries = ⟨entries, hordered⟩ :=
        Json.Fields.of_entries ⟨entries, hordered⟩
      simp only [hof]
      rfl
    | _ => rfl

/-- The rounds of a field are what was put under its name. -/
theorem roundsOf_insert (field : String) (rounds : Json.Fields) :
    roundsOf (fields.insert field rounds.toOrdered) field = rounds := by
  apply Json.Fields.ext_get?
  intro key
  rw [get?_roundsOf, Json.Fields.get?_insert_self]
  rfl

/-- The rounds of a field do not depend on what is put under another name. -/
theorem roundsOf_insert_of_ne {field name : String} (value : Json.Ordered) (h : field ≠ name) :
    roundsOf (fields.insert name value) field = roundsOf fields field := by
  apply Json.Fields.ext_get?
  intro key
  rw [get?_roundsOf, get?_roundsOf, Json.Fields.get?_insert_of_ne _ _ h]

/-- The rounds of the field have the new one in addition. -/
theorem roundsOf_addTo :
    roundsOf (input.addTo fields) input.field =
      (roundsOf fields input.field).insert (roundKey input.round) input.entry := by
  rw [addTo, roundsOf_insert]

/-- The rounds of another field stay. -/
theorem roundsOf_addTo_of_ne {field : String} (h : field ≠ input.field) :
    roundsOf (input.addTo fields) field = roundsOf fields field := by
  rw [addTo, roundsOf_insert_of_ne _ _ h]

/-- Under the name of the field stands an object. -/
theorem exists_get?_addTo :
    ∃ entries, (input.addTo fields).get? input.field = some (.object entries) := by
  rw [addTo, Json.Fields.get?_insert_self]
  exact ⟨_, rfl⟩

/-- Under another name the value stays. -/
theorem get?_addTo_of_ne {name : String} (h : name ≠ input.field) :
    (input.addTo fields).get? name = fields.get? name := by
  rw [addTo, Json.Fields.get?_insert_of_ne _ _ h]

/-- The value of a round is what the rounds of the field hold. -/
theorem round?_eq_roundsOf (field : String) (round : UInt32) :
    fields.round? field round =
      ((roundsOf fields field).get? (roundKey round)).bind (Json.field? roundValueKey) := by
  rw [get?_roundsOf, Json.Fields.round?]

/-- The round holds the value that was stated. -/
theorem round?_addTo_self :
    (input.addTo fields).round? input.field input.round = some input.value.json := by
  rw [round?_eq_roundsOf, roundsOf_addTo, Json.Fields.get?_insert_self, Option.bind_some,
    field?_entry]

/-- Any other round, of this field or of another one, holds the value that it held. -/
theorem round?_addTo_of_ne {field : String} {round : UInt32}
    (h : field ≠ input.field ∨ round ≠ input.round) :
    (input.addTo fields).round? field round = fields.round? field round := by
  rw [round?_eq_roundsOf, round?_eq_roundsOf]
  by_cases hfield : field = input.field
  · have hround : round ≠ input.round := h.resolve_left (not_not_intro hfield)
    have hkey := roundKey_injective.ne hround
    rw [hfield, roundsOf_addTo, Json.Fields.get?_insert_of_ne _ _ hkey]
  · rw [roundsOf_addTo_of_ne _ _ hfield]

private theorem addTo_comm_of_field_eq (hfield : input.field = other.field)
    (hround : input.round ≠ other.round) :
    input.addTo (other.addTo fields) = other.addTo (input.addTo fields) := by
  have hkey := roundKey_injective.ne hround
  -- the second insertion under the name of the field takes the place of the first
  have hstep (first second : NewRoundValue) (hsame : first.field = second.field) :
      first.addTo (second.addTo fields) =
        fields.insert second.field
          (((roundsOf fields second.field).insert (roundKey second.round) second.entry).insert
            (roundKey first.round) first.entry).toOrdered := by
    rw [addTo, hsame, roundsOf_addTo, addTo, Json.Fields.insert_insert]
  rw [hstep input other hfield, hstep other input hfield.symm, hfield,
    Json.Fields.insert_comm _ hkey]

private theorem addTo_comm_of_field_ne (hfield : input.field ≠ other.field) :
    input.addTo (other.addTo fields) = other.addTo (input.addTo fields) := by
  rw [addTo, roundsOf_addTo_of_ne _ _ hfield, addTo, Json.Fields.insert_comm _ hfield.symm]
  symm
  rw [addTo, roundsOf_addTo_of_ne _ _ hfield.symm, addTo]

/-- Rounds of different fields or numbers can be put in either order. -/
theorem addTo_comm (h : input.field ≠ other.field ∨ input.round ≠ other.round) :
    input.addTo (other.addTo fields) = other.addTo (input.addTo fields) := by
  by_cases hfield : input.field = other.field
  · exact addTo_comm_of_field_eq _ _ _ hfield (h.resolve_left (not_not_intro hfield))
  · exact addTo_comm_of_field_ne _ _ _ hfield

end NewRoundValue

end Beneficiary
