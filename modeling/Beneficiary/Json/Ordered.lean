import Beneficiary.Json.Basic

/-!
# Ordered JSON values

Stored values have one form: in every object the names ascend strictly, so each occurs once. A
value is brought into that form by inserting its fields one after the other, the last value of a
name taking the place of earlier ones. `isOrdered_order` says that the result is in the form.
-/

namespace Beneficiary.Json

/-- Puts a value under a name: before the first greater name, or in place of an equal one. -/
def insertField (name : String) (value : Json) : List (String × Json) → List (String × Json)
  | [] => [(name, value)]
  | (other, kept) :: rest =>
    if other < name then (other, kept) :: insertField name value rest
    else if other = name then (name, value) :: rest
    else (name, value) :: (other, kept) :: rest

/-- The fields inserted in turn: ascending names, each with its last value. -/
def orderFields (fields : List (String × Json)) : List (String × Json) :=
  fields.foldl (fun known entry => insertField entry.1 entry.2 known) []

mutual

/-- The value with the names of every object ascending. -/
def order : Json → Json
  | .array items => .array (orderItems items)
  | .object fields => .object (orderFields (orderValues fields))
  | .null => .null
  | .bool b => .bool b
  | .number n => .number n
  | .string s => .string s

/-- The items, each in order. -/
def orderItems : List Json → List Json
  | [] => []
  | item :: rest => order item :: orderItems rest

/-- The fields with their values in order, the names as they stand. -/
def orderValues : List (String × Json) → List (String × Json)
  | [] => []
  | (name, value) :: rest => (name, order value) :: orderValues rest

end

mutual

/-- Names ascend strictly in every object of the value. -/
def IsOrdered : Json → Prop
  | .array items => AllOrdered items
  | .object fields => fields.Pairwise (fun a b => a.1 < b.1) ∧ ValuesOrdered fields
  | .null => True
  | .bool _ => True
  | .number _ => True
  | .string _ => True

/-- Every item is ordered. -/
def AllOrdered : List Json → Prop
  | [] => True
  | item :: rest => IsOrdered item ∧ AllOrdered rest

/-- Every named value is ordered. -/
def ValuesOrdered : List (String × Json) → Prop
  | [] => True
  | (_, value) :: rest => IsOrdered value ∧ ValuesOrdered rest

end

/-- An inserted field list holds the new field and old fields only. -/
theorem mem_insertField {name : String} {value : Json} {entry : String × Json} :
    ∀ {fields : List (String × Json)}, entry ∈ insertField name value fields →
      entry = (name, value) ∨ entry ∈ fields
  | [], h => by simpa [insertField] using h
  | (other, kept) :: rest, h => by
    unfold insertField at h
    split at h
    · rcases List.mem_cons.1 h with h | h
      · exact .inr (by simp [h])
      · exact (mem_insertField h).imp id (List.mem_cons_of_mem _)
    · split at h
      · exact (List.mem_cons.1 h).imp id (List.mem_cons_of_mem _)
      · exact List.mem_cons.1 h

/-- Insertion keeps names ascending. -/
theorem pairwise_insertField (name : String) (value : Json) :
    ∀ {fields : List (String × Json)}, fields.Pairwise (fun a b => a.1 < b.1) →
      (insertField name value fields).Pairwise (fun a b => a.1 < b.1)
  | [], _ => by simp [insertField]
  | (other, kept) :: rest, h => by
    obtain ⟨first, later⟩ := List.pairwise_cons.1 h
    unfold insertField
    split
    · refine List.pairwise_cons.2 ⟨fun entry mem => ?_, pairwise_insertField name value later⟩
      rcases mem_insertField mem with rfl | mem
      · assumption
      · exact first entry mem
    · split
      · rename_i same
        subst same
        exact List.pairwise_cons.2 ⟨first, later⟩
      · have less : name < other := Std.lt_of_le_of_ne (String.not_lt.1 ‹_›) (Ne.symm ‹_›)
        refine List.pairwise_cons.2 ⟨fun entry mem => ?_, h⟩
        rcases List.mem_cons.1 mem with rfl | mem
        · exact less
        · exact String.lt_trans less (first entry mem)

/-- A list of fields has ordered values when each of its values is ordered. -/
theorem valuesOrdered_iff : ∀ {fields : List (String × Json)},
    ValuesOrdered fields ↔ ∀ entry ∈ fields, IsOrdered entry.2
  | [] => by simp [ValuesOrdered]
  | (_, _) :: rest => by simp [ValuesOrdered, @valuesOrdered_iff rest]

/-- Insertion of an ordered value keeps the values ordered. -/
theorem valuesOrdered_insertField {name : String} {value : Json} {fields : List (String × Json)}
    (new : IsOrdered value) (old : ValuesOrdered fields) :
    ValuesOrdered (insertField name value fields) := by
  rw [valuesOrdered_iff] at old ⊢
  intro entry mem
  rcases mem_insertField mem with rfl | mem
  · exact new
  · exact old entry mem

/-- Inserting fields one after the other keeps names ascending and values ordered. -/
theorem isOrdered_foldl_insertField :
    ∀ {fields known : List (String × Json)}, ValuesOrdered fields → IsOrdered (.object known) →
      IsOrdered (.object
        (fields.foldl (fun known entry => insertField entry.1 entry.2 known) known))
  | [], _, _, old => old
  | (name, value) :: rest, known, new, old => by
    simp only [ValuesOrdered] at new
    simp only [IsOrdered] at old
    refine @isOrdered_foldl_insertField rest _ new.2 ?_
    simp only [IsOrdered]
    exact ⟨pairwise_insertField name value old.1, valuesOrdered_insertField new.1 old.2⟩

mutual

/-- A value brought into order is ordered. -/
theorem isOrdered_order : ∀ value : Json, IsOrdered (order value)
  | .null => by simp [order, IsOrdered]
  | .bool _ => by simp [order, IsOrdered]
  | .number _ => by simp [order, IsOrdered]
  | .string _ => by simp [order, IsOrdered]
  | .array items => by
    simp only [order, IsOrdered]
    exact allOrdered_orderItems items
  | .object fields => by
    simp only [order]
    exact isOrdered_foldl_insertField (valuesOrdered_orderValues fields)
      (by simp [IsOrdered, ValuesOrdered])

/-- Items brought into order are ordered. -/
theorem allOrdered_orderItems : ∀ items : List Json, AllOrdered (orderItems items)
  | [] => by simp [orderItems, AllOrdered]
  | item :: rest => by
    simp only [orderItems, AllOrdered]
    exact ⟨isOrdered_order item, allOrdered_orderItems rest⟩

/-- Named values brought into order are ordered. -/
theorem valuesOrdered_orderValues : ∀ fields : List (String × Json),
    ValuesOrdered (orderValues fields)
  | [] => by simp [orderValues, ValuesOrdered]
  | (_, value) :: rest => by
    simp only [orderValues, ValuesOrdered]
    exact ⟨isOrdered_order value, valuesOrdered_orderValues rest⟩

end

/-- A JSON value whose objects have ascending names. -/
structure Ordered where
  json : Json
  isOrdered : json.IsOrdered

namespace Ordered

/-- The ordered form of a value. -/
def of (value : Json) : Ordered := ⟨value.order, isOrdered_order value⟩

end Ordered

/-- The fields of an object with ascending names, throughout. -/
structure Fields where
  entries : List (String × Json)
  isOrdered : (Json.object entries).IsOrdered

namespace Fields

/-- No fields. -/
def empty : Fields := ⟨[], by simp [IsOrdered, ValuesOrdered]⟩

/-- The ordered form of a list of fields. -/
def of (entries : List (String × Json)) : Fields :=
  ⟨orderFields (orderValues entries), isOrdered_order (.object entries)⟩

/-- The value under a name. -/
def get? (fields : Fields) (name : String) : Option Json := fields.entries.lookup name

/-- The fields with a value put under a name. -/
def insert (fields : Fields) (name : String) (value : Ordered) : Fields :=
  ⟨insertField name value.json fields.entries, by
    have old := fields.isOrdered
    simp only [IsOrdered] at old ⊢
    exact ⟨pairwise_insertField _ _ old.1, valuesOrdered_insertField value.isOrdered old.2⟩⟩

/-- The object of these fields. -/
def toJson (fields : Fields) : Json := .object fields.entries

/-- The object of these fields, as an ordered value. -/
def toOrdered (fields : Fields) : Ordered := ⟨.object fields.entries, fields.isOrdered⟩

instance : Inhabited Fields := ⟨empty⟩

end Fields

end Beneficiary.Json
