import Beneficiary.Json.Ordered

/-!
# Equality of JSON values

Whether two values are the same is decided part by part, so that documents can be compared.
-/

namespace Beneficiary.Json

mutual

/-- Whether two values are the same. -/
def same : Json → Json → Bool
  | .null, .null => true
  | .bool a, .bool b => a == b
  | .number a, .number b => a == b
  | .string a, .string b => a == b
  | .array items, .array others => sameItems items others
  | .object fields, .object others => sameFields fields others
  | _, _ => false

/-- Whether two lists have the same items. -/
def sameItems : List Json → List Json → Bool
  | [], [] => true
  | item :: rest, other :: others => same item other && sameItems rest others
  | _, _ => false

/-- Whether two lists have the same fields. -/
def sameFields : List (String × Json) → List (String × Json) → Bool
  | [], [] => true
  | (name, value) :: rest, (other, kept) :: others =>
    name == other && same value kept && sameFields rest others
  | _, _ => false

end

mutual

/-- Values are found to be the same exactly when they are equal. -/
theorem same_iff : ∀ value other : Json, same value other = true ↔ value = other
  | .null, other => by cases other <;> simp [same]
  | .bool _, other => by cases other <;> simp [same]
  | .number _, other => by cases other <;> simp [same]
  | .string _, other => by cases other <;> simp [same]
  | .array items, other => by
    cases other with
    | array others => rw [same, sameItems_iff items others, array.injEq]
    | _ => simp [same]
  | .object fields, other => by
    cases other with
    | object others => rw [same, sameFields_iff fields others, object.injEq]
    | _ => simp [same]

/-- Items are found to be the same exactly when they are equal. -/
theorem sameItems_iff : ∀ items others : List Json, sameItems items others = true ↔ items = others
  | [], others => by cases others <;> simp [sameItems]
  | item :: rest, others => by
    cases others with
    | nil => simp [sameItems]
    | cons other others =>
      rw [sameItems, Bool.and_eq_true, same_iff item other, sameItems_iff rest others,
        List.cons.injEq]

/-- Fields are found to be the same exactly when they are equal. -/
theorem sameFields_iff : ∀ fields others : List (String × Json),
    sameFields fields others = true ↔ fields = others
  | [], others => by cases others <;> simp [sameFields]
  | (name, value) :: rest, others => by
    cases others with
    | nil => simp [sameFields]
    | cons other others =>
      rw [sameFields, Bool.and_eq_true, Bool.and_eq_true, beq_iff_eq, same_iff value other.2,
        sameFields_iff rest others, List.cons.injEq, Prod.ext_iff]

end

instance : DecidableEq Json := fun value other =>
  decidable_of_iff (same value other = true) (same_iff value other)

instance : DecidableEq Fields := fun fields others =>
  decidable_of_iff (fields.entries = others.entries) (by cases fields; cases others; simp)

end Beneficiary.Json
