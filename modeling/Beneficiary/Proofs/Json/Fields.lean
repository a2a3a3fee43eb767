import Mathlib
import Beneficiary.Json.Ordered

/-!
# Ordered fields

Fields whose names ascend are determined by the value under each name. Inserting a field changes the
value of its name alone, so insertions under different names can be exchanged, and of two under one
name the later counts. A value that is ordered already is its own ordered form.
-/

namespace Beneficiary.Json

variable {name : String} {value : Json} {fields others : List (String × Json)}

private theorem lookup_cons_eq (name : String) (value : Json) (fields : List (String × Json))
    (other : String) :
    ((name, value) :: fields).lookup other =
      if other = name then some value else fields.lookup other := by
  rw [List.lookup_cons]
  by_cases h : other = name
  · simp [h]
  · rw [beq_false_of_ne h, if_neg h]

/-- An inserted field is found by its name, and other names as before. -/
theorem lookup_insertField (name : String) (value : Json) (fields : List (String × Json))
    (other : String) :
    (insertField name value fields).lookup other =
      if other = name then some value else fields.lookup other := by
  induction fields with
  | nil => exact lookup_cons_eq name value [] other
  | cons first rest ih =>
    obtain ⟨known, kept⟩ := first
    unfold insertField
    split
    · next hlt =>
      rw [lookup_cons_eq, lookup_cons_eq, ih]
      by_cases h : other = known
      · rw [if_pos h, if_neg (h ▸ ne_of_lt hlt), if_pos h]
      · rw [if_neg h, if_neg h]
    · split
      · next heq =>
        subst heq
        rw [lookup_cons_eq, lookup_cons_eq]
        by_cases h : other = known
        · rw [if_pos h, if_pos h]
        · rw [if_neg h, if_neg h, if_neg h]
      · exact lookup_cons_eq name value ((known, kept) :: rest) other

/-- Among ascending names a field is what its name is looked up to. -/
theorem mem_iff_lookup (h : fields.Pairwise fun a b => a.1 < b.1) :
    (name, value) ∈ fields ↔ fields.lookup name = some value := by
  induction fields with
  | nil => simp
  | cons first rest ih =>
    obtain ⟨hfirst, hrest⟩ := List.pairwise_cons.mp h
    obtain ⟨known, kept⟩ := first
    rw [List.mem_cons, Prod.mk.injEq, lookup_cons_eq, ih hrest]
    by_cases hname : name = known
    · subst hname
      have hnot : rest.lookup name ≠ some value := fun hlookup =>
        lt_irrefl name (hfirst _ ((ih hrest).mpr hlookup))
      simp [hnot, eq_comm]
    · simp [hname]

/-- Fields with ascending names are determined by the values of their names. -/
theorem eq_of_lookup (hfields : fields.Pairwise fun a b => a.1 < b.1)
    (hothers : others.Pairwise fun a b => a.1 < b.1)
    (h : ∀ name, fields.lookup name = others.lookup name) : fields = others := by
  have hnodup {entries : List (String × Json)} (hentries : entries.Pairwise fun a b => a.1 < b.1) :
      entries.Nodup := hentries.imp fun {a b} hlt heq => ne_of_lt hlt (congrArg Prod.fst heq)
  have hperm : fields.Perm others := by
    rw [List.perm_ext_iff_of_nodup (hnodup hfields) (hnodup hothers)]
    rintro ⟨name, value⟩
    rw [mem_iff_lookup hfields, mem_iff_lookup hothers, h]
  refine hperm.eq_of_pairwise ?_ hfields hothers
  intro a b _ _ hab hba
  exact absurd hab (lt_asymm hba)

/-- A name above all others goes to the end. -/
theorem insertField_eq_concat (h : ∀ entry ∈ fields, entry.1 < name) :
    insertField name value fields = fields ++ [(name, value)] := by
  induction fields with
  | nil => rfl
  | cons first rest ih =>
    obtain ⟨hfirst, hrest⟩ := List.forall_mem_cons.mp h
    rw [insertField, if_pos hfirst, ih hrest, List.cons_append]

private theorem foldl_insertField (known : List (String × Json))
    (h : (known ++ fields).Pairwise fun a b => a.1 < b.1) :
    fields.foldl (fun known entry => insertField entry.1 entry.2 known) known = known ++ fields := by
  induction fields generalizing known with
  | nil => rw [List.foldl_nil, List.append_nil]
  | cons first rest ih =>
    have hbelow : ∀ entry ∈ known, entry.1 < first.1 := fun entry hentry =>
      (List.pairwise_append.mp h).2.2 entry hentry first List.mem_cons_self
    rw [List.append_cons] at h ⊢
    rw [List.foldl_cons, insertField_eq_concat hbelow]
    exact ih _ h

/-- Ascending fields are in order. -/
theorem orderFields_eq_self (h : fields.Pairwise fun a b => a.1 < b.1) :
    orderFields fields = fields :=
  foldl_insertField [] h

mutual

/-- An ordered value is its own ordered form. -/
theorem order_eq_self : ∀ {value : Json}, IsOrdered value → order value = value
  | .null, _ => rfl
  | .bool _, _ => rfl
  | .number _, _ => rfl
  | .string _, _ => rfl
  | .array items, h => by
    simp only [IsOrdered] at h
    rw [order, orderItems_eq_self h]
  | .object fields, h => by
    simp only [IsOrdered] at h
    rw [order, orderValues_eq_self h.2, orderFields_eq_self h.1]

/-- Ordered items are their own ordered form. -/
theorem orderItems_eq_self : ∀ {items : List Json}, AllOrdered items → orderItems items = items
  | [], _ => rfl
  | _ :: _, h => by
    simp only [AllOrdered] at h
    rw [orderItems, order_eq_self h.1, orderItems_eq_self h.2]

/-- Fields of ordered values are left as they stand. -/
theorem orderValues_eq_self : ∀ {fields : List (String × Json)},
    ValuesOrdered fields → orderValues fields = fields
  | [], _ => rfl
  | (_, _) :: _, h => by
    simp only [ValuesOrdered] at h
    rw [orderValues, order_eq_self h.1, orderValues_eq_self h.2]

end

namespace Fields

/-- The names of fields ascend. -/
theorem pairwise (fields : Fields) : fields.entries.Pairwise fun a b => a.1 < b.1 := by
  have h := fields.isOrdered
  simp only [IsOrdered] at h
  exact h.1

/-- The values of fields are ordered. -/
theorem valuesOrdered (fields : Fields) : ValuesOrdered fields.entries := by
  have h := fields.isOrdered
  simp only [IsOrdered] at h
  exact h.2

/-- Fields are equal when each name has one value in both. -/
theorem ext_get? {fields others : Fields} (h : ∀ name, fields.get? name = others.get? name) :
    fields = others := by
  have hentries := eq_of_lookup fields.pairwise others.pairwise h
  cases fields
  cases others
  cases hentries
  rfl

/-- The value under a name is ordered. -/
theorem isOrdered_of_get? {fields : Fields} (h : fields.get? name = some value) :
    IsOrdered value :=
  valuesOrdered_iff.mp fields.valuesOrdered _ ((mem_iff_lookup fields.pairwise).mpr h)

/-- Fields are the ordered form of themselves. -/
theorem of_entries (fields : Fields) : of fields.entries = fields := by
  have h : orderFields (orderValues fields.entries) = fields.entries := by
    rw [orderValues_eq_self fields.valuesOrdered, orderFields_eq_self fields.pairwise]
  cases fields
  simp only [of, h]

/-- An inserted value is found by its name, and other names as before. -/
theorem get?_insert (fields : Fields) (name : String) (value : Ordered) (other : String) :
    (fields.insert name value).get? other =
      if other = name then some value.json else fields.get? other :=
  lookup_insertField name value.json fields.entries other

/-- The inserted value stands under its name. -/
@[simp] theorem get?_insert_self (fields : Fields) (name : String) (value : Ordered) :
    (fields.insert name value).get? name = some value.json := by
  rw [get?_insert, if_pos rfl]

/-- Under other names the values stay. -/
theorem get?_insert_of_ne (fields : Fields) {name other : String} (value : Ordered)
    (h : other ≠ name) : (fields.insert name value).get? other = fields.get? other := by
  rw [get?_insert, if_neg h]

/-- Of two insertions under one name the later counts. -/
theorem insert_insert (fields : Fields) (name : String) (first second : Ordered) :
    (fields.insert name first).insert name second = fields.insert name second := by
  apply ext_get?
  intro other
  rw [get?_insert, get?_insert, get?_insert]
  split <;> rfl

/-- Insertions under different names can be exchanged. -/
theorem insert_comm (fields : Fields) {name other : String} (h : name ≠ other)
    (value kept : Ordered) :
    (fields.insert name value).insert other kept = (fields.insert other kept).insert name value := by
  apply ext_get?
  intro sought
  rw [get?_insert, get?_insert, get?_insert, get?_insert]
  by_cases hname : sought = name
  · rw [if_pos hname, if_neg (hname ▸ h), if_pos hname]
  · rw [if_neg hname, if_neg hname]

end Fields

end Beneficiary.Json
