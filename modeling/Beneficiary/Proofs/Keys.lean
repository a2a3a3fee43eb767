import Mathlib

/-!
# Items of distinct keys

Where the keys of the items in a list are distinct, a key stands for one item: it is found by the
key, and stays so while items are dropped or items of new keys are added.
-/

namespace Beneficiary

variable {α κ : Type} {key : α → κ} {items : List α}

/-- Some items have distinct keys where all do. -/
theorem nodup_map_filter (h : (items.map key).Nodup) (p : α → Bool) :
    ((items.filter p).map key).Nodup :=
  h.sublist (List.filter_sublist.map key)

/-- Items of distinct keys stay so when one of another key follows. -/
theorem nodup_map_concat {item : α} (h : (items.map key).Nodup)
    (hnew : ∀ a ∈ items, key a ≠ key item) : ((items ++ [item]).map key).Nodup := by
  rw [List.map_append, List.map_singleton, List.nodup_append]
  refine ⟨h, List.nodup_singleton _, ?_⟩
  intro a ha b hb
  obtain ⟨x, hx, rfl⟩ := List.mem_map.mp ha
  obtain rfl := List.mem_singleton.mp hb
  exact hnew x hx

/-- By its key an item is found where keys are distinct, if it passes the test that goes with the
key. -/
theorem find?_key [DecidableEq κ] (h : (items.map key).Nodup) {a : α} (ha : a ∈ items)
    (p : α → Bool) :
    items.find? (fun b => key b == key a && p b) = if p a then some a else none := by
  have hsame {b : α} (hb : b ∈ items) (hkey : (key b == key a && p b) = true) : b = a ∧ p a := by
    obtain ⟨hkey, hp⟩ := Bool.and_eq_true_iff.mp hkey
    obtain rfl := List.inj_on_of_nodup_map h hb ha (beq_iff_eq.mp hkey)
    exact ⟨rfl, hp⟩
  cases hfound : items.find? fun b => key b == key a && p b with
  | none =>
    have hnone := List.find?_eq_none.mp hfound a ha
    rw [beq_self_eq_true, Bool.true_and] at hnone
    rw [if_neg hnone]
  | some b =>
    have hpasses := List.find?_some hfound
    obtain ⟨rfl, hp⟩ := hsame (List.mem_of_find?_eq_some hfound) hpasses
    rw [if_pos hp]

/-- Where keys are distinct, the item found by a key passes a test exactly when some item of the key
does. -/
theorem any_find?_key [DecidableEq κ] (h : (items.map key).Nodup) (k : κ) (p : α → Bool) :
    (items.find? fun a => key a == k).any p = items.any fun a => key a == k && p a := by
  rw [Bool.eq_iff_iff, Option.any_eq_true, List.any_eq_true]
  constructor
  · rintro ⟨a, hfound, hp⟩
    have hkey := List.find?_some hfound
    exact ⟨a, List.mem_of_find?_eq_some hfound, Bool.and_eq_true_iff.mpr ⟨hkey, hp⟩⟩
  · rintro ⟨a, ha, hpasses⟩
    obtain ⟨hkey, hp⟩ := Bool.and_eq_true_iff.mp hpasses
    obtain rfl := beq_iff_eq.mp hkey
    exact ⟨a, by simpa using find?_key h ha fun _ => true, hp⟩

end Beneficiary
