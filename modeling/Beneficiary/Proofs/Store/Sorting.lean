import Beneficiary.Proofs.Keys
import Beneficiary.Store.Basic

/-!
# Listings in order of a key

Listings are sorted by a text key and keep all their items. Where the keys are distinct the order is
strict, so that a listing is determined by its items and dropping some of them can come before
sorting.
-/

namespace Beneficiary

namespace Store

variable {α β : Type} {key : α → String}

/-- A sorted listing has the items that were sorted. -/
theorem sortedBy_perm (key : α → String) (items : List α) : (sortedBy key items).Perm items :=
  List.mergeSort_perm items _

/-- An item is in a sorted listing exactly when it was sorted. -/
@[simp] theorem mem_sortedBy {items : List α} {a : α} : a ∈ sortedBy key items ↔ a ∈ items :=
  (sortedBy_perm key items).mem_iff

/-- A single item is sorted. -/
@[simp] theorem sortedBy_singleton (a : α) : sortedBy key [a] = [a] :=
  List.mergeSort_singleton a

/-- A sorted listing ascends in the key. -/
theorem pairwise_sortedBy (key : α → String) (items : List α) :
    (sortedBy key items).Pairwise fun a b => key a ≤ key b := by
  have h : (sortedBy key items).Pairwise fun a b => decide (key a ≤ key b) = true := by
    refine List.pairwise_mergeSort ?_ ?_ items
    · intro a b c hab hbc
      rw [decide_eq_true_eq] at hab hbc ⊢
      exact le_trans hab hbc
    · intro a b
      simpa using le_total (key a) (key b)
  exact h.imp of_decide_eq_true

/-- Items of distinct keys ascend strictly when sorted. -/
theorem strict_sortedBy {items : List α} (h : (items.map key).Nodup) :
    (sortedBy key items).Pairwise fun a b => key a < key b := by
  have hdistinct : ((sortedBy key items).map key).Nodup :=
    ((sortedBy_perm key items).map key).nodup_iff.mpr h
  rw [List.Nodup, List.pairwise_map] at hdistinct
  exact (pairwise_sortedBy key items).imp₂ (fun _ _ hle hne => lt_of_le_of_ne hle hne) hdistinct

/-- Sorting does not depend on what items carry beside their key. -/
theorem sortedBy_map {key' : β → String} {f : α → β} (hkey : ∀ a, key' (f a) = key a)
    (items : List α) : sortedBy key' (items.map f) = (sortedBy key items).map f := by
  refine (List.map_mergeSort ?_).symm
  intro a _ b _
  rw [hkey, hkey]

/-- Items of distinct keys are determined by being sorted. -/
theorem eq_sortedBy {items sorted : List α} (hperm : sorted.Perm items)
    (hsorted : sorted.Pairwise fun a b => key a < key b) : sorted = sortedBy key items := by
  have hnodup : (items.map key).Nodup := by
    rw [← (hperm.map key).nodup_iff, List.Nodup, List.pairwise_map]
    exact hsorted.imp ne_of_lt
  refine (hperm.trans (sortedBy_perm key items).symm).eq_of_pairwise ?_ hsorted
    (strict_sortedBy hnodup)
  intro a b _ _ hab hba
  exact absurd hab (lt_asymm hba)

/-- Items of distinct keys are sorted alike, in whichever order they come. -/
theorem sortedBy_eq_of_perm {items others : List α} (h : (items.map key).Nodup)
    (hperm : items.Perm others) : sortedBy key items = sortedBy key others :=
  eq_sortedBy ((sortedBy_perm key items).trans hperm) (strict_sortedBy h)

/-- Dropping items of distinct keys from a sorted listing is sorting what is left. -/
theorem filter_sortedBy {items : List α} (h : (items.map key).Nodup) (p : α → Bool) :
    (sortedBy key items).filter p = sortedBy key (items.filter p) :=
  eq_sortedBy ((sortedBy_perm key items).filter p) ((strict_sortedBy h).filter p)

/-- Dropping items before sorting and after it is dropping both before. -/
theorem filter_sortedBy_filter {items : List α} (h : (items.map key).Nodup) (p q : α → Bool) :
    (sortedBy key (items.filter q)).filter p = sortedBy key (items.filter fun a => p a && q a) := by
  rw [filter_sortedBy (nodup_map_filter h q), List.filter_filter]

end Store

end Beneficiary
