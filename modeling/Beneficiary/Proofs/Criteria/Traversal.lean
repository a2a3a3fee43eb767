import Beneficiary.Criteria.Compilation
import Beneficiary.Proofs.Outcome

/-!
# Traversals

A traversal applies a function to item after item, up to the first failure. It succeeds exactly when
the function succeeds on every item, and its failure is that of the first item that fails.
-/

namespace Beneficiary

variable {α β γ ε ε' : Type}

/-- A traversal of no items succeeds with no results. -/
@[simp]
theorem traverseFrom_nil (start : Nat) (f : Nat → α → Except ε β) :
    traverseFrom start f [] = .ok [] := rfl

/-- A traversal treats the first item under the index it starts from, and goes on from the next. -/
theorem traverseFrom_cons (start : Nat) (f : Nat → α → Except ε β) (a : α) (rest : List α) :
    traverseFrom start f (a :: rest) =
      f start a >>= fun first => traverseFrom (start + 1) f rest >>= fun others =>
        .ok (first :: others) := rfl

private theorem traverse_cons_ok {start : Nat} {f : Nat → α → Except ε β} {a : α} {rest : List α}
    {results : List β} :
    traverseFrom start f (a :: rest) = .ok results ↔
      ∃ first others, f start a = .ok first ∧ traverseFrom (start + 1) f rest = .ok others ∧
        results = first :: others := by
  rw [traverseFrom_cons, bind_eq_ok_iff]
  constructor
  · rintro ⟨first, hf, h⟩
    obtain ⟨others, ho, h⟩ := bind_eq_ok_iff.mp h
    exact ⟨first, others, hf, ho, (Except.ok.inj h).symm⟩
  · rintro ⟨first, others, hf, ho, rfl⟩
    exact ⟨first, hf, bind_eq_ok_iff.mpr ⟨others, ho, rfl⟩⟩

private theorem traverse_cons_error {start : Nat} {f : Nat → α → Except ε β} {a : α}
    {rest : List α} {e : ε} :
    traverseFrom start f (a :: rest) = .error e ↔
      f start a = .error e ∨
        ∃ first, f start a = .ok first ∧ traverseFrom (start + 1) f rest = .error e := by
  rw [traverseFrom_cons, bind_eq_error_iff]
  constructor
  · rintro (h | ⟨first, hf, h⟩)
    · exact .inl h
    · rcases bind_eq_error_iff.mp h with ho | ⟨others, _, h⟩
      · exact .inr ⟨first, hf, ho⟩
      · cases h
  · rintro (h | ⟨first, hf, ho⟩)
    · exact .inl h
    · exact .inr ⟨first, hf, bind_eq_error_iff.mpr (.inl ho)⟩

-- An index from `start + 1` on is the successor of an index from `start` on.
private theorem getElem?_cons_iff {P : Nat → α → Prop} {start : Nat} {a : α} {rest : List α} :
    (∀ i b, (a :: rest)[i]? = some b → P (start + i) b) ↔
      P start a ∧ ∀ i b, rest[i]? = some b → P (start + 1 + i) b := by
  constructor
  · intro h
    refine ⟨h 0 a rfl, ?_⟩
    intro i b hb
    have := h (i + 1) b hb
    rwa [show start + (i + 1) = start + 1 + i by omega] at this
  · rintro ⟨ha, hr⟩ i b hb
    cases i with
    | zero =>
      obtain rfl : a = b := Option.some.inj hb
      exact ha
    | succ i =>
      rw [show start + (i + 1) = start + 1 + i by omega]
      exact hr i b hb

/-- A traversal succeeds exactly when the function does on every item under its index. -/
theorem exists_traverseFrom_eq_ok_iff (start : Nat) (f : Nat → α → Except ε β) (items : List α) :
    (∃ results, traverseFrom start f items = .ok results) ↔
      ∀ i a, items[i]? = some a → ∃ b, f (start + i) a = .ok b := by
  induction items generalizing start with
  | nil => simp
  | cons a rest ih =>
    rw [getElem?_cons_iff (P := fun i b => ∃ c, f i b = .ok c), ← ih]
    constructor
    · rintro ⟨results, h⟩
      obtain ⟨first, others, hf, ho, -⟩ := traverse_cons_ok.mp h
      exact ⟨⟨first, hf⟩, others, ho⟩
    · rintro ⟨⟨first, hf⟩, others, ho⟩
      exact ⟨first :: others, traverse_cons_ok.mpr ⟨first, others, hf, ho, rfl⟩⟩

/-- A traversal fails exactly with the failure of the first item that fails under its index. -/
theorem traverseFrom_eq_error_iff (start : Nat) (f : Nat → α → Except ε β) (items : List α)
    (e : ε) :
    traverseFrom start f items = .error e ↔
      ∃ i a, items[i]? = some a ∧ f (start + i) a = .error e ∧
        ∀ j b, j < i → items[j]? = some b → ∃ c, f (start + j) b = .ok c := by
  induction items generalizing start with
  | nil => simp
  | cons a rest ih =>
    rw [traverse_cons_error, ih]
    constructor
    · rintro (h | ⟨first, hf, i, b, hb, he, hearlier⟩)
      · exact ⟨0, a, rfl, h, fun j b hj => absurd hj (Nat.not_lt_zero j)⟩
      · refine ⟨i + 1, b, hb, by rwa [show start + (i + 1) = start + 1 + i by omega], ?_⟩
        intro j c hj hc
        cases j with
        | zero =>
          obtain rfl : a = c := Option.some.inj hc
          exact ⟨first, hf⟩
        | succ j =>
          rw [show start + (j + 1) = start + 1 + j by omega]
          exact hearlier j c (by omega) hc
    · rintro ⟨i, b, hb, he, hearlier⟩
      cases i with
      | zero =>
        obtain rfl : a = b := Option.some.inj hb
        exact .inl he
      | succ i =>
        obtain ⟨first, hf⟩ := hearlier 0 a (by omega) rfl
        refine .inr ⟨first, hf, i, b, hb, ?_, ?_⟩
        · rwa [show start + 1 + i = start + (i + 1) by omega]
        · intro j c hj hc
          rw [show start + 1 + j = start + (j + 1) by omega]
          exact hearlier (j + 1) c (by omega) hc

/-- Every result passes a test exactly when every item has a property, if each result passes just
when its item has the property. -/
theorem all_traverseFrom_iff {start : Nat} {f : Nat → α → Except ε β} {items : List α}
    {results : List β} (test : β → Bool) (property : α → Prop)
    (h : traverseFrom start f items = .ok results)
    (hf : ∀ i a b, f i a = .ok b → (test b = true ↔ property a)) :
    results.all test = true ↔ ∀ a ∈ items, property a := by
  induction items generalizing start results with
  | nil =>
    obtain rfl : [] = results := Except.ok.inj h
    simp
  | cons a rest ih =>
    obtain ⟨first, others, hfirst, hothers, rfl⟩ := traverse_cons_ok.mp h
    rw [List.all_cons, Bool.and_eq_true, List.forall_mem_cons, hf start a first hfirst,
      ih hothers]

/-- Some result passes a test exactly when some item has a property, if each result passes just
when its item has the property. -/
theorem any_traverseFrom_iff {start : Nat} {f : Nat → α → Except ε β} {items : List α}
    {results : List β} (test : β → Bool) (property : α → Prop)
    (h : traverseFrom start f items = .ok results)
    (hf : ∀ i a b, f i a = .ok b → (test b = true ↔ property a)) :
    results.any test = true ↔ ∃ a ∈ items, property a := by
  induction items generalizing start results with
  | nil =>
    obtain rfl : [] = results := Except.ok.inj h
    simp
  | cons a rest ih =>
    obtain ⟨first, others, hfirst, hothers, rfl⟩ := traverse_cons_ok.mp h
    rw [List.any_cons, Bool.or_eq_true, hf start a first hfirst, ih hothers]
    simp only [List.mem_cons, exists_eq_or_imp]

/-- Changing each result changes the results of a traversal and none of its failures. -/
theorem traverseFrom_map (start : Nat) (f : Nat → α → Except ε β) (g : β → γ) (items : List α) :
    traverseFrom start (fun i a => (f i a).map g) items =
      (traverseFrom start f items).map (List.map g) := by
  induction items generalizing start with
  | nil => rfl
  | cons a rest ih =>
    rw [traverseFrom_cons, traverseFrom_cons, ih]
    cases f start a with
    | error e => rfl
    | ok first => cases traverseFrom (start + 1) f rest <;> rfl

/-- Changing each item before a traversal is changing what the traversal applies. -/
theorem traverseFrom_map_items (start : Nat) (f : Nat → β → Except ε γ) (g : α → β)
    (items : List α) :
    traverseFrom start f (items.map g) = traverseFrom start (fun i a => f i (g a)) items := by
  induction items generalizing start with
  | nil => rfl
  | cons a rest ih => rw [List.map_cons, traverseFrom_cons, traverseFrom_cons, ih]

/-- A traversal of two lists goes through the first and then, under later indices, the second. -/
theorem traverseFrom_append (start : Nat) (f : Nat → α → Except ε β) (items others : List α) :
    traverseFrom start f (items ++ others) =
      traverseFrom start f items >>= fun first =>
        (traverseFrom (start + items.length) f others).map (first ++ ·) := by
  induction items generalizing start with
  | nil =>
    rw [List.nil_append, traverseFrom_nil, List.length_nil, Nat.add_zero]
    cases traverseFrom start f others <;> rfl
  | cons a rest ih =>
    rw [List.cons_append, traverseFrom_cons, traverseFrom_cons, ih, List.length_cons,
      show start + (rest.length + 1) = start + 1 + rest.length by omega]
    cases f start a with
    | error e => rfl
    | ok first =>
      cases traverseFrom (start + 1) f rest with
      | error e => rfl
      | ok results => cases traverseFrom (start + 1 + rest.length) f others <;> rfl

/-- A traversal from a later index applies the function under later indices. -/
theorem traverseFrom_add (start more : Nat) (f : Nat → α → Except ε β) (items : List α) :
    traverseFrom (start + more) f items = traverseFrom start (fun i => f (i + more)) items := by
  induction items generalizing start with
  | nil => rfl
  | cons a rest ih =>
    rw [traverseFrom_cons, traverseFrom_cons, ← ih, show start + more + 1 = start + 1 + more by omega]

/-- Changing each failure changes the failure of a traversal and none of its results. -/
theorem traverseFrom_mapError (start : Nat) (f : Nat → α → Except ε β) (g : ε → ε')
    (items : List α) :
    traverseFrom start (fun i a => (f i a).mapError g) items =
      (traverseFrom start f items).mapError g := by
  induction items generalizing start with
  | nil => rfl
  | cons a rest ih =>
    rw [traverseFrom_cons, traverseFrom_cons, ih]
    cases f start a with
    | error e => rfl
    | ok first => cases traverseFrom (start + 1) f rest <;> rfl

end Beneficiary
