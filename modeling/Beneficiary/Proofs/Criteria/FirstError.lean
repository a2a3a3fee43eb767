import Beneficiary.Proofs.Criteria.ReferenceDate
import Beneficiary.Proofs.Criteria.Traversal

/-!
# The first wrong condition

The conditions of criteria stand in one order: rule after rule, in a rule the household filters
before the blocks, block after block, and each list in its own order. Criteria compile exactly when
each condition does on its own; otherwise the outcome is the error of the first condition that does
not, with its place. The reference date has no part in this.
-/

namespace Beneficiary

namespace Location

/-- The entity that a condition at the place is about. -/
def context (l : Location) : EntityKind :=
  match l.block with
  | none => .household
  | some _ => .individual

/-- The rank of a list of conditions in its rule: the household filters, then block after block. -/
def listRank (l : Location) : Nat :=
  match l.block with
  | none => 0
  | some block => block + 1

/-- Whether a place comes before another in the order of criteria. -/
def Precedes (a b : Location) : Prop :=
  a.rule < b.rule ∨
    a.rule = b.rule ∧
      (a.listRank < b.listRank ∨ a.listRank = b.listRank ∧ a.filter < b.filter)

/-- Household filters of one rule stand in the order of their list. -/
@[simp]
theorem household_precedes_household (rule i j : Nat) :
    Precedes ⟨rule, none, i⟩ ⟨rule, none, j⟩ ↔ i < j := by
  simp [Precedes, listRank]

/-- Household filters stand before the blocks of their rule. -/
@[simp]
theorem household_precedes_block (rule i b j : Nat) :
    Precedes ⟨rule, none, i⟩ ⟨rule, some b, j⟩ := by
  simp [Precedes, listRank]

/-- No filter of a block stands before a household filter of its rule. -/
@[simp]
theorem not_block_precedes_household (rule b i j : Nat) :
    ¬ Precedes ⟨rule, some b, i⟩ ⟨rule, none, j⟩ := by
  simp [Precedes, listRank]

/-- Filters of blocks of one rule stand block after block, in the order of each list. -/
@[simp]
theorem block_precedes_block (rule b i b' j : Nat) :
    Precedes ⟨rule, some b, i⟩ ⟨rule, some b', j⟩ ↔ b < b' ∨ b = b' ∧ i < j := by
  simp [Precedes, listRank]

end Location

/-- The condition at a place, in the rule of that place. -/
def Rule.conditionAt? (rule : Rule) (l : Location) : Option Condition :=
  match l.block with
  | none => rule.householdFilters[l.filter]?
  | some index => rule.blocks[index]?.bind fun block => block.filters[l.filter]?

/-- The condition at a place. -/
def Criteria.conditionAt? (criteria : Criteria) (l : Location) : Option Condition :=
  criteria.rules[l.rule]?.bind fun rule => rule.conditionAt? l

/-- A condition on an entity of a kind compiles on its own. -/
def Condition.Compiles (resolve : Resolver) (asOf : Date) (context : EntityKind)
    (condition : Condition) : Prop :=
  ∃ atom, condition.compile resolve asOf context = .ok atom

/-- An error in criteria is that of their first wrong condition. -/
structure CompileError.IsFirst (resolve : Resolver) (asOf : Date) (criteria : Criteria)
    (e : CompileError) : Prop where
  /-- The condition stands at the place of the error. -/
  found : criteria.conditionAt? e.location = some e.condition
  /-- The cause is the error of that condition alone. -/
  cause : e.condition.compile resolve asOf e.location.context = .error e.cause
  /-- Every condition before it compiles. -/
  earlier : ∀ l c, l.Precedes e.location → criteria.conditionAt? l = some c →
    c.Compiles resolve asOf l.context

variable {resolve : Resolver} {asOf : Date}

private theorem filter_ok_iff {context : EntityKind} {place : Nat → Location} {i : Nat}
    {c : Condition} :
    (∃ atom, ((c.compile resolve asOf context).mapError fun cause =>
        ({ cause, location := place i, condition := c } : CompileError)) = .ok atom) ↔
      c.Compiles resolve asOf context := by
  simp only [mapError_eq_ok_iff, Condition.Compiles]

private theorem compileFilters_ok_iff {context : EntityKind} (place : Nat → Location)
    {filters : List Condition} :
    (∃ atoms, compileFilters resolve asOf context place filters = .ok atoms) ↔
      ∀ (i : Nat) (c : Condition), filters[i]? = some c → c.Compiles resolve asOf context := by
  rw [compileFilters, exists_traverseFrom_eq_ok_iff]
  simp only [filter_ok_iff]

private theorem compileFilters_error_iff {context : EntityKind} {place : Nat → Location}
    {filters : List Condition} {e : CompileError} :
    compileFilters resolve asOf context place filters = .error e ↔
      ∃ i, e.location = place i ∧ filters[i]? = some e.condition ∧
        e.condition.compile resolve asOf context = .error e.cause ∧
        ∀ (j : Nat) (c : Condition), j < i → filters[j]? = some c →
          c.Compiles resolve asOf context := by
  rw [compileFilters, traverseFrom_eq_error_iff]
  simp only [filter_ok_iff, mapError_eq_error_iff, Nat.zero_add]
  constructor
  · rintro ⟨i, c, hc, ⟨cause, he, rfl⟩, hearlier⟩
    exact ⟨i, rfl, hc, he, hearlier⟩
  · rintro ⟨i, hl, hc, he, hearlier⟩
    exact ⟨i, e.condition, hc, ⟨e.cause, he, by rw [← hl]⟩, hearlier⟩

private theorem block_ok_iff {rule index : Nat} {block : Block} :
    (∃ p, block.compile resolve asOf rule index = .ok p) ↔
      ∀ (i : Nat) (c : Condition), block.filters[i]? = some c →
        c.Compiles resolve asOf .individual := by
  simp only [Block.compile, map_eq_ok_iff]
  rw [← compileFilters_ok_iff fun filter => { rule, block := some index, filter }]
  constructor
  · rintro ⟨p, atoms, h, -⟩
    exact ⟨atoms, h⟩
  · rintro ⟨atoms, h⟩
    exact ⟨_, atoms, h, rfl⟩

private theorem block_error_iff {rule index : Nat} {block : Block} {e : CompileError} :
    block.compile resolve asOf rule index = .error e ↔
      ∃ i, e.location = { rule, block := some index, filter := i } ∧
        block.filters[i]? = some e.condition ∧
        e.condition.compile resolve asOf .individual = .error e.cause ∧
        ∀ (j : Nat) (c : Condition), j < i → block.filters[j]? = some c →
          c.Compiles resolve asOf .individual := by
  rw [Block.compile, map_eq_error_iff, compileFilters_error_iff]

-- The household filters of a rule compiled, with the places of their errors.
private def householdAtoms (resolve : Resolver) (asOf : Date) (index : Nat) (rule : Rule) :
    Except CompileError (List Atom) :=
  compileFilters resolve asOf .household
    (fun filter => { rule := index, block := none, filter }) rule.householdFilters

private theorem rule_compile_eq {index : Nat} {rule : Rule} :
    rule.compile resolve asOf index =
      householdAtoms resolve asOf index rule >>= fun household =>
        traverseFrom 0 (Block.compile resolve asOf index) rule.blocks >>= fun blocks =>
          .ok { household, blocks } := rfl

private theorem rule_ok_iff {index : Nat} {rule : Rule} :
    (∃ p, rule.compile resolve asOf index = .ok p) ↔
      ∀ l c, rule.conditionAt? l = some c → c.Compiles resolve asOf l.context := by
  simp only [rule_compile_eq, bind_eq_ok_iff]
  constructor
  · rintro ⟨p, atoms, hatoms, blocks, hblocks, -⟩ ⟨r, block, filter⟩ c hc
    cases block with
    | none => exact (compileFilters_ok_iff _).mp ⟨atoms, hatoms⟩ filter c hc
    | some b =>
      obtain ⟨block, hb, hc⟩ := Option.bind_eq_some_iff.mp hc
      have hall := (exists_traverseFrom_eq_ok_iff _ _ _).mp ⟨blocks, hblocks⟩
      exact block_ok_iff.mp (hall b block hb) filter c hc
  · intro h
    obtain ⟨atoms, hatoms⟩ : ∃ atoms, householdAtoms resolve asOf index rule = .ok atoms :=
      (compileFilters_ok_iff _).mpr fun i c hc => h ⟨index, none, i⟩ c hc
    obtain ⟨blocks, hblocks⟩ :
        ∃ blocks, traverseFrom 0 (Block.compile resolve asOf index) rule.blocks = .ok blocks := by
      rw [exists_traverseFrom_eq_ok_iff]
      intro b block hb
      refine block_ok_iff.mpr fun i c hc => h ⟨index, some b, i⟩ c ?_
      exact Option.bind_eq_some_iff.mpr ⟨block, hb, hc⟩
    exact ⟨_, atoms, hatoms, blocks, hblocks, rfl⟩

private theorem rule_error_iff {index : Nat} {rule : Rule} {e : CompileError} :
    rule.compile resolve asOf index = .error e ↔
      e.location.rule = index ∧ rule.conditionAt? e.location = some e.condition ∧
        e.condition.compile resolve asOf e.location.context = .error e.cause ∧
        ∀ l c, l.rule = index → l.Precedes e.location → rule.conditionAt? l = some c →
          c.Compiles resolve asOf l.context := by
  rw [rule_compile_eq, bind_eq_error_iff, householdAtoms, compileFilters_error_iff]
  simp only [bind_eq_error_iff, traverseFrom_eq_error_iff, Nat.zero_add, block_error_iff,
    block_ok_iff, reduceCtorEq, and_false, exists_false, or_false]
  obtain ⟨cause, ⟨r, block, filter⟩, condition⟩ := e
  constructor
  · rintro (⟨i, hl, hc, he, hearlier⟩ |
      ⟨atoms, hatoms, b, block', hb, ⟨i, hl, hc, he, hsame⟩, hbefore⟩)
    · obtain ⟨rfl, rfl, rfl⟩ := Location.mk.inj hl
      refine ⟨rfl, hc, he, ?_⟩
      rintro ⟨r, block, j⟩ c rfl hlt hc
      cases block with
      | none => exact hearlier j c (by simpa using hlt) hc
      | some b => simp at hlt
    · obtain ⟨rfl, rfl, rfl⟩ := Location.mk.inj hl
      refine ⟨rfl, Option.bind_eq_some_iff.mpr ⟨block', hb, hc⟩, he, ?_⟩
      rintro ⟨r, block, j⟩ c rfl hlt hc
      cases block with
      | none => exact (compileFilters_ok_iff _).mp ⟨atoms, hatoms⟩ j c hc
      | some b' =>
        obtain ⟨other, hb', hc⟩ := Option.bind_eq_some_iff.mp hc
        rcases (Location.block_precedes_block ..).mp hlt with hless | ⟨rfl, hj⟩
        · exact hbefore b' other hless hb' j c hc
        · obtain rfl : block' = other := Option.some.inj (hb.symm.trans hb')
          exact hsame j c hj hc
  · rintro ⟨rfl, hc, he, hearlier⟩
    cases block with
    | none =>
      refine .inl ⟨filter, rfl, hc, he, ?_⟩
      intro j c hj hc
      exact hearlier ⟨r, none, j⟩ c rfl (by simpa using hj) hc
    | some b =>
      obtain ⟨block', hb, hc⟩ := Option.bind_eq_some_iff.mp hc
      obtain ⟨atoms, hatoms⟩ : ∃ atoms, householdAtoms resolve asOf r rule = .ok atoms :=
        (compileFilters_ok_iff _).mpr fun i c hc => hearlier ⟨r, none, i⟩ c rfl (by simp) hc
      refine .inr ⟨atoms, hatoms, b, block', hb, ⟨filter, rfl, hc, he, ?_⟩, ?_⟩
      · intro j c hj hc
        refine hearlier ⟨r, some b, j⟩ c rfl (by simp [hj]) ?_
        exact Option.bind_eq_some_iff.mpr ⟨block', hb, hc⟩
      · intro b' other hlt hb' j c hc
        refine hearlier ⟨r, some b', j⟩ c rfl (by simp [hlt]) ?_
        exact Option.bind_eq_some_iff.mpr ⟨other, hb', hc⟩

/-- Criteria compile exactly when each of their conditions does on its own. -/
theorem Criteria.exists_compile_eq_ok_iff (criteria : Criteria) :
    (∃ predicate, criteria.compile resolve asOf = .ok predicate) ↔
      ∀ l c, criteria.conditionAt? l = some c → c.Compiles resolve asOf l.context := by
  simp only [Criteria.compile, map_eq_ok_iff]
  constructor
  · rintro ⟨p, rules, hrules, -⟩ l c hc
    obtain ⟨rule, hr, hc⟩ := Option.bind_eq_some_iff.mp hc
    have hall := (exists_traverseFrom_eq_ok_iff _ _ _).mp ⟨rules, hrules⟩
    exact rule_ok_iff.mp (hall l.rule rule hr) l c hc
  · intro h
    obtain ⟨rules, hrules⟩ :
        ∃ rules, traverseFrom 0 (Rule.compile resolve asOf) criteria.rules = .ok rules := by
      rw [exists_traverseFrom_eq_ok_iff]
      intro r rule hr
      refine rule_ok_iff.mpr fun l c hc => h ⟨r, l.block, l.filter⟩ c ?_
      exact Option.bind_eq_some_iff.mpr ⟨rule, hr, hc⟩
    exact ⟨_, rules, hrules, rfl⟩

/-- Criteria fail exactly with the error of their first wrong condition. -/
theorem Criteria.compile_eq_error_iff (criteria : Criteria) (e : CompileError) :
    criteria.compile resolve asOf = .error e ↔ e.IsFirst resolve asOf criteria := by
  rw [Criteria.compile, map_eq_error_iff, traverseFrom_eq_error_iff]
  simp only [Nat.zero_add, rule_error_iff, rule_ok_iff]
  constructor
  · rintro ⟨r, rule, hr, ⟨rfl, hc, he, hsame⟩, hbefore⟩
    refine ⟨Option.bind_eq_some_iff.mpr ⟨rule, hr, hc⟩, he, ?_⟩
    intro l c hlt hc
    obtain ⟨other, hr', hc⟩ := Option.bind_eq_some_iff.mp hc
    by_cases hrule : l.rule = e.location.rule
    · obtain rfl : rule = other := Option.some.inj (hr.symm.trans (hrule ▸ hr'))
      exact hsame l c hrule hlt hc
    · have hlt : l.rule < e.location.rule := hlt.resolve_right fun h => hrule h.1
      exact hbefore l.rule other hlt hr' l c hc
  · rintro ⟨hc, he, hearlier⟩
    obtain ⟨rule, hr, hc⟩ := Option.bind_eq_some_iff.mp hc
    refine ⟨e.location.rule, rule, hr, ⟨rfl, hc, he, ?_⟩, ?_⟩
    · intro l c hrule hlt hc
      exact hearlier l c hlt (Option.bind_eq_some_iff.mpr ⟨rule, hrule ▸ hr, hc⟩)
    · intro r other hlt hr' l c hc
      refine hearlier ⟨r, l.block, l.filter⟩ c (.inl hlt) ?_
      exact Option.bind_eq_some_iff.mpr ⟨other, hr', hc⟩

/-- The date has no part in whether criteria compile, nor in their error. -/
theorem Criteria.outcome_eq (resolve : Resolver) (a b : Date) (criteria : Criteria) :
    (criteria.compile resolve b).map (fun _ => ()) =
      (criteria.compile resolve a).map (fun _ => ()) := by
  rw [Criteria.compile_onDate resolve a b]
  cases criteria.compile resolve a <;> rfl

/-- Compiling stops at exactly the first wrong condition. It succeeds just when every condition
compiles in the context of its place; it fails just with the error of the first condition that does
not, carrying that condition and its place; and the outcome is the same on every date. -/
theorem Criteria.compile_stops_at_first_error (schema : Schema) (criteria : Criteria)
    (asOf : Date) :
    ((∃ predicate, criteria.compile schema.resolve asOf = .ok predicate) ↔
      ∀ l c, criteria.conditionAt? l = some c → c.Compiles schema.resolve asOf l.context) ∧
    (∀ e, criteria.compile schema.resolve asOf = .error e ↔
      e.IsFirst schema.resolve asOf criteria) ∧
    ∀ other, (criteria.compile schema.resolve other).map (fun _ => ()) =
      (criteria.compile schema.resolve asOf).map (fun _ => ()) :=
  ⟨criteria.exists_compile_eq_ok_iff, criteria.compile_eq_error_iff,
    fun other => criteria.outcome_eq schema.resolve asOf other⟩

end Beneficiary
