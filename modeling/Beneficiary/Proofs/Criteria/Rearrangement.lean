import Beneficiary.Proofs.Criteria.FirstError
import Beneficiary.Proofs.Criteria.Joining
import Beneficiary.Proofs.Criteria.Meaning

/-!
# Criteria rearranged and enlarged

What a rule asks for is a set of conditions on the household and a set of blocks, each of which is a
set of conditions on one member; what criteria ask for is one of a set of rules. So the order of
rules, blocks and filters, and how often they are repeated, has no part in which records match. A
rule with one more filter or block asks for more, and criteria with one more rule for less.
-/

namespace Beneficiary

/-- The items of two lists correspond: each item of the one to an item of the other, in whatever
order and however often they stand. -/
def Correspond {α : Type} (R : α → α → Prop) (items others : List α) : Prop :=
  (∀ a ∈ items, ∃ b ∈ others, R a b) ∧ ∀ b ∈ others, ∃ a ∈ items, R a b

instance {α : Type} (R : α → α → Prop) [DecidableRel R] (items others : List α) :
    Decidable (Correspond R items others) :=
  inferInstanceAs (Decidable (_ ∧ _))

/-- The filters of the block in another order, or repeated. -/
def Block.Rearranges (block other : Block) : Prop :=
  block.headOnly = other.headOnly ∧ Correspond Eq block.filters other.filters

instance : DecidableRel Block.Rearranges := fun _ _ => inferInstanceAs (Decidable (_ ∧ _))

/-- The household filters and the blocks of the rule in another order, or repeated, the blocks
rearranged themselves. -/
def Rule.Rearranges (rule other : Rule) : Prop :=
  Correspond Eq rule.householdFilters other.householdFilters ∧
    Correspond Block.Rearranges rule.blocks other.blocks

instance : DecidableRel Rule.Rearranges := fun _ _ => inferInstanceAs (Decidable (_ ∧ _))

/-- The rules of the criteria in another order, or repeated, and rearranged themselves. -/
def Criteria.Rearranges (criteria other : Criteria) : Prop :=
  Correspond Rule.Rearranges criteria.rules other.rules

instance : DecidableRel Criteria.Rearranges := fun criteria other =>
  inferInstanceAs (Decidable (Correspond Rule.Rearranges criteria.rules other.rules))

/-- A rule with one more condition on the household, with one more block, or with one more condition
in one of its blocks. -/
inductive Rule.GrowsTo : Rule → Rule → Prop where
  | householdFilter (before after : List Condition) (condition : Condition) (blocks : List Block) :
    GrowsTo { householdFilters := before ++ after, blocks }
      { householdFilters := before ++ condition :: after, blocks }
  | block (householdFilters : List Condition) (before after : List Block) (block : Block) :
    GrowsTo { householdFilters, blocks := before ++ after }
      { householdFilters, blocks := before ++ block :: after }
  | filter (householdFilters : List Condition) (before after : List Block) (headOnly : Bool)
      (front back : List Condition) (condition : Condition) :
    GrowsTo
      { householdFilters
        blocks := before ++ { headOnly, filters := front ++ back } :: after }
      { householdFilters
        blocks := before ++ { headOnly, filters := front ++ condition :: back } :: after }

/-- The block asks for no condition that the other one does not ask for. -/
def Block.Within (less more : Block) : Prop :=
  less.headOnly = more.headOnly ∧ less.filters ⊆ more.filters

/-- The rule asks for nothing that the other one does not ask for. -/
def Rule.Within (less more : Rule) : Prop :=
  less.householdFilters ⊆ more.householdFilters ∧
    ∀ block ∈ less.blocks, ∃ other ∈ more.blocks, block.Within other

/-- A block asks for no more than itself. -/
theorem Block.Within.refl (block : Block) : block.Within block := ⟨rfl, List.Subset.refl _⟩

/-- A rule asks for no more than itself. -/
theorem Rule.Within.refl (rule : Rule) : rule.Within rule :=
  ⟨List.Subset.refl _, fun block hblock => ⟨block, hblock, .refl block⟩⟩

private theorem Correspond.subset {α : Type} {items others : List α}
    (h : Correspond Eq items others) : items ⊆ others ∧ others ⊆ items := by
  constructor
  · intro a ha
    obtain ⟨b, hb, rfl⟩ := h.1 a ha
    exact hb
  · intro b hb
    obtain ⟨a, ha, rfl⟩ := h.2 b hb
    exact ha

/-- Rearranged blocks ask for the same. -/
theorem Block.Rearranges.within {block other : Block} (h : block.Rearranges other) :
    block.Within other ∧ other.Within block :=
  ⟨⟨h.1, h.2.subset.1⟩, ⟨h.1.symm, h.2.subset.2⟩⟩

/-- Rearranged rules ask for the same. -/
theorem Rule.Rearranges.within {rule other : Rule} (h : rule.Rearranges other) :
    rule.Within other ∧ other.Within rule := by
  refine ⟨⟨h.1.subset.1, ?_⟩, ⟨h.1.subset.2, ?_⟩⟩
  · intro block hblock
    obtain ⟨block', hblock', hsame⟩ := h.2.1 block hblock
    exact ⟨block', hblock', hsame.within.1⟩
  · intro block hblock
    obtain ⟨block', hblock', hsame⟩ := h.2.2 block hblock
    exact ⟨block', hblock', hsame.within.2⟩

private theorem subset_insert {α : Type} (before after : List α) (a : α) :
    before ++ after ⊆ before ++ a :: after :=
  ((List.sublist_cons_self a after).append_left before).subset

-- Where one item is replaced, each item is related to one of the new list by a reflexive relation.
private theorem exists_mem_replaced {α : Type} {R : α → α → Prop} (hrefl : ∀ a, R a a) {a b : α}
    (h : R a b) (before after : List α) :
    ∀ x ∈ before ++ a :: after, ∃ y ∈ before ++ b :: after, R x y := by
  intro x hx
  rcases List.mem_append.mp hx with hbefore | hx
  · exact ⟨x, List.mem_append_left _ hbefore, hrefl x⟩
  rcases List.mem_cons.mp hx with rfl | hafter
  · exact ⟨b, List.mem_append_right _ List.mem_cons_self, h⟩
  · exact ⟨x, List.mem_append_right _ (List.mem_cons_of_mem _ hafter), hrefl x⟩

/-- A rule asks for nothing that it does not ask for with one more filter or block. -/
theorem Rule.GrowsTo.within {less more : Rule} (h : less.GrowsTo more) : less.Within more := by
  cases h with
  | householdFilter before after condition blocks =>
    exact ⟨subset_insert before after condition, (Rule.Within.refl ⟨[], blocks⟩).2⟩
  | block filters before after block =>
    refine ⟨List.Subset.refl _, ?_⟩
    intro other hother
    exact ⟨other, subset_insert before after block hother, .refl other⟩
  | filter filters before after headOnly front back condition =>
    have hblock : Block.Within { headOnly, filters := front ++ back }
        { headOnly, filters := front ++ condition :: back } :=
      ⟨rfl, subset_insert front back condition⟩
    exact ⟨List.Subset.refl _, exists_mem_replaced Block.Within.refl hblock before after⟩

section Outcomes

variable {resolve : Resolver} {asOf : Date} {record : HouseholdRecord}

/-- A block is met where one is met that asks for more. -/
theorem Block.IsMet.of_within {less more : Block} (h : less.Within more)
    (hmet : more.IsMet resolve asOf record) : less.IsMet resolve asOf record := by
  obtain ⟨member, hrange, hcurrent, hholds⟩ := hmet
  refine ⟨member, ?_, hcurrent, fun condition hcondition => hholds condition (h.2 hcondition)⟩
  rwa [Block.InRange, h.1]

/-- A rule qualifies a record that a rule qualifies which asks for more. -/
theorem Rule.Qualifies.of_within {less more : Rule} (h : less.Within more)
    (hqualifies : more.Qualifies resolve asOf record) : less.Qualifies resolve asOf record := by
  refine ⟨fun condition hcondition => hqualifies.1 condition (h.1 hcondition), ?_⟩
  intro block hblock
  obtain ⟨other, hother, hwithin⟩ := h.2 block hblock
  exact (hqualifies.2 other hother).of_within hwithin

/-- Each condition of the rule compiles on its own. -/
def Rule.Compiles (resolve : Resolver) (asOf : Date) (rule : Rule) : Prop :=
  (∀ condition ∈ rule.householdFilters, condition.Compiles resolve asOf .household) ∧
    ∀ block ∈ rule.blocks, ∀ condition ∈ block.filters,
      condition.Compiles resolve asOf .individual

/-- The conditions of a rule compile where those of a rule do that asks for more. -/
theorem Rule.Compiles.of_within {less more : Rule} (h : less.Within more)
    (hcompiles : more.Compiles resolve asOf) : less.Compiles resolve asOf := by
  refine ⟨fun condition hcondition => hcompiles.1 condition (h.1 hcondition), ?_⟩
  intro block hblock condition hcondition
  obtain ⟨other, hother, -, hfilters⟩ := h.2 block hblock
  exact hcompiles.2 other hother condition (hfilters hcondition)

/-- Criteria compile exactly when the conditions of each rule do. -/
theorem Criteria.exists_compile_iff_rules (criteria : Criteria) :
    (∃ p, criteria.compile resolve asOf = .ok p) ↔
      ∀ rule ∈ criteria.rules, rule.Compiles resolve asOf := by
  rw [Criteria.exists_compile_eq_ok_iff]
  constructor
  · intro h rule hrule
    obtain ⟨r, hr⟩ := List.mem_iff_getElem?.mp hrule
    constructor
    · intro condition hcondition
      obtain ⟨i, hi⟩ := List.mem_iff_getElem?.mp hcondition
      exact h ⟨r, none, i⟩ condition (Option.bind_eq_some_iff.mpr ⟨rule, hr, hi⟩)
    · intro block hblock condition hcondition
      obtain ⟨b, hb⟩ := List.mem_iff_getElem?.mp hblock
      obtain ⟨i, hi⟩ := List.mem_iff_getElem?.mp hcondition
      refine h ⟨r, some b, i⟩ condition (Option.bind_eq_some_iff.mpr ⟨rule, hr, ?_⟩)
      exact Option.bind_eq_some_iff.mpr ⟨block, hb, hi⟩
  · intro h l condition hcondition
    obtain ⟨rule, hrule, hcondition⟩ := Option.bind_eq_some_iff.mp hcondition
    have hcompiles := h rule (List.mem_of_getElem? hrule)
    obtain ⟨r, block, i⟩ := l
    cases block with
    | none => exact hcompiles.1 condition (List.mem_of_getElem? hcondition)
    | some b =>
      obtain ⟨block, hblock, hcondition⟩ := Option.bind_eq_some_iff.mp hcondition
      exact hcompiles.2 block (List.mem_of_getElem? hblock) condition
        (List.mem_of_getElem? hcondition)

/-- Criteria compile when each of their rules asks for no more than some rule of criteria that
compile. -/
theorem Criteria.exists_compile_of_within {criteria other : Criteria} {p : Predicate}
    (hp : criteria.compile resolve asOf = .ok p)
    (h : ∀ rule ∈ other.rules, ∃ rule' ∈ criteria.rules, rule.Within rule') :
    ∃ q, other.compile resolve asOf = .ok q := by
  rw [exists_compile_iff_rules]
  intro rule hrule
  obtain ⟨rule', hrule', hwithin⟩ := h rule hrule
  exact ((exists_compile_iff_rules criteria).mp ⟨p, hp⟩ rule' hrule').of_within hwithin

/-- A predicate holds where another one does, each rule of which asks for as much as some rule of
its own criteria. -/
theorem Criteria.holds_of_within {criteria other : Criteria} {p q : Predicate}
    (hp : criteria.compile resolve asOf = .ok p) (hq : other.compile resolve asOf = .ok q)
    (h : ∀ rule ∈ other.rules, ∃ rule' ∈ criteria.rules, rule'.Within rule)
    (hholds : q.holds record = true) : p.holds record = true := by
  rw [Criteria.holds_iff hp]
  obtain ⟨rule, hrule, hqualifies⟩ := (Criteria.holds_iff hq record).mp hholds
  obtain ⟨rule', hrule', hwithin⟩ := h rule hrule
  exact ⟨rule', hrule', hqualifies.of_within hwithin⟩

/-- Rearranged criteria compile where the criteria do, and match the same records. -/
theorem Criteria.Rearranges.exists_compile {criteria other : Criteria}
    (h : criteria.Rearranges other) {p : Predicate} (hp : criteria.compile resolve asOf = .ok p) :
    ∃ q, other.compile resolve asOf = .ok q ∧ ∀ record, q.holds record = p.holds record := by
  have hforth : ∀ rule ∈ criteria.rules, ∃ rule' ∈ other.rules, rule'.Within rule := by
    intro rule hrule
    obtain ⟨rule', hrule', hsame⟩ := h.1 rule hrule
    exact ⟨rule', hrule', hsame.within.2⟩
  have hback : ∀ rule' ∈ other.rules, ∃ rule ∈ criteria.rules,
      rule'.Within rule ∧ rule.Within rule' := by
    intro rule' hrule'
    obtain ⟨rule, hrule, hsame⟩ := h.2 rule' hrule'
    exact ⟨rule, hrule, hsame.within.2, hsame.within.1⟩
  obtain ⟨q, hq⟩ := exists_compile_of_within hp fun rule' hrule' =>
    (hback rule' hrule').imp fun _ h => ⟨h.1, h.2.1⟩
  refine ⟨q, hq, fun record => ?_⟩
  rw [Bool.eq_iff_iff]
  constructor
  · exact holds_of_within hp hq fun rule' hrule' =>
      (hback rule' hrule').imp fun _ h => ⟨h.1, h.2.2⟩
  · exact holds_of_within hq hp hforth

/-- Criteria compile where they do with one more rule, and then match no record that they do not
match with it. -/
theorem Criteria.holds_of_more_rules {before after : List Rule} {rule : Rule} {q : Predicate}
    (hq : Criteria.compile resolve asOf { rules := before ++ rule :: after } = .ok q) :
    ∃ p, Criteria.compile resolve asOf { rules := before ++ after } = .ok p ∧
      ∀ record, p.holds record = true → q.holds record = true := by
  have hkept : ∀ r ∈ before ++ after, ∃ r' ∈ before ++ rule :: after, r.Within r' ∧ r'.Within r :=
    fun r hr => ⟨r, subset_insert before after rule hr, .refl r, .refl r⟩
  obtain ⟨p, hp⟩ : ∃ p, Criteria.compile resolve asOf { rules := before ++ after } = .ok p :=
    exists_compile_of_within hq fun r hr => (hkept r hr).imp fun _ h => ⟨h.1, h.2.1⟩
  refine ⟨p, hp, fun record => ?_⟩
  exact holds_of_within hq hp fun r hr => (hkept r hr).imp fun _ h => ⟨h.1, h.2.2⟩

/-- Criteria compile where they do with one more filter or block in a rule, and then match every
record that they match with it. -/
theorem Criteria.holds_of_rule_grows {before after : List Rule} {less more : Rule} {q : Predicate}
    (h : less.GrowsTo more)
    (hq : Criteria.compile resolve asOf { rules := before ++ more :: after } = .ok q) :
    ∃ p, Criteria.compile resolve asOf { rules := before ++ less :: after } = .ok p ∧
      ∀ record, q.holds record = true → p.holds record = true := by
  obtain ⟨p, hp⟩ :
      ∃ p, Criteria.compile resolve asOf { rules := before ++ less :: after } = .ok p :=
    exists_compile_of_within hq (exists_mem_replaced Rule.Within.refl h.within before after)
  refine ⟨p, hp, fun record => ?_⟩
  apply holds_of_within hp hq
  exact exists_mem_replaced (R := fun rule rule' => rule'.Within rule) Rule.Within.refl h.within
    before after

end Outcomes

/-- Rules are compiled and judged apart from each other. Joined criteria compile exactly when both
do, and then match what one of them matches; they fail with the error of the first criteria, and
with that of the second alone placed after the rules of the first. So rearranged criteria match the
same records; one more rule takes no match away, and one more filter or block adds none. -/
theorem Criteria.rules_stand_apart (resolve : Resolver) (asOf : Date) :
    (∀ first second : Criteria,
      ((∃ r, (first ++ second).compile resolve asOf = .ok r) ↔
        (∃ p, first.compile resolve asOf = .ok p) ∧ ∃ q, second.compile resolve asOf = .ok q) ∧
      (∀ p q r, first.compile resolve asOf = .ok p → second.compile resolve asOf = .ok q →
        (first ++ second).compile resolve asOf = .ok r →
        ∀ record, r.holds record = true ↔ p.holds record = true ∨ q.holds record = true) ∧
      (∀ e, first.compile resolve asOf = .error e →
        (first ++ second).compile resolve asOf = .error e) ∧
      ∀ p e, first.compile resolve asOf = .ok p → second.compile resolve asOf = .error e →
        (first ++ second).compile resolve asOf =
          .error { e with location :=
            { e.location with rule := e.location.rule + first.rules.length } }) ∧
    (∀ (criteria other : Criteria) (p : Predicate), criteria.Rearranges other →
      criteria.compile resolve asOf = .ok p →
      ∃ q, other.compile resolve asOf = .ok q ∧ ∀ record, q.holds record = p.holds record) ∧
    (∀ (before after : List Rule) (rule : Rule) (q : Predicate),
      Criteria.compile resolve asOf { rules := before ++ rule :: after } = .ok q →
      ∃ p, Criteria.compile resolve asOf { rules := before ++ after } = .ok p ∧
        ∀ record, p.holds record = true → q.holds record = true) ∧
    ∀ (before after : List Rule) (less more : Rule) (q : Predicate), less.GrowsTo more →
      Criteria.compile resolve asOf { rules := before ++ more :: after } = .ok q →
      ∃ p, Criteria.compile resolve asOf { rules := before ++ less :: after } = .ok p ∧
        ∀ record, q.holds record = true → p.holds record = true := by
  refine ⟨?_, ?_, ?_, ?_⟩
  · intro first second
    refine ⟨exists_compile_append_iff, ?_, fun e => compile_append_error,
      fun p e => compile_append_error_later⟩
    intro p q r hp hq hr record
    rw [compile_append_ok hp hq] at hr
    obtain rfl := Except.ok.inj hr
    rw [Predicate.holds_append, Bool.or_eq_true]
  · intro criteria other p hsame hp
    exact hsame.exists_compile hp
  · intro before after rule q hq
    exact holds_of_more_rules hq
  · intro before after less more q hgrows hq
    exact holds_of_rule_grows hgrows hq

/-- The rules of the example in the other order, the first one twice, and in the second one the
blocks and the filters in the other order, a filter twice. -/
def turnedCriteria : Criteria :=
  { rules :=
      [{ householdFilters := [.flex "water" .equals ["WELL"], .core "size" .greaterThan ["1"],
           .flex "water" .equals ["WELL"]]
         blocks :=
          [{ headOnly := false, filters := [.periodic "score" (some 2) .range ["2", "3"]] },
           { headOnly := true, filters := [.core "age" .greaterThan ["17"]] }] },
       { householdFilters := [.core "size" .greaterThan ["9"]], blocks := [] },
       { householdFilters := [.core "size" .greaterThan ["9"]], blocks := [] }] }

/-- Criteria of which the second rule names no field. -/
def misspeltCriteria : Criteria :=
  { rules :=
      [{ householdFilters := [], blocks := [] },
       { householdFilters := []
         blocks := [{ headOnly := true, filters := [.core "agee" .greaterThan ["17"]] }] }] }

/-- A rule for heads of an age, with further conditions on them. -/
def adultHeads (further : List Condition) : Rule :=
  { householdFilters := []
    blocks := [{ headOnly := true, filters := [.core "age" .greaterThan ["17"]] ++ further }] }

/-- The turned rules match the example as the rules do. After them an error of the second rule is
one of the fourth. With a rule for heads before them they match the example still, and the rule for
heads matches it as it does with a further condition. -/
theorem Criteria.exampleCriteria_taken_apart :
    exampleCriteria.Rearranges turnedCriteria ∧
      (∃ q, turnedCriteria.compile (Schema.ofFields exampleFields).resolve exampleDate = .ok q ∧
        q.holds exampleRecord = true) ∧
      (∃ e, (exampleCriteria ++ misspeltCriteria).compile (Schema.ofFields exampleFields).resolve
          exampleDate = .error e ∧ e.location = ⟨3, some 0, 0⟩) ∧
      (∃ q, Criteria.compile (Schema.ofFields exampleFields).resolve exampleDate
          { rules := [] ++ adultHeads [] :: exampleCriteria.rules } = .ok q ∧
        q.holds exampleRecord = true) ∧
      (adultHeads []).GrowsTo (adultHeads [.core "age" .lessThan ["99"]]) ∧
      ∃ p, Criteria.compile (Schema.ofFields exampleFields).resolve exampleDate
          { rules := [] ++ adultHeads [] :: [] } = .ok p ∧
        p.holds exampleRecord = true := by
  obtain ⟨hjoined, hrearranged, hmore, hgrows⟩ :=
    rules_stand_apart (Schema.ofFields exampleFields).resolve exampleDate
  have hsame : exampleCriteria.Rearranges turnedCriteria := by decide
  have hone : (adultHeads []).GrowsTo (adultHeads [.core "age" .lessThan ["99"]]) :=
    .filter [] [] [] true [.core "age" .greaterThan ["17"]] [] (.core "age" .lessThan ["99"])
  have hexample : ((exampleCriteria.compile (Schema.ofFields exampleFields).resolve
      exampleDate).toOption.map fun p => p.holds exampleRecord) = some true := by
    decide +kernel
  have hmisspelt : (match misspeltCriteria.compile (Schema.ofFields exampleFields).resolve
      exampleDate with
      | .ok _ => none
      | .error e => some e.location) = some ⟨1, some 0, 0⟩ := by
    decide +kernel
  have hheads : (Criteria.compile (Schema.ofFields exampleFields).resolve exampleDate
      { rules := [] ++ adultHeads [] :: exampleCriteria.rules }).toOption.isSome = true := by
    decide +kernel
  have hfurther : ((Criteria.compile (Schema.ofFields exampleFields).resolve exampleDate
      { rules := [] ++ adultHeads [.core "age" .lessThan ["99"]] :: [] }).toOption.map
        fun p => p.holds exampleRecord) = some true := by
    decide +kernel
  obtain ⟨p, hp, hholds⟩ := Option.map_eq_some_iff.mp hexample
  have hp := toOption_eq_some_iff.mp hp
  refine ⟨hsame, ?_, ?_, ?_, hone, ?_⟩
  · obtain ⟨q, hq, hagree⟩ := hrearranged exampleCriteria turnedCriteria p hsame hp
    exact ⟨q, hq, (hagree exampleRecord).trans hholds⟩
  · cases he : misspeltCriteria.compile (Schema.ofFields exampleFields).resolve exampleDate with
    | ok q => simp [he] at hmisspelt
    | error e =>
      have hlocation : e.location = ⟨1, some 0, 0⟩ := by simpa [he] using hmisspelt
      refine ⟨_, (hjoined exampleCriteria misspeltCriteria).2.2.2 p e hp he, ?_⟩
      rw [hlocation]
      rfl
  · obtain ⟨q, hq⟩ := Option.isSome_iff_exists.mp hheads
    have hq := toOption_eq_some_iff.mp hq
    obtain ⟨p', hp', himplies⟩ := hmore [] exampleCriteria.rules (adultHeads []) q hq
    obtain rfl : p = p' := Except.ok.inj (hp.symm.trans hp')
    exact ⟨q, hq, himplies exampleRecord hholds⟩
  · obtain ⟨q, hq, hmatches⟩ := Option.map_eq_some_iff.mp hfurther
    have hq := toOption_eq_some_iff.mp hq
    obtain ⟨p', hp', himplies⟩ := hgrows [] [] _ _ q hone hq
    exact ⟨p', hp', himplies exampleRecord hmatches⟩

end Beneficiary
