import Beneficiary.Proofs.Criteria.Condition
import Beneficiary.Proofs.Criteria.Traversal

/-!
# What criteria mean

Criteria say of themselves which records qualify: some rule must have all its household filters hold
on the household, and each of its blocks met by one current member, on whom all filters of the block
hold. A filter holds where its field is found, the value is read from the entity, and the comparison
accepts the value. Compiling keeps this meaning.
-/

namespace Beneficiary

/-- The value of a field that is read from an entity, a core field by its own reader, a flex
attribute as the type of the field, and a periodic field in a round. -/
inductive FieldDescriptor.Reads {α : Type} [FieldSubject α] (d : FieldDescriptor)
    (round : Option UInt32) (asOf : Date) (subject : α) : Option Value → Prop where
  | core {field : CoreField} (classified : d.classification = .core)
      (found : CoreField.find? d.name = some field) :
      d.Reads round asOf subject (FieldSubject.coreValue subject field asOf)
  | flex (classified : d.classification = .flex) :
      d.Reads round asOf subject
        (((FieldSubject.flexFields subject).get? d.name).bind (Value.ofStored? d.valueType))
  | periodic {value : Option Value} (classified : d.classification = .periodic)
      (found : d.roundValue round (FieldSubject.flexFields subject) = .ok value) :
      d.Reads round asOf subject value

/-- A filter holds on an entity: the comparison of its field accepts the value of the field. -/
def Condition.HoldsOn {α : Type} [FieldSubject α] (resolve : Resolver) (asOf : Date)
    (condition : Condition) (subject : α) : Prop :=
  ∃ d value, resolve condition.field condition.classification = .ok d ∧
    d.Reads condition.round asOf subject value ∧
    d.evaluate condition.method condition.arguments value = .ok true

/-- A member that a block is about: the head where it asks for the head, any member otherwise. -/
def Block.InRange (block : Block) (record : HouseholdRecord) (member : Individual) : Prop :=
  if block.headOnly then record.head? = some member else member ∈ record.members

/-- A block is met: all its filters hold on one current member that it is about. -/
def Block.IsMet (resolve : Resolver) (asOf : Date) (block : Block) (record : HouseholdRecord) :
    Prop :=
  ∃ member, block.InRange record member ∧ member.withdrawn = false ∧
    ∀ condition ∈ block.filters, condition.HoldsOn resolve asOf member

/-- A rule qualifies a record: its household filters hold and its blocks are met. -/
def Rule.Qualifies (resolve : Resolver) (asOf : Date) (rule : Rule) (record : HouseholdRecord) :
    Prop :=
  (∀ condition ∈ rule.householdFilters, condition.HoldsOn resolve asOf record.household) ∧
    ∀ block ∈ rule.blocks, block.IsMet resolve asOf record

/-- Criteria qualify a record: some rule does. -/
def Criteria.Qualifies (resolve : Resolver) (asOf : Date) (criteria : Criteria)
    (record : HouseholdRecord) : Prop :=
  ∃ rule ∈ criteria.rules, rule.Qualifies resolve asOf record

variable {resolve : Resolver} {asOf : Date}

/-- The place found for a condition's value holds what is read from the entity, and that alone. -/
theorem Condition.reads_iff {α : Type} [FieldSubject α] {condition : Condition}
    {d : FieldDescriptor} {selector : Option RoundSelector} {source : ValueSource} {subject : α}
    {value : Option Value} (hselector : condition.selector d = .ok selector)
    (hsource : Condition.source d selector = .ok source) :
    d.Reads condition.round asOf subject value ↔ value = source.read asOf subject := by
  rcases Condition.selector_cases hselector with ⟨hp, s, hs, rfl⟩ | ⟨hp, -, rfl⟩
  · obtain rfl : ValueSource.periodic s = source := Except.ok.inj hsource
    have hread : d.roundValue condition.round (FieldSubject.flexFields subject) =
        .ok (s.read (FieldSubject.flexFields subject)) := by
      rw [FieldDescriptor.roundValue, hs]
      rfl
    constructor
    · intro h
      cases h with
      | core hc => simp [hp] at hc
      | flex hc => simp [hp] at hc
      | periodic _ hv =>
        rw [hread] at hv
        exact (Except.ok.inj hv).symm
    · rintro rfl
      exact .periodic hp hread
  · dsimp only [Condition.source] at hsource
    split at hsource
    · next hflex =>
      obtain rfl : ValueSource.flex d.name d.valueType = source := Except.ok.inj hsource
      constructor
      · intro h
        cases h with
        | core hc => simp [hflex] at hc
        | flex _ => rfl
        | periodic hc => exact absurd hc hp
      · rintro rfl
        exact .flex hflex
    · next hflex =>
      have hcore : d.classification = .core := by
        cases hd : d.classification <;> simp_all
      split at hsource
      · next field hfield =>
        obtain rfl : ValueSource.core field = source := Except.ok.inj hsource
        constructor
        · intro h
          cases h with
          | core _ hf =>
            obtain rfl := Option.some.inj (hfield.symm.trans hf)
            rfl
          | flex hc => exact absurd hc hflex
          | periodic hc => exact absurd hc hp
        · rintro rfl
          exact .core hcore hfield
      · cases hsource

/-- A compiled condition holds on an entity exactly when the condition does. -/
theorem Condition.holds_iff {α : Type} [FieldSubject α] {context : EntityKind}
    {condition : Condition} {atom : Atom} (h : condition.compile resolve asOf context = .ok atom)
    (subject : α) : atom.holds subject = true ↔ condition.HoldsOn resolve asOf subject := by
  obtain ⟨d, selector, source, comparison, hd, hselector, -, hsource, hcomparison, rfl⟩ :=
    Condition.compile_eq_ok_iff.mp h
  have hevaluate (value : Option Value) :
      d.evaluate condition.method condition.arguments value = .ok (comparison.holds value) := by
    rw [FieldDescriptor.evaluate, hcomparison]
    rfl
  constructor
  · intro hholds
    refine ⟨d, source.read asOf subject, hd, (reads_iff hselector hsource).mpr rfl, ?_⟩
    rw [hevaluate]
    exact congrArg Except.ok hholds
  · rintro ⟨d', value, hd', hreads, hholds⟩
    obtain rfl : d = d' := Except.ok.inj (hd.symm.trans hd')
    obtain rfl := (reads_iff hselector hsource).mp hreads
    rw [hevaluate] at hholds
    exact Except.ok.inj hholds

private theorem all_filters_iff {α : Type} [FieldSubject α] {context : EntityKind}
    {place : Nat → Location} {filters : List Condition} {atoms : List Atom}
    (h : compileFilters resolve asOf context place filters = .ok atoms) (subject : α) :
    (atoms.all fun atom => atom.holds subject) = true ↔
      ∀ condition ∈ filters, condition.HoldsOn resolve asOf subject := by
  refine all_traverseFrom_iff _ _ h ?_
  intro index condition atom hatom
  exact condition.holds_iff (mapError_eq_ok_iff.mp hatom) subject

/-- A compiled block holds on a record exactly when the block is met there. -/
theorem Block.holds_iff {rule index : Nat} {block : Block} {compiled : BlockPredicate}
    (h : block.compile resolve asOf rule index = .ok compiled) (record : HouseholdRecord) :
    compiled.holds record = true ↔ block.IsMet resolve asOf record := by
  obtain ⟨atoms, hatoms, rfl⟩ := map_eq_ok_iff.mp h
  have hmember (member : Individual) :
      BlockPredicate.isMetBy { headOnly := block.headOnly, atoms } member = true ↔
        member.withdrawn = false ∧
          ∀ condition ∈ block.filters, condition.HoldsOn resolve asOf member := by
    rw [BlockPredicate.isMetBy, Bool.and_eq_true, Bool.not_eq_true', all_filters_iff hatoms]
  unfold BlockPredicate.holds Block.IsMet Block.InRange
  cases block.headOnly with
  | true =>
    simp only [↓reduceIte]
    rw [Option.any_eq_true]
    exact exists_congr fun member => and_congr_right fun _ => hmember member
  | false =>
    simp only [Bool.false_eq_true, ↓reduceIte]
    rw [List.any_eq_true]
    exact exists_congr fun member => and_congr_right fun _ => hmember member

/-- A compiled rule holds on a record exactly when the rule qualifies it. -/
theorem Rule.holds_iff {index : Nat} {rule : Rule} {compiled : RulePredicate}
    (h : rule.compile resolve asOf index = .ok compiled) (record : HouseholdRecord) :
    compiled.holds record = true ↔ rule.Qualifies resolve asOf record := by
  obtain ⟨household, hhousehold, h⟩ := bind_eq_ok_iff.mp h
  obtain ⟨blocks, hblocks, h⟩ := bind_eq_ok_iff.mp h
  obtain rfl : RulePredicate.mk household blocks = compiled := Except.ok.inj h
  rw [RulePredicate.holds, Bool.and_eq_true, all_filters_iff hhousehold]
  refine and_congr_right fun _ => all_traverseFrom_iff _ _ hblocks ?_
  intro blockIndex block compiled hcompiled
  exact block.holds_iff hcompiled record

/-- A compiled predicate holds on a record exactly when the criteria qualify it. -/
theorem Criteria.holds_iff {criteria : Criteria} {predicate : Predicate}
    (h : criteria.compile resolve asOf = .ok predicate) (record : HouseholdRecord) :
    predicate.holds record = true ↔ criteria.Qualifies resolve asOf record := by
  obtain ⟨rules, hrules, rfl⟩ := map_eq_ok_iff.mp h
  refine any_traverseFrom_iff _ _ hrules ?_
  intro index rule compiled hcompiled
  exact rule.holds_iff hcompiled record

/-- A rule that asks for nothing qualifies every record. -/
theorem Criteria.qualifies_of_empty_rule {criteria : Criteria}
    (h : { householdFilters := [], blocks := [] } ∈ criteria.rules) (record : HouseholdRecord) :
    criteria.Qualifies resolve asOf record :=
  ⟨_, h, by simp [Rule.Qualifies]⟩

/-- Compiling criteria keeps their meaning: a compiled predicate holds on a record exactly when some
rule qualifies it. So criteria without rules qualify no record, and a rule that asks for nothing
qualifies every record. -/
theorem Criteria.compile_preserves_meaning (fields : ProgramFields) (criteria : Criteria)
    (asOf : Date) (predicate : Predicate)
    (h : criteria.compile (Schema.ofFields fields).resolve asOf = .ok predicate)
    (record : HouseholdRecord) :
    (predicate.holds record = true ↔
      criteria.Qualifies (Schema.ofFields fields).resolve asOf record) ∧
    (criteria.rules = [] → predicate.holds record = false) ∧
    ({ householdFilters := [], blocks := [] } ∈ criteria.rules →
      predicate.holds record = true) := by
  have hmeaning := Criteria.holds_iff h record
  refine ⟨hmeaning, ?_, ?_⟩
  · intro hrules
    rw [← Bool.not_eq_true, hmeaning]
    simp [Criteria.Qualifies, hrules]
  · intro hempty
    exact hmeaning.mpr (Criteria.qualifies_of_empty_rule hempty record)

/-- A program with an enumeration of its households and a number collected in two rounds. -/
def exampleFields : ProgramFields :=
  let createdAt : Moment := { date := ⟨2024, 1, 1, by decide⟩, time := ⟨28800, 0, by decide⟩ }
  { flexAttributes :=
      [{ id := ⟨11⟩, programId := ⟨1⟩, name := "water", owner := .household, valueType := .enum
         label := none, choices := ["WELL", "RIVER"], createdAt }]
    periodicFields :=
      [{ id := ⟨12⟩, programId := ⟨1⟩, name := "score", owner := .individual, label := none
         spec := { numberOfRounds := 2, roundNames := [], subtype := .number }, createdAt }] }

/-- A rule with filters and blocks on fields of every classification, after one that asks for
more. -/
def exampleCriteria : Criteria :=
  { rules :=
      [{ householdFilters := [.core "size" .greaterThan ["9"]], blocks := [] },
       { householdFilters := [.core "size" .greaterThan ["1"], .flex "water" .equals ["WELL"]]
         blocks :=
          [{ headOnly := true, filters := [.core "age" .greaterThan ["17"]] },
           { headOnly := false, filters := [.periodic "score" (some 2) .range ["2", "3"]] }] }] }

/-- A household of three: the head, a withdrawn member and a current one, whose scores differ. -/
def exampleRecord : HouseholdRecord :=
  let member (id : Nat) (withdrawn : Bool) (score : String) : Individual :=
    { id := ⟨id⟩, householdId := ⟨2⟩, unicefId := "IND-" ++ score, fullName := "", sex := none
      birthDate := some ⟨1990, 5, 1, by decide⟩, maritalStatus := none, relationship := none
      disability := none, observedDisability := [], pregnant := none, phoneNo := none
      flexFields := .of [("score", .object [("2", .object [("value", .string score)])])]
      withdrawn }
  { household :=
      { id := ⟨2⟩, programId := ⟨1⟩, unicefId := "HH-1", headId := some ⟨3⟩, size := some 3
        residenceStatus := none, admin1 := none, admin2 := none, village := none, address := none
        firstRegistrationDate := none, returnee := none, consentSharing := []
        flexFields := .of [("water", .string "WELL")], withdrawn := false
        createdAt := { date := ⟨2024, 1, 1, by decide⟩, time := ⟨28800, 0, by decide⟩ } }
    members := [member 3 false "1", member 4 true "2", member 5 false "2.5"] }

/-- The date on which the examples count ages. -/
def exampleDate : Date := ⟨2024, 6, 1, by decide⟩

/-- The second rule of the example qualifies its household by the head and the current member. -/
theorem Criteria.exampleCriteria_qualify_exampleRecord :
    ∃ predicate,
      exampleCriteria.compile (Schema.ofFields exampleFields).resolve exampleDate = .ok predicate ∧
      predicate.holds exampleRecord = true ∧
      exampleCriteria.Qualifies (Schema.ofFields exampleFields).resolve exampleDate
        exampleRecord := by
  have hrun : ((exampleCriteria.compile (Schema.ofFields exampleFields).resolve
      exampleDate).toOption.map fun p => p.holds exampleRecord) = some true := by
    decide +kernel
  obtain ⟨predicate, hp, hholds⟩ := Option.map_eq_some_iff.mp hrun
  have h := toOption_eq_some_iff.mp hp
  exact ⟨predicate, h, hholds,
    (Criteria.compile_preserves_meaning _ _ _ _ h exampleRecord).1.mp hholds⟩

end Beneficiary
