import Beneficiary.Proofs.Criteria.Selections
import Beneficiary.Proofs.Store.Catalog
import Beneficiary.Proofs.Text.Pieces

/-!
# Two forms of a stored selection

An entity keeps a selection as an array of its options or as one text, the options joined by commas.
An array is read as the options that it holds. A text is cut at commas and at white space, and the
empty pieces are dropped, so it keeps an option whole just when the option is not empty and holds
neither. A flex attribute may be registered with choices of any text. Where all selected choices
are kept whole every condition judges both forms alike, and where one of them is not some condition
tells the forms apart.
-/

namespace Beneficiary

open Text

namespace Value

/-- A selection as one text, a comma and a blank between neighbours. -/
def selectionText (selection : List String) : Json := .string (joined ", " selection)

/-- A selection kept as one text has the option among its own: the option is not empty and nothing
in it separates options. -/
def KeptWhole (option : String) : Prop :=
  option ≠ "" ∧ ∀ c ∈ option.toList, separatesOptions c = false

variable {selection : List String}

/-- An array is read as the options that it holds. -/
theorem ofStored?_ofStrings (selection : List String) :
    ofStored? .list (.ofStrings selection) = some (.list selection) := by
  simp [ofStored?, storedList?, Json.ofStrings, List.filterMap_map, Function.comp_def, scalarText?]

/-- A selection kept as one text is read as the pieces of its options. -/
theorem ofStored?_selectionText (selection : List String) :
    ofStored? .list (selectionText selection) =
      some (.list (selection.flatMap (runsOf separatesOptions))) := by
  have hseparator : ∀ c ∈ ", ".toList, separatesOptions c = true := by
    simp [separatesOptions, isBlank, blankRanges]
  rw [selectionText, ofStored?, storedList?, runsOf_joined (by simp) hseparator]

/-- What is read from one text was kept whole. -/
theorem keptWhole_of_read {option : String}
    (h : option ∈ selection.flatMap (runsOf separatesOptions)) : KeptWhole option := by
  obtain ⟨_, -, hrun⟩ := List.mem_flatMap.mp h
  exact ⟨ne_empty_of_mem_runsOf hrun, free_of_mem_runsOf hrun⟩

/-- One text is read as the selection exactly when all of its options are kept whole. -/
theorem ofStored?_selectionText_eq_iff :
    ofStored? .list (selectionText selection) = some (.list selection) ↔
      ∀ option ∈ selection, KeptWhole option := by
  rw [ofStored?_selectionText, Option.some.injEq, list.injEq]
  refine ⟨fun h option hoption => ?_, flatMap_runsOf_of_free⟩
  rw [← h] at hoption
  exact keptWhole_of_read hoption

end Value

/-- Containment of an option that is not kept whole is satisfied by the array alone. -/
theorem FieldDescriptor.evaluate_contains_forms {d : FieldDescriptor} {option : String}
    {selection : List String} (hlist : d.valueType = .list) (hoption : option ∈ selection)
    (hoffers : d.Offers [option]) (hcut : ¬ Value.KeptWhole option) :
    d.evaluate .contains [option] (Value.ofStored? .list (.ofStrings selection)) ≠
      d.evaluate .contains [option] (Value.ofStored? .list (Value.selectionText selection)) := by
  have harray : d.Passes .contains [option] (Value.ofStored? .list (.ofStrings selection)) := by
    rw [passes_contains_iff_selected hlist hoffers, Value.ofStored?_ofStrings]
    exact ⟨option, hoption, List.mem_singleton_self option⟩
  have htext : ¬ d.Passes .contains [option]
      (Value.ofStored? .list (Value.selectionText selection)) := by
    rw [passes_contains_iff_selected hlist hoffers, Value.ofStored?_selectionText]
    rintro ⟨other, hread, hother⟩
    obtain rfl := List.mem_singleton.mp hother
    exact hcut (Value.keptWhole_of_read hread)
  intro hsame
  exact htext (hsame.symm.trans harray)

namespace Store

variable {s t : Store} {now : Moment} {programId : Uuid} {input : NewFlexAttribute}
  {flex : FlexAttribute}

/-- In the program of a registered flex attribute its name refers to it alone. -/
theorem Reachable.resolve_registered (hs : s.Reachable)
    (h : s.createFlexAttribute now programId input = .ok (flex, t))
    (c : FieldClassification) :
    (t.schemaOf programId).resolve flex.name c =
      if c = .flex then .ok flex.descriptor
      else .error (.classificationMismatch flex.name c .flex) := by
  have ht : t.Catalogued := hs.catalogued.step (step_createFlexAttribute h)
  obtain ⟨-, -, -, -, rfl, rfl⟩ := createFlexAttribute_eq_ok_iff.mp h
  refine (ht.coherent programId).resolvesNames.listed
    (input.registered s.nextId programId now).descriptor ?_ c
  refine ht.mem_fields.mpr (.inr (List.mem_append_left _ ?_))
  rw [flexDescriptors_concat rfl]
  simp [NewFlexAttribute.registered]

/-- A condition that compiles under the name of a registered flex attribute is one on it. -/
theorem Reachable.resolve_of_compile (hs : s.Reachable)
    (h : s.createFlexAttribute now programId input = .ok (flex, t)) {asOf : Date}
    {context : EntityKind} {condition : Condition} {atom : Atom}
    (hfield : condition.field = flex.name)
    (hatom : condition.compile (t.schemaOf programId).resolve asOf context = .ok atom) :
    (t.schemaOf programId).resolve condition.field condition.classification =
      .ok flex.descriptor := by
  obtain ⟨d, -, -, -, hd, -⟩ := Condition.compile_eq_ok_iff.mp hatom
  rw [hfield, hs.resolve_registered h] at hd ⊢
  split at hd
  · next hflex => rw [if_pos hflex]
  · cases hd

/-- A condition that compiles under the name of a registered flex attribute judges what an entity
stores under this name, read as the attribute's type. -/
theorem Reachable.holds_registered {α : Type} [FieldSubject α] (hs : s.Reachable)
    (h : s.createFlexAttribute now programId input = .ok (flex, t)) {asOf : Date}
    {context : EntityKind} {condition : Condition} {atom : Atom}
    (hfield : condition.field = flex.name)
    (hatom : condition.compile (t.schemaOf programId).resolve asOf context = .ok atom)
    {subject : α} {stored : Json}
    (hstored : (FieldSubject.flexFields subject).get? flex.name = some stored) :
    flex.descriptor.evaluate condition.method condition.arguments
      (Value.ofStored? flex.valueType stored) = .ok (atom.holds subject) := by
  rw [← Condition.holds_flex hatom (hs.resolve_of_compile h hfield hatom) rfl subject]
  change _ = flex.descriptor.evaluate _ _
    (((FieldSubject.flexFields subject).get? flex.name).bind _)
  rw [hstored]
  rfl

/-- A condition on a registered flex attribute compiles where its comparison does. -/
theorem Reachable.exists_compile_flex (hs : s.Reachable)
    (h : s.createFlexAttribute now programId input = .ok (flex, t)) (asOf : Date)
    {method : ComparisonMethod} {arguments : List String} {comparison : Comparison}
    (hcomparison : flex.descriptor.comparison method arguments = .ok comparison) :
    ∃ atom, (Condition.flex flex.name method arguments).compile
      (t.schemaOf programId).resolve asOf flex.owner = .ok atom := by
  refine ⟨_, Condition.compile_eq_ok_iff.mpr ⟨flex.descriptor, none,
    .flex flex.name flex.valueType, comparison, ?_, rfl, rfl, rfl, hcomparison, rfl⟩⟩
  exact (hs.resolve_registered h .flex).trans (if_pos rfl)

/-- The two forms of a selection of choices of a registered attribute. The array is read as the
selection. The text is read as it exactly when every choice in it is kept whole, and just then every
condition on the attribute judges an entity that stores the text as one that stores the array. -/
theorem selection_forms_agree {α : Type} [FieldSubject α] (s t : Store) (now : Moment)
    (programId : Uuid) (input : NewFlexAttribute) (flex : FlexAttribute)
    (selection : List String) (asText asArray : α) (hs : s.Reachable)
    (hcreate : s.createFlexAttribute now programId input = .ok (flex, t))
    (hlist : flex.valueType = .list)
    (hchoices : ∀ option ∈ selection, option ∈ flex.choices)
    (htext : (FieldSubject.flexFields asText).get? flex.name =
      some (Value.selectionText selection))
    (harray : (FieldSubject.flexFields asArray).get? flex.name = some (.ofStrings selection)) :
    Value.ofStored? .list (.ofStrings selection) = some (.list selection) ∧
    (Value.ofStored? .list (Value.selectionText selection) = some (.list selection) ↔
      ∀ option ∈ selection, Value.KeptWhole option) ∧
    ((∀ (asOf : Date) (context : EntityKind) (condition : Condition) (atom : Atom),
        condition.field = flex.name →
        condition.compile (t.schemaOf programId).resolve asOf context = .ok atom →
        atom.holds asText = atom.holds asArray) ↔
      ∀ option ∈ selection, Value.KeptWhole option) := by
  refine ⟨Value.ofStored?_ofStrings selection, Value.ofStored?_selectionText_eq_iff, ?_⟩
  constructor
  · intro hagree option hoption
    by_contra hcut
    have hoffers : flex.descriptor.Offers [option] :=
      FieldDescriptor.offers_of_choices hlist (List.cons_ne_nil _ _)
        (List.forall_mem_singleton.mpr (hchoices option hoption))
    obtain ⟨atom, hatom⟩ := hs.exists_compile_flex hcreate exampleDate
      (FieldDescriptor.comparison_of_offers hlist .contains hoffers)
    refine FieldDescriptor.evaluate_contains_forms hlist hoption hoffers hcut ?_
    have hjudgedText := hs.holds_registered hcreate rfl hatom htext
    have hjudgedArray := hs.holds_registered hcreate rfl hatom harray
    rw [hlist] at hjudgedText hjudgedArray
    exact hjudgedArray.trans ((hagree _ _ _ _ rfl hatom) ▸ hjudgedText.symm)
  · intro hwhole asOf context condition atom hfield hatom
    have hread := Value.ofStored?_selectionText_eq_iff.mpr hwhole
    have hjudgedText := hs.holds_registered hcreate hfield hatom htext
    have hjudgedArray := hs.holds_registered hcreate hfield hatom harray
    rw [hlist, hread] at hjudgedText
    rw [hlist, Value.ofStored?_ofStrings] at hjudgedArray
    exact Except.ok.inj (hjudgedText.symm.trans hjudgedArray)

/-- Kinds of aid to choose from, a selection of households; one choice is of two words. -/
def aidKinds : NewFlexAttribute :=
  { name := "aid"
    owner := .household
    valueType := .list
    label := none
    choices := ["FOOD", "SEEDS", "CASH GRANT"] }

/-- The kinds of aid as they are registered. -/
def aidAttribute : FlexAttribute :=
  aidKinds.registered catalogStore.nextId (idAfter 0) exampleMoment

/-- The store with the kinds of aid. -/
def aidStore : Store :=
  { catalogStore with
    issued := catalogStore.issued + 1
    flexAttributes := catalogStore.flexAttributes ++ [aidAttribute] }

/-- A household that keeps a selection of kinds of aid in a form. -/
def aidHousehold (stored : Json) : Household :=
  { exampleRecord.household with flexFields := .of [("aid", stored)] }

private theorem aidKinds_registered :
    catalogStore.createFlexAttribute exampleMoment (idAfter 0) aidKinds =
      .ok (aidAttribute, aidStore) := by
  refine createFlexAttribute_eq_ok_iff.mpr ⟨Option.isSome_iff_exists.mp ?_, ?_, ?_, ?_, rfl, rfl⟩
  all_goals decide +kernel

private theorem exists_aidAtom {method : ComparisonMethod} {arguments : List String}
    {comparison : Comparison}
    (h : aidAttribute.descriptor.comparison method arguments = .ok comparison) :
    ∃ atom, (Condition.flex "aid" method arguments).compile (aidStore.schemaOf (idAfter 0)).resolve
        exampleDate .household = .ok atom ∧
      ∀ stored, (aidHousehold stored).flexFields.get? "aid" = some stored →
        aidAttribute.descriptor.evaluate method arguments (Value.ofStored? .list stored) =
          .ok (atom.holds (aidHousehold stored)) := by
  obtain ⟨atom, hatom⟩ :=
    catalogStore_reachable.exists_compile_flex aidKinds_registered exampleDate h
  exact ⟨atom, hatom, fun stored hstored =>
    catalogStore_reachable.holds_registered aidKinds_registered rfl hatom hstored⟩

/-- A selection of choices of one word each is the same in both forms, so that a condition which
holds of the array holds of the text. -/
theorem aidHousehold_judged_alike :
    ∃ atom,
      (Condition.flex "aid" .equals ["SEEDS", "FOOD"]).compile
        (aidStore.schemaOf (idAfter 0)).resolve exampleDate .household = .ok atom ∧
      Value.ofStored? .list (Value.selectionText ["FOOD", "SEEDS"]) =
        some (.list ["FOOD", "SEEDS"]) ∧
      atom.holds (aidHousehold (.ofStrings ["FOOD", "SEEDS"])) = true ∧
      atom.holds (aidHousehold (Value.selectionText ["FOOD", "SEEDS"])) = true := by
  have hcomparison : aidAttribute.descriptor.comparison .equals ["SEEDS", "FOOD"] =
      .ok (.within ["FOOD", "SEEDS"]) := by
    decide +kernel
  obtain ⟨atom, hatom, hjudged⟩ := exists_aidAtom hcomparison
  have harray : aidAttribute.descriptor.evaluate .equals ["SEEDS", "FOOD"]
      (Value.ofStored? .list (.ofStrings ["FOOD", "SEEDS"])) = .ok true := by
    decide +kernel
  replace harray := Except.ok.inj ((hjudged _ rfl).symm.trans harray)
  have hwhole : ∀ option ∈ ["FOOD", "SEEDS"], Value.KeptWhole option := by
    simp [Value.KeptWhole, Value.separatesOptions, Text.isBlank, Text.blankRanges]
  obtain ⟨-, hread, hagree⟩ := selection_forms_agree catalogStore aidStore exampleMoment (idAfter 0)
    aidKinds aidAttribute ["FOOD", "SEEDS"]
    (aidHousehold (Value.selectionText ["FOOD", "SEEDS"]))
    (aidHousehold (.ofStrings ["FOOD", "SEEDS"])) catalogStore_reachable aidKinds_registered rfl
    (by decide) rfl rfl
  exact ⟨atom, hatom, hread.mpr hwhole, harray,
    (hagree.mpr hwhole _ _ _ _ rfl hatom).trans harray⟩

/-- The choice of two words is cut in the text. A household that keeps it there does not have it
selected, where one that keeps it in an array has. -/
theorem aidHousehold_told_apart :
    ∃ atom,
      catalogStore.Reachable ∧
      catalogStore.createFlexAttribute exampleMoment (idAfter 0) aidKinds =
        .ok (aidAttribute, aidStore) ∧
      aidAttribute.valueType = .list ∧ "CASH GRANT" ∈ aidAttribute.choices ∧
      Value.ofStored? .list (Value.selectionText ["CASH GRANT"]) =
        some (.list ["CASH", "GRANT"]) ∧
      Value.ofStored? .list (.ofStrings ["CASH GRANT"]) = some (.list ["CASH GRANT"]) ∧
      (Condition.flex "aid" .equals ["CASH GRANT"]).compile
        (aidStore.schemaOf (idAfter 0)).resolve exampleDate .household = .ok atom ∧
      atom.holds (aidHousehold (Value.selectionText ["CASH GRANT"])) = false ∧
      atom.holds (aidHousehold (.ofStrings ["CASH GRANT"])) = true := by
  have hcomparison : aidAttribute.descriptor.comparison .equals ["CASH GRANT"] =
      .ok (.within ["CASH GRANT"]) := by
    decide +kernel
  obtain ⟨atom, hatom, hjudged⟩ := exists_aidAtom hcomparison
  have htext : aidAttribute.descriptor.evaluate .equals ["CASH GRANT"]
      (Value.ofStored? .list (Value.selectionText ["CASH GRANT"])) = .ok false := by
    decide +kernel
  have harray : aidAttribute.descriptor.evaluate .equals ["CASH GRANT"]
      (Value.ofStored? .list (.ofStrings ["CASH GRANT"])) = .ok true := by
    decide +kernel
  exact ⟨atom, catalogStore_reachable, aidKinds_registered, rfl, by decide, by decide +kernel,
    Value.ofStored?_ofStrings _, hatom, Except.ok.inj ((hjudged _ rfl).symm.trans htext),
    Except.ok.inj ((hjudged _ rfl).symm.trans harray)⟩

end Store

end Beneficiary
