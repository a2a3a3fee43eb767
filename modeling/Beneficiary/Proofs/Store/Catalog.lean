import Beneficiary.Proofs.Criteria.Schema
import Beneficiary.Proofs.Store.Population

/-!
# The fields of a program

A program registers flex attributes and periodic fields, each under a name that none of its fields
has, a core field least of all. So a name refers to one field of a program whatever was registered
before, in whichever order and in whichever programs. Registering a field puts it at one place among
the fields of its program; a refused registration leaves the store as it was.
-/

namespace Beneficiary

/-- A field is well stated. A flex attribute with choices is an enumeration or a selection; a
periodic field has a round at least, no more names than rounds, and its values are of a type that is
not chosen from options. -/
structure FieldDescriptor.WellFormed (d : FieldDescriptor) : Prop where
  choices : d.classification = .flex → d.choices ≠ [] → d.valueType = .enum ∨ d.valueType = .list
  rounds : d.classification = .periodic → ∃ spec, d.periodic = some spec ∧
    d.valueType = spec.subtype ∧ spec.subtype ∈ [.string, .number, .boolean, .date] ∧
    spec.numberOfRounds ≠ 0 ∧ spec.roundNames.length ≤ spec.numberOfRounds.toNat

/-- The field that a stated flex attribute describes. -/
def NewFlexAttribute.descriptor (input : NewFlexAttribute) : FieldDescriptor :=
  { name := input.name
    owner := input.owner
    valueType := input.valueType
    classification := .flex
    label := input.label
    choices := input.choices
    periodic := none }

/-- The field that a stated periodic field describes. -/
def NewPeriodicField.descriptor (input : NewPeriodicField) : FieldDescriptor :=
  { name := input.name
    owner := input.describedKind
    valueType := input.subtype
    classification := .periodic
    label := input.label
    choices := []
    periodic := some input.spec }

namespace Store

variable {s t : Store} {program : Uuid}

/-- The flex attributes of a program as fields, in order of registration. -/
def flexDescriptors (s : Store) (program : Uuid) : List FieldDescriptor :=
  (s.flexAttributes.filter fun a => a.programId == program).map FlexAttribute.descriptor

/-- The periodic fields of a program as fields, in order of registration. -/
def periodicDescriptors (s : Store) (program : Uuid) : List FieldDescriptor :=
  (s.periodicFields.filter fun f => f.programId == program).map PeriodicField.descriptor

/-- The fields that a program has registered. -/
def registeredDescriptors (s : Store) (program : Uuid) : List FieldDescriptor :=
  s.flexDescriptors program ++ s.periodicDescriptors program

/-- The fields of each program are well stated and have distinct names, none of them that of a core
field. -/
structure Catalogued (s : Store) : Prop where
  distinct : ∀ program, ((s.registeredDescriptors program).map FieldDescriptor.name).Nodup
  notCore : ∀ program, ∀ d ∈ s.registeredDescriptors program, CoreField.find? d.name = none
  wellFormed : ∀ program, ∀ d ∈ s.registeredDescriptors program, d.WellFormed

/-- A name is free in a program exactly when no field that the program registered has it. -/
theorem hasField_eq_false_iff {name : String} :
    s.hasField program name = false ↔
      ∀ d ∈ s.registeredDescriptors program, d.name ≠ name := by
  rw [registeredDescriptors, List.forall_mem_append, flexDescriptors, periodicDescriptors,
    List.forall_mem_map, List.forall_mem_map]
  simp [hasField, FlexAttribute.descriptor, PeriodicField.descriptor]

/-- A field name that passes its check is that of no core field. -/
theorem find?_eq_none_of_checkFieldName {name : String} (h : checkFieldName name = .ok ()) :
    CoreField.find? name = none := by
  unfold checkFieldName at h
  obtain ⟨-, h⟩ := check_bind_eq_ok_iff.mp h
  simpa using require_eq_ok_iff.mp h

private theorem map_filter_concat {α : Type} (owner : α → Uuid) (descriptor : α → FieldDescriptor)
    (items : List α) (item : α) (program : Uuid) :
    ((items ++ [item]).filter fun a => owner a == program).map descriptor =
      if owner item = program then
        (items.filter fun a => owner a == program).map descriptor ++ [descriptor item]
      else (items.filter fun a => owner a == program).map descriptor := by
  by_cases h : owner item = program <;> simp [h]

/-- A further flex attribute is a further field of its program alone. -/
theorem flexDescriptors_concat {flex : FlexAttribute}
    (h : t.flexAttributes = s.flexAttributes ++ [flex]) (program : Uuid) :
    t.flexDescriptors program =
      if flex.programId = program then s.flexDescriptors program ++ [flex.descriptor]
      else s.flexDescriptors program := by
  rw [flexDescriptors, h]
  exact map_filter_concat _ _ _ _ _

/-- A further periodic field is a further field of its program alone. -/
theorem periodicDescriptors_concat {field : PeriodicField}
    (h : t.periodicFields = s.periodicFields ++ [field]) (program : Uuid) :
    t.periodicDescriptors program =
      if field.programId = program then s.periodicDescriptors program ++ [field.descriptor]
      else s.periodicDescriptors program := by
  rw [periodicDescriptors, h]
  exact map_filter_concat _ _ _ _ _

/-- Empty tables hold no fields. -/
theorem catalogued_emptyAfter (issued : Nat) (ids : IdSource) :
    (emptyAfter issued ids).Catalogued := by
  constructor <;> simp [registeredDescriptors, flexDescriptors, periodicDescriptors, emptyAfter]

/-- Names stay distinct when one program has one more well stated field of a new name. -/
theorem Catalogued.gain (hs : s.Catalogued) (d : FieldDescriptor) (owner : Uuid)
    (hperm : ∀ program, (t.registeredDescriptors program).Perm
      (if owner = program then d :: s.registeredDescriptors program
      else s.registeredDescriptors program))
    (hname : checkFieldName d.name = .ok ()) (hfree : s.hasField owner d.name = false)
    (hwell : d.WellFormed) : t.Catalogued := by
  have hmem {program : Uuid} {e : FieldDescriptor} (he : e ∈ t.registeredDescriptors program) :
      e = d ∨ e ∈ s.registeredDescriptors program := by
    have he := (hperm program).mem_iff.mp he
    split at he
    · exact List.mem_cons.mp he
    · exact .inr he
  constructor
  · intro program
    rw [((hperm program).map _).nodup_iff]
    split
    · next howner =>
      subst howner
      refine List.nodup_cons.mpr ⟨fun hd => ?_, hs.distinct owner⟩
      obtain ⟨e, he, hname⟩ := List.mem_map.mp hd
      exact hasField_eq_false_iff.mp hfree e he hname
    · exact hs.distinct program
  · intro program e he
    rcases hmem he with rfl | he
    · exact find?_eq_none_of_checkFieldName hname
    · exact hs.notCore program e he
  · intro program e he
    rcases hmem he with rfl | he
    · exact hwell
    · exact hs.wellFormed program e he

/-- Every step keeps the names of each program's fields distinct. -/
theorem Catalogued.step (hs : s.Catalogued) (h : s.Step t) : t.Catalogued := by
  cases h with
  | flexAttribute program flex hid hprogram hname hchoices hfree =>
    refine hs.gain flex.descriptor flex.programId ?_ hname hfree ?_
    · intro program
      rw [registeredDescriptors, flexDescriptors_concat rfl]
      split
      -- the new field stands after the flex attributes and before the periodic fields
      · rw [List.append_assoc]
        exact List.perm_middle
      · exact .refl _
    · refine ⟨fun _ hne => ?_, nofun⟩
      have hne : flex.choices ≠ [] := hne
      change flex.valueType = .enum ∨ flex.valueType = .list
      rw [List.isEmpty_eq_false_iff.mpr hne, Bool.false_or] at hchoices
      cases hvalue : flex.valueType <;> simp_all [ValueType.hasChoices]
  | periodicField program field hid hprogram hname hrounds hsubtype hnames hfree =>
    refine hs.gain field.descriptor field.programId ?_ hname hfree ?_
    · intro program
      rw [registeredDescriptors, periodicDescriptors_concat rfl]
      split
      · rw [← List.append_assoc]
        exact List.perm_append_singleton _ _
      · exact .refl _
    · refine ⟨nofun, fun _ => ⟨field.spec, rfl, rfl, ?_, hrounds, hnames⟩⟩
      cases hvalue : field.spec.subtype <;> simp_all [ValueType.hasChoices]
  | unchanged => exact hs
  | program => exact ⟨hs.distinct, hs.notCore, hs.wellFormed⟩
  | household => exact ⟨hs.distinct, hs.notCore, hs.wellFormed⟩
  | withdrawHousehold => exact ⟨hs.distinct, hs.notCore, hs.wellFormed⟩
  | withdrawIndividual => exact ⟨hs.distinct, hs.notCore, hs.wellFormed⟩
  | recordRound => exact ⟨hs.distinct, hs.notCore, hs.wellFormed⟩

/-- In a reachable store the fields of each program have distinct names. -/
theorem Reachable.catalogued (h : s.Reachable) : s.Catalogued :=
  Reachable.induction catalogued_emptyAfter (fun _ _ hs hstep => hs.step hstep) h

/-- The schema of a program holds what the program registered, in whichever order it is listed. -/
theorem Catalogued.schemaOf_eq (hs : s.Catalogued) (program : Uuid) :
    s.schemaOf program =
      .ofDescriptors (s.flexDescriptors program) (s.periodicDescriptors program) := by
  have h := hs.distinct program
  rw [registeredDescriptors, List.map_append, List.nodup_append] at h
  have hflex : descriptorTable (s.flexDescriptors program) =
      descriptorTable ((s.flexAttributesOf program).map FlexAttribute.descriptor) :=
    descriptorTable_eq_of_perm ((sortedBy_perm _ _).map _).symm h.1
  have hperiodic : descriptorTable (s.periodicDescriptors program) =
      descriptorTable ((s.periodicFieldsOf program).map PeriodicField.descriptor) :=
    descriptorTable_eq_of_perm ((sortedBy_perm _ _).map _).symm h.2.1
  rw [Schema.ofDescriptors, hflex, hperiodic]
  rfl

/-- The schema of a program is coherent. -/
theorem Catalogued.coherent (hs : s.Catalogued) (program : Uuid) :
    (s.schemaOf program).Coherent := by
  rw [hs.schemaOf_eq]
  refine Schema.coherent_ofDescriptors (hs.distinct program) (hs.notCore program) ?_ ?_
  · exact List.forall_mem_map.mpr fun _ _ => rfl
  · exact List.forall_mem_map.mpr fun _ _ => rfl

/-- The fields of a program are the core fields and those that it registered. -/
theorem Catalogued.mem_fields (hs : s.Catalogued) {d : FieldDescriptor} :
    d ∈ (s.schemaOf program).fields ↔
      d ∈ coreDescriptors ∨ d ∈ s.registeredDescriptors program := by
  rw [hs.schemaOf_eq, (Schema.fields_ofDescriptors_perm (hs.distinct program)).mem_iff,
    List.mem_append]
  rfl

/-- A listed core field is found by its name. -/
theorem Catalogued.exists_coreField (hs : s.Catalogued) {d : FieldDescriptor}
    (hd : d ∈ (s.schemaOf program).fields) (hcore : d.classification = .core) :
    ∃ field, CoreField.find? d.name = some field := by
  obtain ⟨c, hc⟩ := Schema.mem_fields.mp hd
  obtain rfl := (hs.coherent program).classified c d hc
  rw [hcore] at hc
  have hd : d ∈ coreDescriptors := mem_of_mem_descriptorTable hc
  cases hfound : CoreField.find? d.name with
  | some field => exact ⟨field, rfl⟩
  | none => exact absurd rfl (CoreField.find?_eq_none_iff.mp hfound d hd)

/-- Every field of a program is well stated. -/
theorem Catalogued.wellFormed_of_mem (hs : s.Catalogued) {d : FieldDescriptor}
    (hd : d ∈ (s.schemaOf program).fields) : d.WellFormed := by
  rcases hs.mem_fields.mp hd with hd | hd
  · obtain ⟨f, -, rfl⟩ := List.mem_map.mp hd
    exact ⟨nofun, nofun⟩
  · exact hs.wellFormed program d hd

/-- The fields of a program that exists are those of its schema. -/
theorem fieldDescriptors_eq {p : Program} (h : s.program? program = some p) :
    s.fieldDescriptors program = .ok (s.schemaOf program).fields := by
  rw [fieldDescriptors, requireProgram_eq_ok_iff.mpr h]
  rfl

/-- One program has one more field, at one place among its fields, and the fields of every other
program are what they were. -/
structure AddsField (s t : Store) (program : Uuid) (d : FieldDescriptor) : Prop where
  listed : ∃ before after, s.fieldDescriptors program = .ok (before ++ after) ∧
    t.fieldDescriptors program = .ok (before ++ d :: after)
  others : ∀ other, other ≠ program → t.fieldDescriptors other = s.fieldDescriptors other

/-- What registering a field comes to: where it is answered the program has the field in addition,
and where it is refused the store is what it was. -/
structure Registers (s : Store) (program : Uuid) (d : FieldDescriptor)
    (outcome : Except Failure Answer × Database) : Prop where
  answered : ∀ answer, outcome.1 = .ok answer →
    ∃ t, outcome.2 = ⟨some t⟩ ∧ s.AddsField t program d
  refused : ∀ failure, outcome.1 = .error failure → outcome.2 = ⟨some s⟩

/-- Where programs stay, a field that joins the schema of one program alone is added to this
program. -/
theorem addsField_of_schemaOf {p : Program} {d : FieldDescriptor}
    (hprograms : t.programs = s.programs) (hp : s.program? program = some p)
    (hfields : ∃ before after, (s.schemaOf program).fields = before ++ after ∧
      (t.schemaOf program).fields = before ++ d :: after)
    (hothers : ∀ other, other ≠ program → t.schemaOf other = s.schemaOf other) :
    s.AddsField t program d := by
  have hfound (id : Uuid) : t.program? id = s.program? id := by
    rw [program?, hprograms, program?]
  constructor
  · obtain ⟨before, after, hbefore, hafter⟩ := hfields
    refine ⟨before, after, ?_, ?_⟩
    · rw [fieldDescriptors_eq hp, hbefore]
    · rw [fieldDescriptors_eq ((hfound program).trans hp), hafter]
  · intro other hother
    rw [fieldDescriptors, fieldDescriptors, requireProgram, requireProgram, hfound,
      hothers other hother]

/-- A registered flex attribute is added to its program. -/
theorem Catalogued.addsField_flexAttribute (hs : s.Catalogued) {now : Moment}
    {input : NewFlexAttribute} {flex : FlexAttribute}
    (h : s.createFlexAttribute now program input = .ok (flex, t)) :
    s.AddsField t program input.descriptor := by
  have ht : t.Catalogued := hs.step (step_createFlexAttribute h)
  obtain ⟨⟨p, hp⟩, -, -, hfree, rfl, hstore⟩ := createFlexAttribute_eq_ok_iff.mp h
  have hflex (other : Uuid) : t.flexDescriptors other =
      if program = other then s.flexDescriptors other ++ [input.descriptor]
      else s.flexDescriptors other := by
    rw [flexDescriptors_concat (congrArg flexAttributes hstore)]
    rfl
  have hperiodic (other : Uuid) : t.periodicDescriptors other = s.periodicDescriptors other := by
    rw [hstore]
    rfl
  refine addsField_of_schemaOf (by rw [hstore]) hp ?_ fun other hother => ?_
  · rw [hs.schemaOf_eq, ht.schemaOf_eq, hflex, hperiodic, if_pos rfl]
    refine Schema.exists_fields_concat_flex fun e he => ?_
    exact hasField_eq_false_iff.mp hfree e (List.mem_append_left _ he)
  · rw [hs.schemaOf_eq, ht.schemaOf_eq, hflex, hperiodic, if_neg (Ne.symm hother)]

/-- A registered periodic field is added to its program. -/
theorem Catalogued.addsField_periodicField (hs : s.Catalogued) {now : Moment}
    {input : NewPeriodicField} {field : PeriodicField}
    (h : s.createPeriodicField now program input = .ok (field, t)) :
    s.AddsField t program input.descriptor := by
  have ht : t.Catalogued := hs.step (step_createPeriodicField h)
  obtain ⟨⟨p, hp⟩, -, -, -, -, hfree, rfl, hstore⟩ := createPeriodicField_eq_ok_iff.mp h
  have hflex (other : Uuid) : t.flexDescriptors other = s.flexDescriptors other := by
    rw [hstore]
    rfl
  have hperiodic (other : Uuid) : t.periodicDescriptors other =
      if program = other then s.periodicDescriptors other ++ [input.descriptor]
      else s.periodicDescriptors other := by
    rw [periodicDescriptors_concat (congrArg periodicFields hstore)]
    rfl
  refine addsField_of_schemaOf (by rw [hstore]) hp ?_ fun other hother => ?_
  · rw [hs.schemaOf_eq, ht.schemaOf_eq, hflex, hperiodic, if_pos rfl]
    refine Schema.exists_fields_concat_periodic fun e he => ?_
    exact hasField_eq_false_iff.mp hfree e (List.mem_append_right _ he)
  · rw [hs.schemaOf_eq, ht.schemaOf_eq, hflex, hperiodic, if_neg (Ne.symm hother)]

/-- An operation registers a field when the field is added wherever the operation is answered. -/
theorem registers_of_run {now : Moment} {operation : Operation} {d : FieldDescriptor}
    (h : ∀ answer t, s.run now operation = .ok (answer, t) → s.AddsField t program d) :
    s.Registers program d ((Database.mk (some s)).run now operation) := by
  unfold Database.run
  dsimp only
  cases hrun : s.run now operation with
  | error failure =>
    refine ⟨fun answer hanswer => ?_, fun _ _ => rfl⟩
    cases hanswer
  | ok result =>
    refine ⟨fun _ _ => ⟨result.2, rfl, h result.1 result.2 hrun⟩, fun failure hfailure => ?_⟩
    cases hfailure

/-- In a reachable store a name refers to one field of a program. The fields of a program have
distinct names, over core fields, flex attributes and periodic fields together, and each is well
stated. So a name resolves under the classification of its field alone, any other classification is
answered by that one, and a name that is not listed is unknown. Registering a flex attribute or a
periodic field adds the field that was stated, and refusing it changes nothing. -/
theorem one_field_of_each_name (hs : s.Reachable) (program : Uuid) :
    (∀ p, s.program? program = some p →
      s.fieldDescriptors program = .ok (s.schemaOf program).fields) ∧
    ((s.schemaOf program).fields.map FieldDescriptor.name).Nodup ∧
    (∀ d ∈ (s.schemaOf program).fields, d.WellFormed) ∧
    (s.schemaOf program).ResolvesNames ∧
    (∀ now input, s.Registers program input.descriptor
      ((Database.mk (some s)).run now (.createFlexAttribute program input))) ∧
    ∀ now input, s.Registers program input.descriptor
      ((Database.mk (some s)).run now (.createPeriodicField program input)) := by
  have hs := hs.catalogued
  have hcoherent := hs.coherent program
  refine ⟨fun p hp => fieldDescriptors_eq hp, hcoherent.distinct,
    fun d hd => hs.wellFormed_of_mem hd, hcoherent.resolvesNames, fun now input => ?_,
    fun now input => ?_⟩
  · refine registers_of_run fun answer t h => ?_
    obtain ⟨created, hcreated, heq⟩ := map_eq_ok_iff.mp h
    obtain ⟨-, rfl⟩ := Prod.mk.inj heq
    exact hs.addsField_flexAttribute hcreated
  · refine registers_of_run fun answer t h => ?_
    obtain ⟨created, hcreated, heq⟩ := map_eq_ok_iff.mp h
    obtain ⟨-, rfl⟩ := Prod.mk.inj heq
    exact hs.addsField_periodicField hcreated

/-- A shelter to choose, a flex attribute of households. -/
def shelter : NewFlexAttribute :=
  { name := "shelter"
    owner := .household
    valueType := .enum
    label := none
    choices := ["TENT", "HOUSE"] }

/-- A measured arm circumference, a periodic field of individuals with two rounds. -/
def armCircumference : NewPeriodicField :=
  { name := "muac"
    owner := none
    label := some "Arm circumference"
    subtype := .number
    numberOfRounds := 2
    roundNames := ["Baseline"] }

/-- A program registers a flex attribute and a periodic field. -/
def catalogCalls : List Call :=
  [ .createProgram { name := "Food", businessArea := "A", mode := none },
    .createFlexAttribute (idAfter 0) shelter,
    .createPeriodicField (idAfter 0) armCircumference
  ].map fun operation => { now := exampleMoment, operation }

/-- The store that the calls leave behind. -/
def catalogStore : Store :=
  ((Database.unmade.migrateAfter 0).after catalogCalls).tables.getD .empty

/-- The store of the calls is reachable. -/
theorem catalogStore_reachable : catalogStore.Reachable := reachable_after catalogCalls

/-- The name of the periodic field is that of no flex attribute, and none is registered under it; a
name that nothing has is unknown. -/
theorem catalogStore_names :
    catalogStore.Reachable ∧
      armCircumference.descriptor ∈ (catalogStore.schemaOf (idAfter 0)).fields ∧
      (catalogStore.schemaOf (idAfter 0)).resolve "muac" .periodic =
        .ok armCircumference.descriptor ∧
      (catalogStore.schemaOf (idAfter 0)).resolve "muac" .flex =
        .error (.classificationMismatch "muac" .flex .periodic) ∧
      (catalogStore.schemaOf (idAfter 0)).resolve "weight" .core = .error (.unknownField "weight") ∧
      ((Database.mk (some catalogStore)).run exampleMoment
        (.createFlexAttribute (idAfter 0) { shelter with name := "muac" })).2 =
          ⟨some catalogStore⟩ := by
  obtain ⟨-, -, -, hresolves, hregisters, -⟩ :=
    one_field_of_each_name catalogStore_reachable (idAfter 0)
  have hlisted : armCircumference.descriptor ∈ (catalogStore.schemaOf (idAfter 0)).fields := by
    decide +kernel
  have hunlisted : ∀ d ∈ (catalogStore.schemaOf (idAfter 0)).fields, d.name ≠ "weight" := by
    decide +kernel
  have hrefused : ((Database.mk (some catalogStore)).run exampleMoment
      (.createFlexAttribute (idAfter 0) { shelter with name := "muac" })).1 =
        .error (.fieldNameTaken "muac") := by
    cbv
  exact ⟨catalogStore_reachable, hlisted, hresolves.listed _ hlisted .periodic,
    hresolves.listed _ hlisted .flex, hresolves.unlisted _ hunlisted .core,
    (hregisters exampleMoment _).refused _ hrefused⟩

end Store

end Beneficiary
