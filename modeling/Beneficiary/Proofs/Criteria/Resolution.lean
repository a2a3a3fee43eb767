import Beneficiary.Proofs.Criteria.Schema

/-!
# Resolution in the schema of any fields

The fields that a schema is made of may share names, within a classification, across two, and with
the core fields. The last of a name counts in each classification, the tables ascend by name all the
same, and every field that is listed is the one that its own name and classification refer to. A name
that the declared classification does not have is looked for in the others, in the order in which they
are listed.
-/

namespace Beneficiary

variable {d e : FieldDescriptor} {fields table : List FieldDescriptor} {name : String}

/-- A field is the last of a name in a list of fields. -/
def IsLastNamed (name : String) (fields : List FieldDescriptor) (d : FieldDescriptor) : Prop :=
  d.name = name ∧ ∃ before after, fields = before ++ d :: after ∧ ∀ e ∈ after, e.name ≠ name

/-- The last field of a name is the first from the end. -/
theorem descriptorNamed?_reverse_eq_some_iff :
    descriptorNamed? name fields.reverse = some d ↔ IsLastNamed name fields d := by
  rw [descriptorNamed?, List.find?_eq_some_iff_append, IsLastNamed, beq_iff_eq]
  refine and_congr_right fun _ => ?_
  constructor
  · rintro ⟨after, before, hfields, hafter⟩
    refine ⟨before.reverse, after.reverse, ?_, fun e he => ?_⟩
    · rw [← List.reverse_reverse fields, hfields]
      simp
    · simpa using hafter e (List.mem_reverse.mp he)
  · rintro ⟨before, after, rfl, hafter⟩
    refine ⟨after.reverse, before.reverse, by simp, fun e he => ?_⟩
    simpa using hafter e (List.mem_reverse.mp he)

/-- Some field is the last of a name exactly when some field has it. -/
theorem exists_isLastNamed_iff :
    (∃ d, IsLastNamed name fields d) ↔ ∃ d ∈ fields, d.name = name := by
  simp only [← descriptorNamed?_reverse_eq_some_iff, ← Option.isSome_iff_exists, descriptorNamed?,
    List.find?_isSome, List.mem_reverse, beq_iff_eq]

/-- The first field of a list is found by its name, and other names are looked for in the rest. -/
theorem descriptorNamed?_cons :
    descriptorNamed? name (d :: table) =
      if d.name = name then some d else descriptorNamed? name table := by
  rw [descriptorNamed?, List.find?_cons]
  by_cases hd : d.name = name
  · rw [beq_iff_eq.mpr hd, if_pos hd]
  · rw [beq_false_of_ne hd, if_neg hd, descriptorNamed?]

/-- A field put into a table is found by its name, and all other names find what they found before. -/
theorem descriptorNamed?_insertDescriptor :
    descriptorNamed? name (insertDescriptor d table) =
      if d.name = name then some d else descriptorNamed? name table := by
  induction table with
  | nil => exact descriptorNamed?_cons
  | cons first rest ih =>
    rw [insertDescriptor]
    split
    · next hlt =>
      rw [descriptorNamed?_cons, ih, descriptorNamed?_cons]
      by_cases hfirst : first.name = name
      · -- The field goes past one of a smaller name, so it has another name than this.
        have hne : d.name ≠ name := hfirst ▸ ne_of_gt hlt
        rw [if_pos hfirst, if_neg hne, if_pos hfirst]
      · rw [if_neg hfirst, if_neg hfirst]
    · split
      · next heq =>
        rw [descriptorNamed?_cons, descriptorNamed?_cons, heq]
        by_cases hd : d.name = name
        · rw [if_pos hd, if_pos hd]
        · rw [if_neg hd, if_neg hd, if_neg hd]
      · exact descriptorNamed?_cons

/-- In the table of a list of fields a name finds the last field that has it. -/
theorem descriptorNamed?_descriptorTable (name : String) (fields : List FieldDescriptor) :
    descriptorNamed? name (descriptorTable fields) = descriptorNamed? name fields.reverse := by
  induction fields using List.reverseRecOn with
  | nil => rfl
  | append_singleton fields d ih =>
    rw [descriptorTable_concat, descriptorNamed?_insertDescriptor, ih, List.reverse_concat,
      descriptorNamed?_cons]

/-- The fields that a schema is made of, by classification. -/
def ProgramFields.descriptors (fields : ProgramFields) : FieldClassification → List FieldDescriptor
  | .core => coreDescriptors
  | .flex => fields.flexAttributes.map FlexAttribute.descriptor
  | .periodic => fields.periodicFields.map PeriodicField.descriptor

/-- Some field of a classification has a name. -/
def ProgramFields.HasName (fields : ProgramFields) (name : String) (c : FieldClassification) :
    Prop :=
  ∃ d ∈ fields.descriptors c, d.name = name

instance (fields : ProgramFields) (name : String) (c : FieldClassification) :
    Decidable (fields.HasName name c) :=
  inferInstanceAs (Decidable (∃ d ∈ fields.descriptors c, d.name = name))

/-- A classification is the first, apart from the declared one, that has a name. -/
def ProgramFields.IsFirstOther (fields : ProgramFields) (name : String)
    (declared actual : FieldClassification) : Prop :=
  actual ≠ declared ∧ fields.HasName name actual ∧
    ∃ before after, FieldClassification.all = before ++ actual :: after ∧
      ∀ c ∈ before, c = declared ∨ ¬ fields.HasName name c

namespace Schema

variable {given : ProgramFields} {declared actual c : FieldClassification}

/-- Each table is that of the fields given. -/
theorem table_ofFields (given : ProgramFields) (c : FieldClassification) :
    (ofFields given).table c = descriptorTable (given.descriptors c) := by
  cases c <;> rfl

/-- A name finds the last field of it that was given. -/
theorem find?_eq_some_iff_isLastNamed :
    (ofFields given).find? name c = some d ↔ IsLastNamed name (given.descriptors c) d := by
  rw [find?, table_ofFields, descriptorNamed?_descriptorTable, descriptorNamed?_reverse_eq_some_iff]

/-- A name resolves to the last field of it that was given under the declared classification. -/
theorem resolve_eq_ok_iff_isLastNamed :
    (ofFields given).resolve name c = .ok d ↔ IsLastNamed name (given.descriptors c) d :=
  resolve_eq_ok_iff.trans find?_eq_some_iff_isLastNamed

/-- A field of a name was given exactly when the table of the classification has one. -/
theorem hasName_iff : given.HasName name c ↔ ∃ d ∈ (ofFields given).table c, d.name = name := by
  rw [ProgramFields.HasName, ← exists_isLastNamed_iff]
  simp only [← find?_eq_some_iff_isLastNamed, find?_ofFields_eq_some_iff]

/-- No field of a name was given exactly when none is found by it. -/
theorem not_hasName_iff :
    ¬ given.HasName name c ↔ ∀ d ∈ (ofFields given).table c, d.name ≠ name := by
  rw [hasName_iff]
  push Not
  rfl

/-- The classification named instead of the declared one is the first other that has the name. -/
theorem otherClassification?_eq_some_iff_isFirstOther (hdeclared : ¬ given.HasName name declared) :
    (ofFields given).otherClassification? name declared = some actual ↔
      given.IsFirstOther name declared actual := by
  have hnone := find?_eq_none_iff.mpr (not_hasName_iff.mp hdeclared)
  simp only [otherClassification?_eq_some_iff hnone, ← hasName_iff, ← not_hasName_iff]
  constructor
  · rintro ⟨hactual, before, after, hall, hearlier⟩
    exact ⟨fun h => hdeclared (h ▸ hactual), hactual, before, after, hall,
      fun c hc => .inr (hearlier c hc)⟩
  · rintro ⟨-, hactual, before, after, hall, hearlier⟩
    refine ⟨hactual, before, after, hall, fun c hc => ?_⟩
    rcases hearlier c hc with rfl | hnot
    · exact hdeclared
    · exact hnot

/-- No other classification is named exactly when none has the name. -/
theorem otherClassification?_eq_none_iff_hasName (hdeclared : ¬ given.HasName name declared) :
    (ofFields given).otherClassification? name declared = none ↔ ∀ c, ¬ given.HasName name c := by
  rw [otherClassification?_eq_none_iff (find?_eq_none_iff.mpr (not_hasName_iff.mp hdeclared))]
  simp only [not_hasName_iff, mem_fields]
  constructor
  · exact fun h c d hd => h d ⟨c, hd⟩
  · rintro h d ⟨c, hd⟩
    exact h c d hd

/-- A name that the declared classification does not have is refused, by the first other
classification that has it, or as unknown. -/
theorem resolve_eq_error_iff {error : ConditionError} :
    (ofFields given).resolve name declared = .error error ↔
      ¬ given.HasName name declared ∧
        ((∃ actual, given.IsFirstOther name declared actual ∧
            error = .classificationMismatch name declared actual) ∨
          (∀ c, ¬ given.HasName name c) ∧ error = .unknownField name) := by
  by_cases hdeclared : given.HasName name declared
  · obtain ⟨d, hd⟩ := exists_isLastNamed_iff.mpr hdeclared
    rw [resolve_eq_ok_iff_isLastNamed.mpr hd]
    exact ⟨nofun, fun h => absurd hdeclared h.1⟩
  · have hnone := find?_eq_none_iff.mpr (not_hasName_iff.mp hdeclared)
    rw [resolve_eq_of_unlisted hnone]
    simp only [hdeclared, not_false_eq_true, true_and,
      ← otherClassification?_eq_some_iff_isFirstOther hdeclared,
      ← otherClassification?_eq_none_iff_hasName hdeclared]
    cases (ofFields given).otherClassification? name declared <;> simp [eq_comm]

/-- The listed fields of a classification. -/
def listed (schema : Schema) (c : FieldClassification) : List FieldDescriptor :=
  schema.fields.filter fun d => d.classification = c

/-- The listed fields of a classification are those of its table. -/
theorem listed_ofFields (given : ProgramFields) (c : FieldClassification) :
    (ofFields given).listed c = (ofFields given).table c := by
  have hfilter (c' : FieldClassification) :
      ((ofFields given).table c').filter (fun d => d.classification = c) =
        if c' = c then (ofFields given).table c' else [] := by
    split
    · next h =>
      refine List.filter_eq_self.mpr fun d hd => ?_
      exact decide_eq_true ((classification_of_mem_table hd).trans h)
    · next h =>
      refine List.filter_eq_nil_iff.mpr fun d hd => ?_
      rw [classification_of_mem_table hd, decide_eq_true_eq]
      exact h
  have hcore := hfilter .core
  have hflex := hfilter .flex
  have hperiodic := hfilter .periodic
  rw [listed, fields, List.filter_append, List.filter_append]
  simp only [table] at hcore hflex hperiodic ⊢
  rw [hcore, hflex, hperiodic]
  cases c <;> simp

/-- All fields are listed by classification, in order. -/
theorem fields_ofFields (given : ProgramFields) :
    (ofFields given).fields = FieldClassification.all.flatMap (ofFields given).listed := by
  simp [FieldClassification.all, listed_ofFields, fields, table]

/-- A field is listed when it is the last of its name that was given under its classification. -/
theorem mem_fields_iff_isLastNamed :
    d ∈ (ofFields given).fields ↔ IsLastNamed d.name (given.descriptors d.classification) d := by
  rw [mem_fields, ← find?_eq_some_iff_isLastNamed, find?_ofFields_eq_some_iff]
  constructor
  · rintro ⟨c, hd⟩
    rw [classification_of_mem_table hd]
    exact ⟨hd, rfl⟩
  · exact fun h => ⟨_, h.1⟩

/-- A listed periodic field has the type of its rounds. -/
theorem exists_periodic_of_mem_fields (h : d ∈ (ofFields given).fields)
    (hperiodic : d.classification = .periodic) :
    ∃ spec, d.periodic = some spec ∧ d.valueType = spec.subtype := by
  obtain ⟨c, hd⟩ := mem_fields.mp h
  obtain ⟨-, f, -, rfl⟩ | ⟨-, a, -, rfl⟩ | ⟨-, f, -, rfl⟩ := mem_table_ofFields hd
  · cases hperiodic
  · cases hperiodic
  · exact ⟨f.spec, rfl, rfl⟩

/-- Resolution in the schema of any fields, whatever names they share. The fields are listed by
classification, each strictly ascending by name, and a listed field is what its own name and
classification refer to. A name resolves under a classification when a field of it was given there,
to the last such field; otherwise it is refused by the first other classification that has it, or is
unknown when none has. Periodic fields have the type of their rounds. -/
theorem last_given_counts (given : ProgramFields) :
    ((ofFields given).fields = FieldClassification.all.flatMap (ofFields given).listed ∧
      ∀ c, ((ofFields given).listed c).Pairwise (fun a b => a.name < b.name) ∧
        (((ofFields given).listed c).map FieldDescriptor.name).Nodup) ∧
    (∀ d ∈ (ofFields given).fields, (ofFields given).resolve d.name d.classification = .ok d) ∧
    (∀ name declared,
      ((∃ d, (ofFields given).resolve name declared = .ok d) ↔ given.HasName name declared) ∧
      (∀ d, (ofFields given).resolve name declared = .ok d ↔
        IsLastNamed name (given.descriptors declared) d) ∧
      ∀ error, (ofFields given).resolve name declared = .error error ↔
        ¬ given.HasName name declared ∧
          ((∃ actual, given.IsFirstOther name declared actual ∧
              error = .classificationMismatch name declared actual) ∨
            (∀ c, ¬ given.HasName name c) ∧ error = .unknownField name)) ∧
    ∀ d ∈ (ofFields given).fields, d.classification = .periodic →
      ∃ spec, d.periodic = some spec ∧ d.valueType = spec.subtype := by
  refine ⟨⟨fields_ofFields given, fun c => ?_⟩, fun d hd => ?_, fun name declared => ?_,
    fun d hd => exists_periodic_of_mem_fields hd⟩
  · have hascending := pairwise_table_ofFields given c
    rw [listed_ofFields]
    exact ⟨hascending, List.pairwise_map.mpr (hascending.imp fun hlt => ne_of_lt hlt)⟩
  · exact resolve_eq_ok_iff_isLastNamed.mpr (mem_fields_iff_isLastNamed.mp hd)
  · refine ⟨?_, fun d => resolve_eq_ok_iff_isLastNamed, fun error => resolve_eq_error_iff⟩
    simp only [resolve_eq_ok_iff_isLastNamed]
    exact exists_isLastNamed_iff

/-- The moment at which the example fields are registered. -/
def registrationMoment : Moment := ⟨⟨2022, 11, 9, by decide⟩, ⟨45296, 0, by decide⟩⟩

/-- A flex attribute of numbers. -/
def exampleAttribute (name : String) (label : Option String) : FlexAttribute :=
  { id := ⟨1⟩, programId := ⟨0⟩, name, owner := .household, valueType := .number, label
    choices := [], createdAt := registrationMoment }

/-- Fields that share names: a flex attribute has that of a core field, two have another, and so has
a periodic field. -/
def sharedNames : ProgramFields :=
  { flexAttributes := [exampleAttribute "muac" none, exampleAttribute "muac" (some "Arm"),
      exampleAttribute "size" none]
    periodicFields :=
      [{ id := ⟨2⟩, programId := ⟨0⟩, name := "muac", owner := .individual, label := none
         spec := { numberOfRounds := 2, roundNames := [], subtype := .date }
         createdAt := registrationMoment }] }

/-- Of two flex attributes of one name the second counts. A name that core fields and flex attributes
have is refused by the core field where a periodic field is declared, and a name that nothing has is
unknown. -/
theorem sharedNames_resolve :
    (ofFields sharedNames).resolve "muac" .flex =
        .ok (exampleAttribute "muac" (some "Arm")).descriptor ∧
      (ofFields sharedNames).resolve "size" .periodic =
        .error (.classificationMismatch "size" .periodic .core) ∧
      (ofFields sharedNames).resolve "muac" .core =
        .error (.classificationMismatch "muac" .core .flex) ∧
      (ofFields sharedNames).resolve "weight" .flex = .error (.unknownField "weight") := by
  obtain ⟨-, -, hresolves, -⟩ := last_given_counts sharedNames
  have hlast : IsLastNamed "muac" (sharedNames.descriptors .flex)
      (exampleAttribute "muac" (some "Arm")).descriptor :=
    ⟨rfl, [(exampleAttribute "muac" none).descriptor], [(exampleAttribute "size" none).descriptor],
      rfl, by decide⟩
  have hcore : sharedNames.IsFirstOther "size" .periodic .core :=
    ⟨by decide, by decide +kernel, [], [.flex, .periodic], rfl, by simp⟩
  have hflex : sharedNames.IsFirstOther "muac" .core .flex :=
    ⟨by decide, by decide +kernel, [.core], [.periodic], rfl, by simp⟩
  have hnone : ∀ c, ¬ sharedNames.HasName "weight" c := by
    intro c
    cases c <;> decide +kernel
  exact ⟨((hresolves _ _).2.1 _).mpr hlast,
    ((hresolves _ _).2.2 _).mpr ⟨by decide +kernel, .inl ⟨.core, hcore, rfl⟩⟩,
    ((hresolves _ _).2.2 _).mpr ⟨by decide +kernel, .inl ⟨.flex, hflex, rfl⟩⟩,
    ((hresolves _ _).2.2 _).mpr ⟨hnone .flex, .inr ⟨hnone, rfl⟩⟩⟩

end Schema

end Beneficiary
