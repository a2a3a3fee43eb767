import Beneficiary.Criteria.Schema
import Beneficiary.Proofs.Keys

/-!
# Lookup in a schema

A table of fields is built by sorted insertion, so it ascends strictly by name; from fields of
distinct names it keeps them all, and one more field goes to a single place of it. A schema is
coherent when its tables hold the fields of their classification and no name stands in two places.
There a name refers to one field, under the classification of that field only.
-/

namespace Beneficiary

variable {d e : FieldDescriptor} {table : List FieldDescriptor}

/-- A table with a field put into it holds that field and fields that it held before. -/
theorem mem_of_mem_insertDescriptor (h : e ∈ insertDescriptor d table) : e = d ∨ e ∈ table := by
  induction table with
  | nil => exact .inl (List.mem_singleton.mp h)
  | cons first rest ih =>
    unfold insertDescriptor at h
    split at h
    · rcases List.mem_cons.mp h with rfl | h
      · exact .inr List.mem_cons_self
      · exact (ih h).imp_right (List.mem_cons_of_mem first)
    · split at h
      · exact (List.mem_cons.mp h).imp_right (List.mem_cons_of_mem first)
      · exact List.mem_cons.mp h

/-- Putting a field into a table keeps it strictly ascending. -/
theorem pairwise_insertDescriptor (h : table.Pairwise fun a b => a.name < b.name) :
    (insertDescriptor d table).Pairwise fun a b => a.name < b.name := by
  induction table with
  | nil => exact List.pairwise_singleton _ _
  | cons first rest ih =>
    obtain ⟨hfirst, hrest⟩ := List.pairwise_cons.mp h
    unfold insertDescriptor
    split
    · next hlt =>
      refine List.pairwise_cons.mpr ⟨fun e he => ?_, ih hrest⟩
      rcases mem_of_mem_insertDescriptor he with rfl | he
      · exact hlt
      · exact hfirst e he
    · next hlt =>
      split
      · next heq => exact List.pairwise_cons.mpr ⟨fun e he => heq ▸ hfirst e he, hrest⟩
      · next hne =>
        have hgt : d.name < first.name := lt_of_le_of_ne (not_lt.mp hlt) (Ne.symm hne)
        refine List.pairwise_cons.mpr ⟨fun e he => ?_, h⟩
        rcases List.mem_cons.mp he with rfl | he
        · exact hgt
        · exact hgt.trans (hfirst e he)

/-- A field of a new name goes to one place of a table. -/
theorem exists_insertDescriptor_eq (hnew : ∀ e ∈ table, e.name ≠ d.name) :
    ∃ before after, table = before ++ after ∧ insertDescriptor d table = before ++ d :: after := by
  induction table with
  | nil => exact ⟨[], [], rfl, rfl⟩
  | cons first rest ih =>
    obtain ⟨hfirst, hrest⟩ := List.forall_mem_cons.mp hnew
    unfold insertDescriptor
    by_cases hlt : first.name < d.name
    · obtain ⟨before, after, rfl, hinsert⟩ := ih hrest
      exact ⟨first :: before, after, rfl, by rw [if_pos hlt, hinsert, List.cons_append]⟩
    · exact ⟨[], first :: rest, rfl, by rw [if_neg hlt, if_neg hfirst, List.nil_append]⟩

/-- The table of fields with one more is their table with this field put into it. -/
theorem descriptorTable_concat (fields : List FieldDescriptor) (d : FieldDescriptor) :
    descriptorTable (fields ++ [d]) = insertDescriptor d (descriptorTable fields) :=
  List.foldl_append

/-- A table ascends strictly by name. -/
theorem pairwise_descriptorTable (fields : List FieldDescriptor) :
    (descriptorTable fields).Pairwise fun a b => a.name < b.name := by
  induction fields using List.reverseRecOn with
  | nil => exact .nil
  | append_singleton fields d ih =>
    rw [descriptorTable_concat]
    exact pairwise_insertDescriptor ih

/-- A table holds nothing but the fields that it was built from. -/
theorem mem_of_mem_descriptorTable {fields : List FieldDescriptor}
    (h : d ∈ descriptorTable fields) : d ∈ fields := by
  induction fields using List.reverseRecOn with
  | nil => exact h
  | append_singleton fields e ih =>
    rw [descriptorTable_concat] at h
    rcases mem_of_mem_insertDescriptor h with rfl | h
    · exact List.mem_append_right _ (List.mem_singleton_self d)
    · exact List.mem_append_left _ (ih h)

/-- One more field of a new name goes to one place of the table. -/
theorem exists_descriptorTable_concat {fields : List FieldDescriptor}
    (hnew : ∀ e ∈ fields, e.name ≠ d.name) :
    ∃ before after, descriptorTable fields = before ++ after ∧
      descriptorTable (fields ++ [d]) = before ++ d :: after := by
  rw [descriptorTable_concat]
  exact exists_insertDescriptor_eq fun e he => hnew e (mem_of_mem_descriptorTable he)

/-- Fields of distinct names are all kept in their table. -/
theorem descriptorTable_perm {fields : List FieldDescriptor}
    (h : (fields.map FieldDescriptor.name).Nodup) : (descriptorTable fields).Perm fields := by
  induction fields using List.reverseRecOn with
  | nil => exact .nil
  | append_singleton fields d ih =>
    rw [List.map_append, List.map_singleton] at h
    obtain ⟨hfields, -, hnew⟩ := List.nodup_append.mp h
    have hfree : ∀ e ∈ fields, e.name ≠ d.name := fun e he =>
      hnew _ (List.mem_map_of_mem he) _ (List.mem_singleton_self _)
    obtain ⟨before, after, htable, hconcat⟩ := exists_descriptorTable_concat hfree
    have hperm := ih hfields
    rw [htable] at hperm
    rw [hconcat]
    calc
      (before ++ d :: after).Perm (d :: (before ++ after)) := List.perm_middle
      (d :: (before ++ after)).Perm (d :: fields) := hperm.cons d
      (d :: fields).Perm (fields ++ [d]) := (List.perm_append_singleton d fields).symm

/-- In a table a field is found by its name exactly when it stands there. -/
theorem descriptorNamed?_eq_some_iff (h : table.Pairwise fun a b => a.name < b.name)
    {name : String} : descriptorNamed? name table = some d ↔ d ∈ table ∧ d.name = name := by
  have hnodup : (table.map FieldDescriptor.name).Nodup :=
    List.pairwise_map.mpr (h.imp fun hlt => ne_of_lt hlt)
  constructor
  · intro hfound
    exact ⟨List.mem_of_find?_eq_some hfound, by simpa using List.find?_some hfound⟩
  · rintro ⟨hd, rfl⟩
    have hfound := find?_key hnodup hd fun _ => true
    simpa [descriptorNamed?] using hfound

/-- The table of fields of distinct names does not depend on their order. -/
theorem descriptorTable_eq_of_perm {fields others : List FieldDescriptor}
    (hperm : fields.Perm others) (h : (fields.map FieldDescriptor.name).Nodup) :
    descriptorTable fields = descriptorTable others := by
  have hothers : (others.map FieldDescriptor.name).Nodup := (hperm.map _).nodup_iff.mp h
  refine ((descriptorTable_perm h).trans (hperm.trans (descriptorTable_perm hothers).symm))
    |>.eq_of_pairwise ?_ (pairwise_descriptorTable fields) (pairwise_descriptorTable others)
  intro a b _ _ hab hba
  exact absurd hab (lt_asymm hba)

/-- The core fields as fields of a schema. -/
def coreDescriptors : List FieldDescriptor := CoreField.all.map CoreField.descriptor

/-- Core fields have distinct names. -/
theorem nodup_name_coreDescriptors : (coreDescriptors.map FieldDescriptor.name).Nodup := by
  decide

/-- A core field is found by its name. -/
theorem CoreField.find?_name {f : CoreField} (h : f ∈ CoreField.all) :
    CoreField.find? f.name = some f := by
  have hnodup : (CoreField.all.map CoreField.name).Nodup := by decide
  have hfound := find?_key hnodup h fun _ => true
  simpa [CoreField.find?] using hfound

/-- A name is that of no core field exactly when none is found by it. -/
theorem CoreField.find?_eq_none_iff {name : String} :
    CoreField.find? name = none ↔ ∀ d ∈ coreDescriptors, d.name ≠ name := by
  simp [CoreField.find?, coreDescriptors, CoreField.descriptor]

namespace Schema

variable {schema : Schema} {name : String} {c : FieldClassification}

/-- The tables of a schema hold the fields of their classification, and all names are distinct. -/
structure Coherent (schema : Schema) : Prop where
  classified : ∀ c, ∀ d ∈ schema.table c, d.classification = c
  distinct : (schema.fields.map FieldDescriptor.name).Nodup

/-- A name refers to one field: it is found under the classification of the field, under any other
the outcome names that classification, and a name that no field has is unknown. -/
structure ResolvesNames (schema : Schema) : Prop where
  listed : ∀ d ∈ schema.fields, ∀ c, schema.resolve d.name c =
    if c = d.classification then .ok d
    else .error (.classificationMismatch d.name c d.classification)
  unlisted : ∀ name, (∀ d ∈ schema.fields, d.name ≠ name) → ∀ c,
    schema.resolve name c = .error (.unknownField name)

/-- The fields of a schema are those of its tables. -/
theorem mem_fields : d ∈ schema.fields ↔ ∃ c, d ∈ schema.table c := by
  simp only [fields, List.mem_append]
  constructor
  · rintro ((h | h) | h)
    · exact ⟨.core, h⟩
    · exact ⟨.flex, h⟩
    · exact ⟨.periodic, h⟩
  · rintro ⟨c, h⟩
    cases c with
    | core => exact .inl (.inl h)
    | flex => exact .inl (.inr h)
    | periodic => exact .inr h

/-- A field that is found stands in the table and has the name. -/
theorem mem_of_find? (h : schema.find? name c = some d) : d ∈ schema.table c ∧ d.name = name := by
  unfold find? descriptorNamed? at h
  exact ⟨List.mem_of_find?_eq_some h, by simpa using List.find?_some h⟩

/-- No field is found exactly when the table has none of the name. -/
theorem find?_eq_none_iff : schema.find? name c = none ↔ ∀ d ∈ schema.table c, d.name ≠ name := by
  simp [find?, descriptorNamed?]

/-- A name resolves exactly to the field that is found for it. -/
theorem resolve_eq_ok_iff : schema.resolve name c = .ok d ↔ schema.find? name c = some d := by
  unfold resolve
  cases schema.find? name c with
  | none => cases schema.otherClassification? name c <;> simp
  | some e => simp

/-- A name that the declared classification does not have is had by no other exactly when nothing
listed has it. -/
theorem otherClassification?_eq_none_iff (hdeclared : schema.find? name c = none) :
    schema.otherClassification? name c = none ↔ ∀ d ∈ schema.fields, d.name ≠ name := by
  constructor
  · intro h d hd hname
    obtain ⟨c', hd⟩ := mem_fields.mp hd
    have hc' := List.find?_eq_none.mp h c' (by cases c' <;> decide)
    by_cases hc : c' = c
    · exact find?_eq_none_iff.mp hdeclared d (hc ▸ hd) hname
    · refine find?_eq_none_iff.mp ?_ d hd hname
      simpa [hc] using hc'
  · intro h
    refine List.find?_eq_none.mpr fun c' _ => ?_
    have hnone : schema.find? name c' = none :=
      find?_eq_none_iff.mpr fun d hd => h d (mem_fields.mpr ⟨c', hd⟩)
    simp [hnone]

/-- A name that the declared classification does not have is first had by another exactly when no
earlier one has it. -/
theorem otherClassification?_eq_some_iff {actual : FieldClassification}
    (hdeclared : schema.find? name c = none) :
    schema.otherClassification? name c = some actual ↔
      (∃ d ∈ schema.table actual, d.name = name) ∧
        ∃ before after, FieldClassification.all = before ++ actual :: after ∧
          ∀ c ∈ before, ∀ d ∈ schema.table c, d.name ≠ name := by
  have hother (c' : FieldClassification) :
      (c' != c && (schema.find? name c').isSome) = (schema.find? name c').isSome := by
    by_cases hc : c' = c
    · simp [hc, hdeclared]
    · simp [hc]
  rw [otherClassification?, funext hother, List.find?_eq_some_iff_append]
  refine and_congr ?_ ?_
  · rw [Option.isSome_iff_ne_none, ne_eq, find?_eq_none_iff]
    push Not
    rfl
  · simp only [Bool.not_eq_true', Option.isSome_eq_false_iff, Option.isNone_iff_eq_none,
      find?_eq_none_iff]

/-- A name that the declared classification does not have is refused by the first other one that has
it, or as unknown. -/
theorem resolve_eq_of_unlisted (hdeclared : schema.find? name c = none) :
    schema.resolve name c =
      match schema.otherClassification? name c with
      | some actual => .error (.classificationMismatch name c actual)
      | none => .error (.unknownField name) := by
  cases hother : schema.otherClassification? name c <;> simp [resolve, hdeclared, hother]

/-- In a coherent schema a field is found by its name, under its classification only. -/
theorem Coherent.find?_eq (h : schema.Coherent) (hd : d ∈ schema.fields)
    (c : FieldClassification) :
    schema.find? d.name c = if c = d.classification then some d else none := by
  have hsame {c : FieldClassification} {e : FieldDescriptor} (he : e ∈ schema.table c)
      (hname : e.name = d.name) : e = d :=
    List.inj_on_of_nodup_map h.distinct (mem_fields.mpr ⟨c, he⟩) hd hname
  cases hfound : schema.find? d.name c with
  | some e =>
    obtain ⟨he, hname⟩ := mem_of_find? hfound
    obtain rfl := hsame he hname
    rw [if_pos (h.classified c e he).symm]
  | none =>
    rw [if_neg]
    rintro rfl
    obtain ⟨c, hc⟩ := mem_fields.mp hd
    obtain rfl := h.classified c d hc
    exact find?_eq_none_iff.mp hfound d hc rfl

/-- The classification named for a field that is declared under another one is its own. -/
theorem Coherent.otherClassification?_eq (h : schema.Coherent) (hd : d ∈ schema.fields)
    (hc : c ≠ d.classification) :
    schema.otherClassification? d.name c = some d.classification := by
  have htest : (fun c' => c' != c && (schema.find? d.name c').isSome) =
      fun c' => c' == d.classification := by
    funext c'
    rw [h.find?_eq hd]
    by_cases hc' : c' = d.classification
    · subst hc'
      simp [Ne.symm hc]
    · simp [hc']
  rw [otherClassification?, htest]
  cases d.classification <;> rfl

/-- A coherent schema resolves each name to the one field that has it. -/
theorem Coherent.resolvesNames (h : schema.Coherent) : schema.ResolvesNames := by
  constructor
  · intro d hd c
    unfold resolve
    rw [h.find?_eq hd]
    by_cases hc : c = d.classification
    · rw [if_pos hc, if_pos hc]
    · rw [if_neg hc, if_neg hc, h.otherClassification?_eq hd hc]
  · intro name hname c
    have hnone (c : FieldClassification) : schema.find? name c = none :=
      find?_eq_none_iff.mpr fun d hd => hname d (mem_fields.mpr ⟨c, hd⟩)
    have hother : schema.otherClassification? name c = none := by
      simp [otherClassification?, hnone]
    simp only [resolve, hnone, hother]

/-- The schema of the core fields with given flex attributes and periodic fields. -/
def ofDescriptors (flex periodic : List FieldDescriptor) : Schema :=
  { core := descriptorTable coreDescriptors
    flex := descriptorTable flex
    periodic := descriptorTable periodic }

variable {flex periodic : List FieldDescriptor}

/-- A schema of fields of distinct names holds them all, and the core fields. -/
theorem fields_ofDescriptors_perm (h : ((flex ++ periodic).map FieldDescriptor.name).Nodup) :
    (ofDescriptors flex periodic).fields.Perm (coreDescriptors ++ (flex ++ periodic)) := by
  rw [List.map_append, List.nodup_append] at h
  have hcore := descriptorTable_perm nodup_name_coreDescriptors
  rw [← List.append_assoc]
  exact (hcore.append (descriptorTable_perm h.1)).append (descriptorTable_perm h.2.1)

/-- A schema of fields of distinct names, none of them that of a core field, is coherent. -/
theorem coherent_ofDescriptors (h : ((flex ++ periodic).map FieldDescriptor.name).Nodup)
    (hcore : ∀ d ∈ flex ++ periodic, CoreField.find? d.name = none)
    (hflex : ∀ d ∈ flex, d.classification = .flex)
    (hperiodic : ∀ d ∈ periodic, d.classification = .periodic) :
    (ofDescriptors flex periodic).Coherent := by
  constructor
  · intro c d hd
    cases c with
    | core =>
      obtain ⟨f, -, rfl⟩ := List.mem_map.mp (mem_of_mem_descriptorTable hd)
      rfl
    | flex => exact hflex d (mem_of_mem_descriptorTable hd)
    | periodic => exact hperiodic d (mem_of_mem_descriptorTable hd)
  · rw [((fields_ofDescriptors_perm h).map _).nodup_iff, List.map_append, List.nodup_append]
    refine ⟨nodup_name_coreDescriptors, h, ?_⟩
    intro a ha b hb hab
    obtain ⟨d, hd, rfl⟩ := List.mem_map.mp ha
    obtain ⟨e, he, rfl⟩ := List.mem_map.mp hb
    exact CoreField.find?_eq_none_iff.mp (hcore e he) d hd hab

/-- A field of a schema is a core field, which is found by its name, or one that the program
registered. -/
theorem mem_table_ofFields {fields : ProgramFields} (h : d ∈ (ofFields fields).table c) :
    (c = .core ∧ ∃ f, CoreField.find? d.name = some f ∧ d = f.descriptor) ∨
      (c = .flex ∧ ∃ a ∈ fields.flexAttributes, d = a.descriptor) ∨
      c = .periodic ∧ ∃ f ∈ fields.periodicFields, d = f.descriptor := by
  cases c with
  | core =>
    obtain ⟨f, hf, rfl⟩ := List.mem_map.mp (mem_of_mem_descriptorTable h)
    exact .inl ⟨rfl, f, CoreField.find?_name hf, rfl⟩
  | flex =>
    obtain ⟨a, ha, rfl⟩ := List.mem_map.mp (mem_of_mem_descriptorTable h)
    exact .inr (.inl ⟨rfl, a, ha, rfl⟩)
  | periodic =>
    obtain ⟨f, hf, rfl⟩ := List.mem_map.mp (mem_of_mem_descriptorTable h)
    exact .inr (.inr ⟨rfl, f, hf, rfl⟩)

/-- The fields of a table have its classification. -/
theorem classification_of_mem_table {fields : ProgramFields} (h : d ∈ (ofFields fields).table c) :
    d.classification = c := by
  obtain ⟨rfl, f, -, rfl⟩ | ⟨rfl, a, -, rfl⟩ | ⟨rfl, f, -, rfl⟩ := mem_table_ofFields h
  · rfl
  · rfl
  · rfl

/-- Each table of a schema ascends by name. -/
theorem pairwise_table_ofFields (fields : ProgramFields) (c : FieldClassification) :
    ((ofFields fields).table c).Pairwise fun a b => a.name < b.name := by
  cases c <;> exact pairwise_descriptorTable _

/-- A field is found in a schema exactly where it is listed under its name. -/
theorem find?_ofFields_eq_some_iff {fields : ProgramFields} :
    (ofFields fields).find? name c = some d ↔ d ∈ (ofFields fields).table c ∧ d.name = name :=
  descriptorNamed?_eq_some_iff (pairwise_table_ofFields fields c)

/-- A field that the schema of given fields resolves has the name and the classification that were
asked for. -/
theorem resolve_ofFields {fields : ProgramFields}
    (h : (ofFields fields).resolve name c = .ok d) : d.name = name ∧ d.classification = c := by
  obtain ⟨hmem, hname⟩ := mem_of_find? (resolve_eq_ok_iff.mp h)
  exact ⟨hname, classification_of_mem_table hmem⟩

/-- One more flex attribute of a new name stands at one place among the fields of the schema. -/
theorem exists_fields_concat_flex {d : FieldDescriptor} (hnew : ∀ e ∈ flex, e.name ≠ d.name) :
    ∃ before after, (ofDescriptors flex periodic).fields = before ++ after ∧
      (ofDescriptors (flex ++ [d]) periodic).fields = before ++ d :: after := by
  obtain ⟨before, after, htable, hconcat⟩ := exists_descriptorTable_concat hnew
  refine ⟨descriptorTable coreDescriptors ++ before, after ++ descriptorTable periodic, ?_, ?_⟩
  · simp only [fields, ofDescriptors, htable, List.append_assoc]
  · simp only [fields, ofDescriptors, hconcat, List.append_assoc, List.cons_append]

/-- One more periodic field of a new name stands at one place among the fields of the schema. -/
theorem exists_fields_concat_periodic {d : FieldDescriptor}
    (hnew : ∀ e ∈ periodic, e.name ≠ d.name) :
    ∃ before after, (ofDescriptors flex periodic).fields = before ++ after ∧
      (ofDescriptors flex (periodic ++ [d])).fields = before ++ d :: after := by
  obtain ⟨before, after, htable, hconcat⟩ := exists_descriptorTable_concat hnew
  refine ⟨descriptorTable coreDescriptors ++ descriptorTable flex ++ before, after, ?_, ?_⟩
  · simp only [fields, ofDescriptors, htable, List.append_assoc]
  · simp only [fields, ofDescriptors, hconcat, List.append_assoc]

end Schema

end Beneficiary
