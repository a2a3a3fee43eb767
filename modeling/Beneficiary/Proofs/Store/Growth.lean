import Beneficiary.Proofs.Criteria.Refinement
import Beneficiary.Proofs.Store.Catalog

/-!
# Growth of a store

No step removes or changes a program or a field: they stay as they were registered, and new ones
follow. So a later store knows every field that an earlier one knew, under the same classification.
As no program has two fields of one name, a name that referred to a field or was declared under the
wrong classification does so for good; only a name that was unknown can come to be known.
-/

namespace Beneficiary

namespace Store

variable {s t u : Store} {program : Uuid}

/-- The programs and fields of a store are those of an earlier one, followed by new ones. -/
structure Grows (s t : Store) : Prop where
  programs : s.programs <+: t.programs
  flexAttributes : s.flexAttributes <+: t.flexAttributes
  periodicFields : s.periodicFields <+: t.periodicFields

namespace Grows

/-- A store with the same programs and fields has grown by nothing. -/
theorem of_eq (hprograms : t.programs = s.programs) (hflex : t.flexAttributes = s.flexAttributes)
    (hperiodic : t.periodicFields = s.periodicFields) : s.Grows t := by
  constructor
  · rw [hprograms]
  · rw [hflex]
  · rw [hperiodic]

/-- A store that does not change grows by nothing. -/
theorem refl (s : Store) : s.Grows s := of_eq rfl rfl rfl

/-- Growth adds up. -/
theorem trans (h : s.Grows t) (h' : t.Grows u) : s.Grows u :=
  ⟨h.programs.trans h'.programs, h.flexAttributes.trans h'.flexAttributes,
    h.periodicFields.trans h'.periodicFields⟩

/-- Every step lets a store grow. -/
theorem of_step (h : s.Step t) : s.Grows t := by
  cases h with
  | program p => exact { refl s with programs := List.prefix_append _ _ }
  | flexAttribute p flex => exact { refl s with flexAttributes := List.prefix_append _ _ }
  | periodicField p field => exact { refl s with periodicFields := List.prefix_append _ _ }
  | unchanged => exact refl s
  | household => exact of_eq rfl rfl rfl
  | withdrawHousehold => exact of_eq rfl rfl rfl
  | withdrawIndividual => exact of_eq rfl rfl rfl
  | recordRound => exact of_eq rfl rfl rfl

/-- Calls in turn let a store grow. -/
theorem of_after {calls : List Call} (h : (Database.mk (some s)).after calls = ⟨some t⟩) :
    s.Grows t :=
  after_induction (P := s.Grows) (fun _ _ hs hstep => hs.trans (of_step hstep)) (refl s) h

/-- A program that was found is found later. -/
theorem program?_eq_some (h : s.Grows t) {p : Program} (hp : s.program? program = some p) :
    t.program? program = some p :=
  h.programs.find?_eq_some hp

/-- A field that a program registered stays registered. -/
theorem registeredDescriptors_subset (h : s.Grows t) :
    s.registeredDescriptors program ⊆ t.registeredDescriptors program := by
  have hflex : s.flexDescriptors program ⊆ t.flexDescriptors program :=
    ((h.flexAttributes.filter _).map _).subset
  have hperiodic : s.periodicDescriptors program ⊆ t.periodicDescriptors program :=
    ((h.periodicFields.filter _).map _).subset
  intro d hd
  rcases List.mem_append.mp hd with hd | hd
  · exact List.mem_append_left _ (hflex hd)
  · exact List.mem_append_right _ (hperiodic hd)

/-- A field of a program stays a field of the program. -/
theorem fields_subset (h : s.Grows t) (hs : s.Catalogued) (ht : t.Catalogued) :
    (s.schemaOf program).fields ⊆ (t.schemaOf program).fields := by
  intro d hd
  rw [hs.mem_fields] at hd
  rw [ht.mem_fields]
  exact hd.imp_right fun hd => h.registeredDescriptors_subset hd

/-- A reference to a field of a program is answered later as it was, unless the name was unknown. -/
theorem refines (h : s.Grows t) (hs : s.Catalogued) (ht : t.Catalogued) (program : Uuid) :
    Resolver.Refines (t.schemaOf program).resolve (s.schemaOf program).resolve := by
  have hsnames := (hs.coherent program).resolvesNames
  have htnames := (ht.coherent program).resolvesNames
  intro name c
  by_cases hlisted : ∃ d ∈ (s.schemaOf program).fields, d.name = name
  · obtain ⟨d, hd, rfl⟩ := hlisted
    right
    rw [hsnames.listed d hd, htnames.listed d (h.fields_subset hs ht hd)]
  · left
    refine ⟨.unknownField name, ?_, name, rfl⟩
    apply hsnames.unlisted
    intro d hd hname
    exact hlisted ⟨d, hd, hname⟩

end Grows

end Store

end Beneficiary
