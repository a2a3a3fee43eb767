import Beneficiary.Proofs.Store.Reading

/-!
# Programs side by side

Programs share the tables of a store, and identifiers alone tell their rows apart. An operation that
acts on one program adds rows of that program or changes households and individuals that are
registered in it; a row of another program is not among them, as no household is in two programs and
no individual in two households. So what is asked about the other program is answered as before.
-/

namespace Beneficiary

namespace Operation

/-- The operation registers something in a program, or is about a household or an individual that is
registered in it. -/
def ActsOn (s : Store) (program : Uuid) : Operation → Prop
  | createFlexAttribute id _ => id = program
  | createPeriodicField id _ => id = program
  | createHousehold id _ => id = program
  | withdrawHousehold id => ∃ h ∈ s.households, h.id = id ∧ h.programId = program
  | withdrawIndividual id => ∃ i ∈ s.individuals, i.id = id ∧ s.isRegisteredIn program i = true
  | recordRound id _ => ∃ i ∈ s.individuals, i.id = id ∧ s.isRegisteredIn program i = true
  | _ => False

/-- The operation asks about one program: for the program itself, its fields, its households, its
population, or what a request to it selects. -/
def AsksAbout (program : Uuid) : Operation → Prop
  | getProgram id => id = program
  | getFlexAttributes id => id = program
  | getPeriodicFields id => id = program
  | getProgramFields id => id = program
  | getFieldDescriptors id => id = program
  | getHouseholds id => id = program
  | getPopulation id => id = program
  | getPopulationByHousehold id => id = program
  | getCurrentHouseholds id => id = program
  | validate id _ _ => id = program
  | preview id _ _ => id = program
  | _ => False

end Operation

namespace Store

variable {s t : Store} {p q : Uuid}

/-- The second store has the same program of an identifier as the first, with the same fields and
the same households. -/
structure AgreesOn (s t : Store) (program : Uuid) : Prop where
  program? : t.program? program = s.program? program
  flexAttributes : t.flexAttributesOf program = s.flexAttributesOf program
  periodicFields : t.periodicFieldsOf program = s.periodicFieldsOf program
  records : t.records program = s.records program

/-- A store agrees with itself. -/
theorem AgreesOn.refl (s : Store) (program : Uuid) : s.AgreesOn s program := ⟨rfl, rfl, rfl, rfl⟩

/-- Stores agree on a program when a store in between agrees with both. -/
theorem AgreesOn.trans {u : Store} (h : s.AgreesOn t p) (h' : t.AgreesOn u p) : s.AgreesOn u p :=
  ⟨h'.program?.trans h.program?, h'.flexAttributes.trans h.flexAttributes,
    h'.periodicFields.trans h.periodicFields, h'.records.trans h.records⟩

/-- The current households of a program can be read off its listing. -/
theorem currentHouseholds_eq_records (hs : s.Populated) (program : Uuid) :
    s.currentHouseholds program =
      ((s.records program).map HouseholdRecord.household).filter fun h => !h.withdrawn := by
  have hself : HouseholdRecord.household ∘ s.fullRecord = id := rfl
  rw [records_eq hs, currentHouseholds_eq hs, List.map_map, hself, List.map_id]

/-- A database answers as its store does. -/
theorem answer_of_run (s : Store) (now : Moment) (operation : Operation) :
    ((Database.mk (some s)).run now operation).1 = (s.run now operation).map Prod.fst := by
  cases h : s.run now operation with
  | error failure => rw [run_eq_of_error h]; rfl
  | ok result => rw [run_eq_of_ok h]; rfl

namespace AgreesOn

variable (h : s.AgreesOn t p)
include h

/-- Stores that agree on a program list the same fields of it. -/
theorem fieldsOf_eq : t.fieldsOf p = s.fieldsOf p := by
  rw [fieldsOf, h.flexAttributes, h.periodicFields, fieldsOf]

/-- Stores that agree on a program find it or not alike. -/
theorem requireProgram_eq : t.requireProgram p = s.requireProgram p := by
  rw [requireProgram, h.program?, requireProgram]

/-- Stores that agree on a program describe its fields alike. -/
theorem fieldDescriptors_eq : t.fieldDescriptors p = s.fieldDescriptors p := by
  rw [fieldDescriptors, h.requireProgram_eq, schemaOf, h.fieldsOf_eq, fieldDescriptors, schemaOf]

/-- Requests to a program compile alike in stores that agree on it. -/
theorem compileTargeting_eq (request : TargetingRequest) (asOf : Date) :
    t.compileTargeting p request asOf = s.compileTargeting p request asOf := by
  rw [compileTargeting, h.requireProgram_eq, schemaOf, h.fieldsOf_eq, compileTargeting, schemaOf]

/-- Stores that agree on a program read the same population of it. -/
theorem population_eq (hs : s.Populated) (ht : t.Populated) : t.population p = s.population p := by
  rw [population_eq_records ht, h.records, population_eq_records hs]

/-- Stores that agree on a program read the same current households of it. -/
theorem currentHouseholds_eq (hs : s.Populated) (ht : t.Populated) :
    t.currentHouseholds p = s.currentHouseholds p := by
  rw [currentHouseholds_eq_records ht, h.records, currentHouseholds_eq_records hs]

/-- Stores that agree on a program read the same population of it, household after household. -/
theorem populationByHousehold_eq (hs : s.Populated) (ht : t.Populated) :
    t.populationByHousehold p = s.populationByHousehold p :=
  (Store.population_eq ht p).symm.trans ((h.population_eq hs ht).trans (Store.population_eq hs p))

/-- Requests to a program are accepted or refused alike by stores that agree on it. -/
theorem validate_eq (request : TargetingRequest) (asOf : Date) :
    t.validate p request asOf = s.validate p request asOf := by
  rw [validate, h.compileTargeting_eq, validate]

/-- Requests to a program have the same preview in stores that agree on it. -/
theorem preview_eq (hs : s.Populated) (ht : t.Populated) (request : TargetingRequest)
    (asOf : Date) : t.preview p request asOf = s.preview p request asOf := by
  rw [preview, h.compileTargeting_eq, h.population_eq hs ht, preview]

/-- What is asked about a program is answered alike by stores that agree on it. -/
theorem answer_eq (hs : s.Populated) (ht : t.Populated) {query : Operation}
    (hquery : query.AsksAbout p) (now : Moment) :
    ((Database.mk (some t)).run now query).1 = ((Database.mk (some s)).run now query).1 := by
  rw [answer_of_run, answer_of_run]
  cases query with
  | getProgram id =>
    obtain rfl : id = p := hquery
    rw [run, h.program?]
    rfl
  | getFlexAttributes id =>
    obtain rfl : id = p := hquery
    rw [run, h.flexAttributes]
    rfl
  | getPeriodicFields id =>
    obtain rfl : id = p := hquery
    rw [run, h.periodicFields]
    rfl
  | getProgramFields id =>
    obtain rfl : id = p := hquery
    rw [run, h.fieldsOf_eq]
    rfl
  | getFieldDescriptors id =>
    obtain rfl : id = p := hquery
    rw [run, run, h.fieldDescriptors_eq]
    cases s.fieldDescriptors id <;> rfl
  | getHouseholds id =>
    obtain rfl : id = p := hquery
    rw [run, h.records]
    rfl
  | getPopulation id =>
    obtain rfl : id = p := hquery
    rw [run, h.population_eq hs ht]
    rfl
  | getPopulationByHousehold id =>
    obtain rfl : id = p := hquery
    rw [run, h.populationByHousehold_eq hs ht]
    rfl
  | getCurrentHouseholds id =>
    obtain rfl : id = p := hquery
    rw [run, h.currentHouseholds_eq hs ht]
    rfl
  | validate id request asOf =>
    obtain rfl : id = p := hquery
    rw [run, run, h.validate_eq]
    cases s.validate id request asOf <;> rfl
  | preview id request asOf =>
    obtain rfl : id = p := hquery
    rw [run, run, h.preview_eq hs ht]
    cases s.preview id request asOf <;> rfl
  | _ => exact hquery.elim

end AgreesOn

/-- An individual is registered in the program of its household. -/
theorem isRegisteredIn_iff {i : Individual} :
    s.isRegisteredIn p i = true ↔
      ∃ h ∈ s.households, h.programId = p ∧ h.id = i.householdId := by
  simp [isRegisteredIn]

/-- A store lists the same households of a program when the program has the same rows, each with the
same members. -/
theorem records_eq_of_rows (hs : s.Populated) (ht : t.Populated)
    (hhouseholds : (t.households.filter fun h => h.programId == p) =
      s.households.filter fun h => h.programId == p)
    (hmembers : ∀ h ∈ s.households, h.programId = p → t.allMembers h.id = s.allMembers h.id) :
    t.records p = s.records p := by
  rw [records_eq ht, records_eq hs, hhouseholds]
  apply List.map_congr_left
  intro h hh
  obtain ⟨hmem, hprogram⟩ : h ∈ s.households ∧ h.programId = p := by simpa using hh
  rw [fullRecord, hmembers h hmem hprogram, fullRecord]

private theorem filter_append_other {α : Type} (programOf : α → Uuid) (rows : List α) {row : α}
    (h : programOf row ≠ p) :
    ((rows ++ [row]).filter fun a => programOf a == p) =
      rows.filter fun a => programOf a == p := by
  have hrow : (programOf row == p) = false := beq_eq_false_iff_ne.mpr h
  rw [List.filter_append, List.filter_singleton, hrow]
  exact List.append_nil _

/-- A household registered in another program changes nothing of a program. -/
theorem agreesOn_register (hs : s.Populated) (hkeyed : s.Keyed) {now : Moment}
    {input : NewHousehold} {headIndex : Nat}
    (ht : (s.register now q input headIndex).Populated) (hq : q ≠ p) :
    s.AgreesOn (s.register now q input headIndex) p := by
  refine ⟨rfl, rfl, rfl, records_eq_of_rows hs ht ?_ ?_⟩
  · exact filter_append_other Household.programId s.households hq
  · intro h hh _
    exact allMembers_register_of_ne (hkeyed.household_id_ne hh)

/-- A change of households and individuals that fixes those of a program changes nothing of it. -/
theorem agreesOn_revise (hs : s.Populated) {f : Household → Household}
    {g : Individual → Individual} (hf : KeepsHousehold f) (hg : KeepsIndividual g)
    (ht : (s.revise f g).Populated)
    (hhouseholds : ∀ h ∈ s.households, h.programId = p → f h = h)
    (hindividuals : ∀ i ∈ s.individuals, s.isRegisteredIn p i = true → g i = i) :
    s.AgreesOn (s.revise f g) p := by
  refine ⟨rfl, rfl, rfl, records_eq_of_rows hs ht ?_ ?_⟩
  · have htest : ((fun h : Household => h.programId == p) ∘ f) = fun h => h.programId == p := by
      funext h
      rw [Function.comp_apply, hf.programId_eq]
    have hfixed : ∀ h ∈ s.households.filter fun h => h.programId == p, f h = h := by
      intro h hh
      obtain ⟨hmem, hprogram⟩ := List.mem_filter.mp hh
      exact hhouseholds h hmem (beq_iff_eq.mp hprogram)
    rw [revise, List.filter_map, htest, List.map_congr_left hfixed, List.map_id']
  · intro h hh hprogram
    have hfixed : ∀ i ∈ s.allMembers h.id, g i = i := by
      intro i hi
      obtain ⟨hmem, hid⟩ := mem_allMembers.mp hi
      exact hindividuals i hmem (isRegisteredIn_of_mem hh hprogram hid)
    rw [allMembers_revise f hg, List.map_congr_left hfixed, List.map_id']

/-- An operation that does not act on a program changes nothing of it. -/
theorem agreesOn_of_run (hkeyed : s.Keyed) (hs : s.Populated) {program : Program}
    (hprogram : s.program? p = some program) {now : Moment} {operation : Operation}
    {answer : Answer} (hfree : ¬ operation.ActsOn s p)
    (hrun : s.run now operation = .ok (answer, t)) : s.AgreesOn t p := by
  have ht : t.Populated := hs.step hkeyed (step_of_run hrun)
  cases hquery : operation.isQuery with
  | true =>
    rw [eq_of_run_query hquery hrun]
    exact .refl s p
  | false =>
    cases operation with
    | createProgram input =>
      obtain ⟨⟨created, t'⟩, hc, heq⟩ := map_eq_ok_iff.mp hrun
      obtain ⟨-, rfl⟩ := Prod.mk.inj heq
      obtain ⟨u, -, hc⟩ := bind_eq_ok_iff.mp hc
      obtain ⟨-, rfl⟩ := Prod.mk.inj (Except.ok.inj hc)
      refine ⟨?_, rfl, rfl, rfl⟩
      -- the program is found among those that were there before
      rw [hprogram]
      exact (List.prefix_append _ _).find?_eq_some hprogram
    | createFlexAttribute id input =>
      obtain ⟨⟨flex, t'⟩, hc, heq⟩ := map_eq_ok_iff.mp hrun
      obtain ⟨-, rfl⟩ := Prod.mk.inj heq
      obtain ⟨-, -, -, -, rfl, rfl⟩ := createFlexAttribute_eq_ok_iff.mp hc
      refine ⟨rfl, ?_, rfl, rfl⟩
      have hother : (input.registered s.nextId id now).programId ≠ p := hfree
      exact congrArg _ (filter_append_other FlexAttribute.programId s.flexAttributes hother)
    | createPeriodicField id input =>
      obtain ⟨⟨field, t'⟩, hc, heq⟩ := map_eq_ok_iff.mp hrun
      obtain ⟨-, rfl⟩ := Prod.mk.inj heq
      obtain ⟨-, -, -, -, -, -, rfl, rfl⟩ := createPeriodicField_eq_ok_iff.mp hc
      refine ⟨rfl, rfl, ?_, rfl⟩
      have hother : (input.registered s.nextId id now).programId ≠ p := hfree
      exact congrArg _ (filter_append_other PeriodicField.programId s.periodicFields hother)
    | createHousehold id input =>
      obtain ⟨⟨r, t'⟩, hc, heq⟩ := map_eq_ok_iff.mp hrun
      obtain ⟨-, rfl⟩ := Prod.mk.inj heq
      obtain ⟨-, headIndex, -, -, -, rfl, -⟩ := createHousehold_eq_ok_iff.mp hc
      exact agreesOn_register hs hkeyed ht hfree
    | withdrawHousehold id =>
      obtain ⟨-, rfl⟩ := Prod.mk.inj (Except.ok.inj hrun)
      refine agreesOn_revise hs (keepsHousehold_withdraw _) (keepsIndividual_withdraw _) ht ?_ ?_
      · intro h hh hp
        exact if_neg fun hid => hfree ⟨h, hh, hid, hp⟩
      · intro i _ hregistered
        obtain ⟨h, hh, hp, hid⟩ := isRegisteredIn_iff.mp hregistered
        exact if_neg fun hi => hfree ⟨h, hh, hid.trans hi, hp⟩
    | withdrawIndividual id =>
      obtain ⟨-, rfl⟩ := Prod.mk.inj (Except.ok.inj hrun)
      refine agreesOn_revise hs (keepsHousehold_withdraw _) (keepsIndividual_withdraw _) ht ?_ ?_
      · intro h hh hp
        refine if_neg fun hwraps => hfree ?_
        obtain ⟨⟨i, hi, hid⟩, -⟩ := wraps_iff.mp hwraps
        obtain ⟨hmem, hhousehold⟩ := mem_allMembers.mp hi
        exact ⟨i, hmem, hid, isRegisteredIn_of_mem hh hp hhousehold⟩
      · intro i hi hregistered
        exact if_neg fun hid => hfree ⟨i, hi, hid, hregistered⟩
    | recordRound id input =>
      obtain ⟨⟨answered, t'⟩, hc, heq⟩ := map_eq_ok_iff.mp hrun
      obtain ⟨-, rfl⟩ := Prod.mk.inj heq
      rcases recordRound_eq_ok_iff.mp hc with ⟨-, -, rfl⟩ | ⟨individual, hi, -, rfl, -⟩
      · exact .refl _ p
      · obtain ⟨hmem, rfl⟩ := mem_of_individual? hi
        rw [withRound_eq hkeyed hmem] at ht ⊢
        refine agreesOn_revise hs keepsHousehold_id (keepsIndividual_addTo _ input) ht ?_ ?_
        · intro h _ _
          rfl
        · intro i hi hregistered
          exact if_neg fun hid => hfree ⟨i, hi, hid, hregistered⟩
    | _ => cases hquery

/-- None of the calls in turn acts on a program, each in the store that it finds. -/
def Spared (program : Uuid) : List Call → Store → Prop
  | [], _ => True
  | call :: rest, s => ¬ call.operation.ActsOn s program ∧
      ∀ t, ((Database.mk (some s)).run call.now call.operation).2 = ⟨some t⟩ →
        Spared program rest t

/-- Calls that do not act on a program change nothing of it, be they answered or refused. -/
theorem agreesOn_after (hkeyed : s.Keyed) (hs : s.Populated) {program : Program}
    (hprogram : s.program? p = some program) {calls : List Call} (hspared : Spared p calls s)
    (h : (Database.mk (some s)).after calls = ⟨some t⟩) : s.AgreesOn t p := by
  induction calls generalizing s with
  | nil =>
    obtain rfl : s = t := Option.some.inj (Database.mk.inj h)
    exact .refl s p
  | cons call rest ih =>
    obtain ⟨hfree, hrest⟩ := hspared
    rw [Database.after] at h
    cases hrun : s.run call.now call.operation with
    | error failure =>
      rw [run_eq_of_error hrun] at h hrest
      exact ih hkeyed hs hprogram (hrest s rfl) h
    | ok result =>
      obtain ⟨answer, u⟩ := result
      rw [run_eq_of_ok hrun] at h hrest
      have hstep : s.Step u := step_of_run hrun
      have hagrees : s.AgreesOn u p := agreesOn_of_run hkeyed hs hprogram hfree hrun
      have hprogram' : u.program? p = some program := hagrees.program?.trans hprogram
      exact hagrees.trans (ih (hkeyed.step hstep) (hs.step hkeyed hstep) hprogram' (hrest u rfl) h)

/-- A household is registered in one program, and so is an individual. -/
theorem not_actsOn_of_ne (hkeyed : s.Keyed) {operation : Operation} (hpq : q ≠ p)
    (h : operation.ActsOn s q) : ¬ operation.ActsOn s p := by
  have hhouseholds {a b : Household} (ha : a ∈ s.households) (hb : b ∈ s.households)
      (hid : a.id = b.id) (haq : a.programId = q) (hbp : b.programId = p) : False := by
    obtain rfl := List.inj_on_of_nodup_map hkeyed.households ha hb hid
    exact hpq (haq.symm.trans hbp)
  have hindividuals {i j : Individual} (hi : i ∈ s.individuals) (hj : j ∈ s.individuals)
      (hid : i.id = j.id) (hiq : s.isRegisteredIn q i = true) (hjp : s.isRegisteredIn p j = true) :
      False := by
    obtain rfl := List.inj_on_of_nodup_map hkeyed.individuals hi hj hid
    obtain ⟨a, ha, haq, haid⟩ := isRegisteredIn_iff.mp hiq
    obtain ⟨b, hb, hbp, hbid⟩ := isRegisteredIn_iff.mp hjp
    exact hhouseholds ha hb (haid.trans hbid.symm) haq hbp
  cases operation with
  | createFlexAttribute id input => exact fun h' => hpq (h.symm.trans h')
  | createPeriodicField id input => exact fun h' => hpq (h.symm.trans h')
  | createHousehold id input => exact fun h' => hpq (h.symm.trans h')
  | withdrawHousehold id =>
    rintro ⟨b, hb, hbid, hbp⟩
    obtain ⟨a, ha, haid, haq⟩ := h
    exact hhouseholds ha hb (haid.trans hbid.symm) haq hbp
  | withdrawIndividual id =>
    rintro ⟨j, hj, hjid, hjp⟩
    obtain ⟨i, hi, hiid, hiq⟩ := h
    exact hindividuals hi hj (hiid.trans hjid.symm) hiq hjp
  | recordRound id input =>
    rintro ⟨j, hj, hjid, hjp⟩
    obtain ⟨i, hi, hiid, hiq⟩ := h
    exact hindividuals hi hj (hiid.trans hjid.symm) hiq hjp
  | _ => exact h.elim

/-- Programs are isolated from each other for reading. An operation that acts on one program, or
sets up a new one, be it answered or refused, leaves whatever is asked about another program
answered as before. -/
theorem programs_isolated (hs : s.Reachable) {program : Program}
    (hprogram : s.program? p = some program) {operation : Operation}
    (hoperation : (q ≠ p ∧ operation.ActsOn s q) ∨ ∃ input, operation = .createProgram input)
    (now : Moment) {query : Operation} (hquery : query.AsksAbout p) (later : Moment) :
    ((((Database.mk (some s)).run now operation).2).run later query).1 =
      ((Database.mk (some s)).run later query).1 := by
  obtain ⟨hkeyed, hs⟩ := hs.invariants
  have hfree : ¬ operation.ActsOn s p := by
    rcases hoperation with ⟨hpq, hacts⟩ | ⟨input, rfl⟩
    · exact not_actsOn_of_ne hkeyed hpq hacts
    · exact id
  cases hrun : s.run now operation with
  | error failure => rw [run_eq_of_error hrun]
  | ok result =>
    obtain ⟨answer, t⟩ := result
    rw [run_eq_of_ok hrun]
    have ht : t.Populated := hs.step hkeyed (step_of_run hrun)
    exact (agreesOn_of_run hkeyed hs hprogram hfree hrun).answer_eq hs ht hquery later

/-- A person leaves the program of persons of the example, and with the person the household around
them; the families of the other program are as they were. -/
theorem exampleStore_isolated :
    exampleStore.Reachable ∧
      (∃ program, exampleStore.program? (idAfter 7) = some program) ∧
      idAfter 0 ≠ idAfter 7 ∧
      (Operation.withdrawIndividual (idAfter 2)).ActsOn exampleStore (idAfter 0) ∧
      (Operation.getPopulation (idAfter 7)).AsksAbout (idAfter 7) ∧
      ((((Database.mk (some exampleStore)).run exampleMoment
          (.withdrawIndividual (idAfter 2))).2).run exampleMoment
            (.getPopulation (idAfter 7))).1 =
        .ok (.records (exampleStore.population (idAfter 7))) := by
  have hfound : (exampleStore.program? (idAfter 7)).isSome = true := by decide +kernel
  have hmember : (exampleStore.individuals.any fun i =>
      i.id == idAfter 2 && exampleStore.isRegisteredIn (idAfter 0) i) = true := by
    decide +kernel
  obtain ⟨program, hprogram⟩ := Option.isSome_iff_exists.mp hfound
  obtain ⟨i, hi, htest⟩ := List.any_eq_true.mp hmember
  obtain ⟨hid, hregistered⟩ := Bool.and_eq_true_iff.mp htest
  have hne : idAfter 0 ≠ idAfter 7 := by decide
  have hacts : (Operation.withdrawIndividual (idAfter 2)).ActsOn exampleStore (idAfter 0) :=
    ⟨i, hi, beq_iff_eq.mp hid, hregistered⟩
  have hasks : (Operation.getPopulation (idAfter 7)).AsksAbout (idAfter 7) := rfl
  refine ⟨exampleStore_reachable, ⟨program, hprogram⟩, hne, hacts, hasks, ?_⟩
  exact programs_isolated exampleStore_reachable hprogram (.inl ⟨hne, hacts⟩) exampleMoment hasks
    exampleMoment

/-- Programs stay isolated in the long run. Calls in turn, none of which acts on a program in the
store that it finds, leave whatever is asked about the program answered as before them all. -/
theorem programs_isolated_after (hs : s.Reachable) {program : Program}
    (hprogram : s.program? p = some program) {calls : List Call} (hspared : Spared p calls s)
    {query : Operation} (hquery : query.AsksAbout p) (later : Moment) :
    (((Database.mk (some s)).after calls).run later query).1 =
      ((Database.mk (some s)).run later query).1 := by
  obtain ⟨hkeyed, hpopulated⟩ := hs.invariants
  obtain ⟨t, ht⟩ := exists_after_eq s calls
  obtain ⟨-, ht'⟩ := (hs.after ht).invariants
  rw [ht]
  exact (agreesOn_after hkeyed hpopulated hprogram hspared ht).answer_eq hpopulated ht' hquery later

end Store

end Beneficiary
