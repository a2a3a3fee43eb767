import Beneficiary.Proofs.Store.Population
import Beneficiary.Proofs.Store.Transactions

/-!
# Who is admitted

A household is registered exactly when its program exists, its ids are stated and new, its
selections are choices of the core fields, and one member is its head. The checks are made in turn,
some against rows that the registration itself has written by then; whether they all pass can be
told from the input and the store alone. An id that is registered stays in use through every later
step, withdrawals among them, so nothing is registered under it again.
-/

namespace Beneficiary

namespace NewHousehold

/-- Members have one head among them, as programs of a mode ask: one of them is flagged, or in
programs of persons there is no other, flagged or not. -/
def HasHead (input : NewHousehold) : ProgramMode → Prop
  | .household => input.members.countP NewIndividual.isHead = 1
  | .person => input.members.length = 1

instance (input : NewHousehold) (mode : ProgramMode) : Decidable (input.HasHead mode) := by
  cases mode <;> unfold HasHead <;> infer_instance

/-- What is stated for the household and its members are declared choices of the core fields. -/
structure HasDeclaredChoices (input : NewHousehold) : Prop where
  residenceStatus :
    ∀ value ∈ input.residenceStatus, value ∈ CoreField.choicesOf "residence_status"
  consentSharing : ∀ value ∈ input.consentSharing, value ∈ CoreField.choicesOf "consent_sharing"
  sex : ∀ person ∈ input.members, ∀ value ∈ person.sex, value ∈ CoreField.choicesOf "sex"
  maritalStatus : ∀ person ∈ input.members, ∀ value ∈ person.maritalStatus,
    value ∈ CoreField.choicesOf "marital_status"
  relationship : ∀ person ∈ input.members, ∀ value ∈ person.relationship,
    value ∈ CoreField.choicesOf "relationship"
  observedDisability : ∀ person ∈ input.members, ∀ value ∈ person.observedDisability,
    value ∈ CoreField.choicesOf "observed_disability"

/-- A head is found among members exactly when they have one. -/
theorem exists_headIndex_iff {mode : ProgramMode} {input : NewHousehold} :
    (∃ index, headIndex mode input.members = .ok index) ↔ input.HasHead mode := by
  cases mode with
  | person => simp [headIndex_person_eq_ok_iff, HasHead]
  | household =>
    simp only [headIndex, check_bind_eq_ok_iff, require_eq_ok_iff, beq_iff_eq, pure, Except.pure,
      Except.ok.injEq, exists_and_left, HasHead, List.countP_eq_length_filter]
    exact and_iff_left ⟨_, rfl⟩

/-- The head that is found is the flagged member, or the single member whatever its flag. -/
theorem exists_head_of_headIndex {mode : ProgramMode} {members : List NewIndividual} {index : Nat}
    (h : headIndex mode members = .ok index) :
    ∃ person, members[index]? = some person ∧ (mode = .household → person.isHead = true) ∧
      (mode = .person → members = [person]) := by
  have hlt := headIndex_lt h
  refine ⟨members[index], List.getElem?_eq_getElem hlt, ?_, ?_⟩
  · rintro rfl
    obtain ⟨-, h⟩ := check_bind_eq_ok_iff.mp h
    obtain rfl := Except.ok.inj h
    exact List.findIdx_getElem
  · rintro rfl
    obtain ⟨hlength, rfl⟩ := headIndex_person_eq_ok_iff.mp h
    obtain ⟨person, rfl⟩ := List.length_eq_one_iff.mp hlength
    rfl

/-- An input passes the checks of its own exactly when its ids are stated, it has members, what is
selected is declared, and a head is found. -/
theorem check_eq_ok_iff_declared {mode : ProgramMode} {input : NewHousehold} {index : Nat}
    (id : Uuid) (now : Moment) :
    input.check mode = .ok index ↔
      Text.isBlankText input.unicefId = false ∧ input.members ≠ [] ∧
        (∀ person ∈ input.members, Text.isBlankText person.unicefId = false) ∧
        input.HasDeclaredChoices ∧ headIndex mode input.members = .ok index := by
  rw [check_eq_ok_iff id id id now]
  simp only [NewIndividual.check_eq_ok_iff id id]
  constructor
  · rintro ⟨hstated, hmembers, ⟨hresidence, hconsent⟩, hpersons, hhead⟩
    refine ⟨hstated, hmembers, fun person hperson => (hpersons person hperson).1, ?_, hhead⟩
    exact ⟨hresidence, hconsent, fun person hperson => (hpersons person hperson).2.sex,
      fun person hperson => (hpersons person hperson).2.maritalStatus,
      fun person hperson => (hpersons person hperson).2.relationship,
      fun person hperson => (hpersons person hperson).2.observedDisability⟩
  · rintro ⟨hstated, hmembers, hpersons, hdeclared, hhead⟩
    refine ⟨hstated, hmembers, ⟨hdeclared.residenceStatus, hdeclared.consentSharing⟩, ?_, hhead⟩
    exact fun person hperson => ⟨hpersons person hperson, hdeclared.sex person hperson,
      hdeclared.maritalStatus person hperson, hdeclared.relationship person hperson,
      hdeclared.observedDisability person hperson⟩

end NewHousehold

namespace Store

variable {s t u : Store} {now : Moment} {programId : Uuid} {input : NewHousehold}
  {record : HouseholdRecord}

/-- A household can be registered in a program of the store: the program exists and finds one head
among the members, ids are stated and new in the whole store, and selections are declared. -/
structure Admits (s : Store) (programId : Uuid) (input : NewHousehold) : Prop where
  program : ∃ program ∈ s.programs, program.id = programId ∧ input.HasHead program.mode
  id_stated : Text.isBlankText input.unicefId = false
  id_new : ∀ h ∈ s.households, h.unicefId ≠ input.unicefId
  members : input.members ≠ []
  member_ids_stated : ∀ person ∈ input.members, Text.isBlankText person.unicefId = false
  member_ids_new : ∀ person ∈ input.members, ∀ i ∈ s.individuals, i.unicefId ≠ person.unicefId
  member_ids_distinct : (input.members.map NewIndividual.unicefId).Nodup
  declared : input.HasDeclaredChoices

/-- A household is registered exactly when it is admitted. -/
theorem exists_createHousehold_iff (hs : s.Keyed) :
    (∃ record t, s.createHousehold now programId input = .ok (record, t)) ↔
      s.Admits programId input := by
  simp only [createHousehold_eq_ok_iff, checkNewIds_eq_ok_iff,
    NewHousehold.check_eq_ok_iff_declared s.nextId now]
  constructor
  · rintro ⟨record, t, program, headIndex, hfound, ⟨hid, hmembers, hids, hdeclared, hhead⟩,
      ⟨hnew, hdistinct, hmembersNew⟩, -, -⟩
    obtain ⟨hp, hprogram⟩ := mem_of_program? hfound
    exact ⟨⟨program, hp, hprogram, NewHousehold.exists_headIndex_iff.mp ⟨headIndex, hhead⟩⟩, hid,
      hnew, hmembers, hids, hmembersNew, hdistinct, hdeclared⟩
  · intro h
    obtain ⟨program, hp, rfl, hhead⟩ := h.program
    obtain ⟨headIndex, hhead⟩ := NewHousehold.exists_headIndex_iff.mpr hhead
    exact ⟨_, _, program, headIndex, hs.program?_eq_some hp,
      ⟨h.id_stated, h.members, h.member_ids_stated, h.declared, hhead⟩,
      ⟨h.id_new, h.member_ids_distinct, h.member_ids_new⟩, rfl, rfl⟩

private theorem find?_registeredAll {ids : IdSource} {householdId : Uuid} {count index : Nat}
    {persons : List NewIndividual} {person : NewIndividual} (h : persons[index]? = some person) :
    (NewIndividual.registeredAll ids householdId count persons).find? (fun i =>
        i.id == ids.after (count + index)) =
      some (person.registered (ids.after (count + index)) householdId) := by
  have hnodup : ((NewIndividual.registeredAll ids householdId count persons).map
      Individual.id).Nodup := by
    rw [map_id_registeredAll]
    exact List.Nodup.map (ids_injective _) List.nodup_range'
  have hmem : person.registered (ids.after (count + index)) householdId ∈
      NewIndividual.registeredAll ids householdId count persons :=
    mem_registeredAll.mpr ⟨index, person, h, rfl⟩
  have hfound := find?_key hnodup hmem fun _ => true
  simp only [Bool.and_true, if_true] at hfound
  exact hfound

/-- The household of an input is registered in a program with the members of the input: its head is
the flagged member, or in programs of persons the single one; its size is the one stated or else the
number of members; nobody is withdrawn; and the tables gain these rows and no other change. -/
structure Enrols (s t : Store) (programId : Uuid) (input : NewHousehold)
    (record : HouseholdRecord) : Prop where
  program_eq : record.household.programId = programId
  id_eq : record.household.unicefId = input.unicefId
  member_ids_eq :
    record.members.map Individual.unicefId = input.members.map NewIndividual.unicefId
  head : ∃ program ∈ s.programs, program.id = programId ∧ ∃ person ∈ input.members,
    (program.mode = .household → person.isHead = true) ∧
    (program.mode = .person → input.members = [person]) ∧
    ∃ headId, record.household.headId = some headId ∧
      record.head? = some (person.registered headId record.household.id) ∧
      t.headOf record.household.id = some (person.registered headId record.household.id).stored
  size_eq : record.household.size = some (input.size.getD (Int64.ofNat input.members.length))
  current : record.household.withdrawn = false ∧ ∀ i ∈ record.members, i.withdrawn = false
  programs : t.programs = s.programs
  flexAttributes : t.flexAttributes = s.flexAttributes
  periodicFields : t.periodicFields = s.periodicFields
  households : t.households = s.households ++ [record.household.stored]
  individuals : t.individuals = s.individuals ++ record.members.map Individual.stored

/-- A registered household is enrolled as it was stated. -/
theorem enrols_of_createHousehold (hs : s.Keyed)
    (h : s.createHousehold now programId input = .ok (record, t)) :
    s.Enrols t programId input record := by
  obtain ⟨program, headIndex, hfound, hcheck, -, rfl, rfl⟩ := createHousehold_eq_ok_iff.mp h
  obtain ⟨hp, hprogram⟩ := mem_of_program? hfound
  have hhead := ((NewHousehold.check_eq_ok_iff_declared s.nextId now).mp hcheck).2.2.2.2
  obtain ⟨person, hperson, hflagged, hsingle⟩ := NewHousehold.exists_head_of_headIndex hhead
  have ht : (s.register now programId input headIndex).Keyed :=
    hs.register now programId input headIndex
  refine ⟨rfl, rfl, map_unicefId_registeredAll _ _ _ _, ?_, rfl, ⟨rfl, ?_⟩, rfl, rfl, rfl, rfl, rfl⟩
  · refine ⟨program, hp, hprogram, person, List.mem_of_getElem? hperson, hflagged, hsingle,
      s.ids.after (s.issued + 1 + headIndex), rfl, find?_registeredAll hperson, ?_⟩
    have hmember : (person.registered (s.ids.after (s.issued + 1 + headIndex)) s.nextId).stored ∈
        (s.register now programId input headIndex).individuals :=
      List.mem_append_right _ (List.mem_map_of_mem
        (mem_registeredAll.mpr ⟨headIndex, person, hperson, rfl⟩))
    have hhousehold : (input.registered s.nextId programId
        (s.ids.after (s.issued + 1 + headIndex)) now).stored ∈
          (s.register now programId input headIndex).households :=
      List.mem_append_right _ (List.mem_singleton_self _)
    have hfoundHousehold := ht.household?_eq_some hhousehold
    have hfoundMember := find?_key ht.individuals hmember fun i => !i.withdrawn
    exact Option.bind_eq_some_iff.mpr ⟨_, hfoundHousehold, hfoundMember⟩
  · intro i hi
    obtain ⟨n, member, -, rfl⟩ := mem_registeredAll.mp hi
    rfl

/-- The registration ids of a store are those of an earlier one, followed by new ones. -/
structure KeepsIds (s t : Store) : Prop where
  households : s.households.map Household.unicefId <+: t.households.map Household.unicefId
  individuals : s.individuals.map Individual.unicefId <+: t.individuals.map Individual.unicefId

namespace KeepsIds

/-- A store that does not change keeps its ids. -/
theorem refl (s : Store) : s.KeepsIds s := ⟨List.prefix_rfl, List.prefix_rfl⟩

/-- Ids that are kept twice are kept. -/
theorem trans (h : s.KeepsIds t) (h' : t.KeepsIds u) : s.KeepsIds u :=
  ⟨h.households.trans h'.households, h.individuals.trans h'.individuals⟩

/-- Entities changed one by one keep their ids. -/
theorem of_revise {f : Household → Household} {g : Individual → Individual}
    (hf : KeepsHousehold f) (hg : KeepsIndividual g) : s.KeepsIds (s.revise f g) := by
  have hhousehold : Household.unicefId ∘ f = Household.unicefId := funext hf.unicefId_eq
  have hindividual : Individual.unicefId ∘ g = Individual.unicefId := funext hg.unicefId_eq
  constructor
  · rw [revise, List.map_map, hhousehold]
  · rw [revise, List.map_map, hindividual]

/-- Every step keeps the ids in use. -/
theorem of_step (hs : s.Keyed) (h : s.Step t) : s.KeepsIds t := by
  cases h with
  | unchanged => exact refl s
  | program => exact ⟨List.prefix_rfl, List.prefix_rfl⟩
  | flexAttribute => exact ⟨List.prefix_rfl, List.prefix_rfl⟩
  | periodicField => exact ⟨List.prefix_rfl, List.prefix_rfl⟩
  | household =>
    exact ⟨(List.prefix_append _ _).map _, (List.prefix_append _ _).map _⟩
  | withdrawHousehold => exact of_revise (keepsHousehold_withdraw _) (keepsIndividual_withdraw _)
  | withdrawIndividual => exact of_revise (keepsHousehold_withdraw _) (keepsIndividual_withdraw _)
  | recordRound individual input hindividual =>
    rw [withRound_eq hs (mem_of_individual? hindividual).1]
    exact of_revise keepsHousehold_id (keepsIndividual_addTo _ input)

/-- Calls in turn keep the ids in use. -/
theorem of_after (hs : s.Keyed) {calls : List Call}
    (h : (Database.mk (some s)).after calls = ⟨some t⟩) : s.KeepsIds t := by
  have hkept : s.KeepsIds t ∧ t.Keyed :=
    after_induction (P := fun u => s.KeepsIds u ∧ u.Keyed)
      (fun _ _ hu hstep => ⟨hu.1.trans (of_step hu.2 hstep), hu.2.step hstep⟩) ⟨refl s, hs⟩ h
  exact hkept.1

end KeepsIds

/-- The household, or a member, states a registration id that a household, or an individual, of the
store has. -/
def UsesAgain (s : Store) (input : NewHousehold) : Prop :=
  (∃ h ∈ s.households, h.unicefId = input.unicefId) ∨
    ∃ person ∈ input.members, ∃ i ∈ s.individuals, i.unicefId = person.unicefId

/-- An id that is used again in one store is used again in every store that keeps the ids. -/
theorem UsesAgain.mono (hst : s.KeepsIds t) (h : s.UsesAgain input) : t.UsesAgain input := by
  rcases h with ⟨h, hh, hid⟩ | ⟨person, hperson, i, hi, hid⟩
  · obtain ⟨k, hk, hkid⟩ := List.mem_map.mp (hst.households.subset (List.mem_map_of_mem hh))
    exact .inl ⟨k, hk, hkid.trans hid⟩
  · obtain ⟨j, hj, hjid⟩ := List.mem_map.mp (hst.individuals.subset (List.mem_map_of_mem hi))
    exact .inr ⟨person, hperson, j, hj, hjid.trans hid⟩

/-- What uses an id again is not registered. -/
theorem UsesAgain.exists_refusal (hs : s.Keyed) (h : s.UsesAgain input) (now : Moment)
    (programId : Uuid) : ∃ failure, s.createHousehold now programId input = .error failure := by
  cases hcreate : s.createHousehold now programId input with
  | error failure => exact ⟨failure, rfl⟩
  | ok result =>
    have hadmits := (exists_createHousehold_iff hs).mp ⟨result.1, result.2, hcreate⟩
    rcases h with ⟨h, hh, hid⟩ | ⟨person, hperson, i, hi, hid⟩
    · exact absurd hid (hadmits.id_new h hh)
    · exact absurd hid (hadmits.member_ids_new person hperson i hi)

/-- After a household is registered, what shares an id with it uses that id again. -/
theorem Enrols.usesAgain (h : s.Enrols t programId input record) {again : NewHousehold}
    (hshares : again.unicefId = input.unicefId ∨
      ∃ person ∈ again.members, person.unicefId ∈ input.members.map NewIndividual.unicefId) :
    t.UsesAgain again := by
  rcases hshares with hid | ⟨person, hperson, hid⟩
  · refine .inl ⟨record.household.stored, ?_, h.id_eq.trans hid.symm⟩
    rw [h.households]
    exact List.mem_append_right _ (List.mem_singleton_self _)
  · rw [← h.member_ids_eq] at hid
    obtain ⟨i, hi, hid⟩ := List.mem_map.mp hid
    refine .inr ⟨person, hperson, i.stored, ?_, hid⟩
    rw [h.individuals]
    exact List.mem_append_right _ (List.mem_map_of_mem hi)

/-- A household is registered exactly when its program exists and finds one head among its members,
its id and those of its members are stated, new in the whole store and not repeated, it has members,
and its selections are declared choices; the rows written in turn, each checked against those before
it, come to the same. What is registered is what was stated, nobody in it is withdrawn, and no other
row changes. Whatever is done afterwards, withdrawals included, no household is registered under its
id again, and none with a member under the id of one of its members. -/
theorem createHousehold_admits (hs : s.Reachable) (now : Moment) (programId : Uuid)
    (input : NewHousehold) :
    ((∃ record t, s.createHousehold now programId input = .ok (record, t)) ↔
      s.Admits programId input) ∧
    ((∃ record, ((writeHousehold now programId input).transact s).1 = .ok record) ↔
      s.Admits programId input) ∧
    ∀ record t, s.createHousehold now programId input = .ok (record, t) →
      s.Enrols t programId input record ∧
      ∀ calls u, (Database.mk (some t)).after calls = ⟨some u⟩ → ∀ again : NewHousehold,
        (again.unicefId = input.unicefId ∨
          ∃ person ∈ again.members, person.unicefId ∈ input.members.map NewIndividual.unicefId) →
        ∀ later program, ∃ failure, u.createHousehold later program again = .error failure := by
  have hkeyed := hs.invariants.1
  have hadmits : (∃ record t, s.createHousehold now programId input = .ok (record, t)) ↔
      s.Admits programId input :=
    exists_createHousehold_iff hkeyed
  refine ⟨hadmits, ?_, fun record t h => ?_⟩
  · rw [transact_writeHousehold, ← hadmits]
    cases s.createHousehold now programId input with
    | error failure => simp
    | ok result =>
      obtain ⟨record, t⟩ := result
      simp
  · have henrols := enrols_of_createHousehold hkeyed h
    have ht : t.Keyed := by
      obtain ⟨program, headIndex, -, -, -, rfl, -⟩ := createHousehold_eq_ok_iff.mp h
      exact hkeyed.register now programId input headIndex
    refine ⟨henrols, fun calls u hu again hshares later program => ?_⟩
    have huKeyed : u.Keyed := after_induction (fun _ _ hs hstep => hs.step hstep) ht hu
    exact ((henrols.usesAgain hshares).mono (.of_after ht hu)).exists_refusal huKeyed later program

/-- A household of two is admitted to a program of households, and one that names a member twice is
not. Once it is registered nothing is registered under its id, even after it is withdrawn. -/
theorem exampleStore_admits :
    exampleStore.Reachable ∧
      exampleStore.Admits (idAfter 7) (exampleHousehold "HH-5" ["IND-6", "IND-7"]) ∧
      ¬ exampleStore.Admits (idAfter 7) (exampleHousehold "HH-5" ["IND-6", "IND-6"]) ∧
      ∃ record t u,
        exampleStore.createHousehold exampleMoment (idAfter 7)
          (exampleHousehold "HH-5" ["IND-6", "IND-7"]) = .ok (record, t) ∧
        (Database.mk (some t)).after
          [⟨exampleMoment, .withdrawHousehold record.household.id⟩] = ⟨some u⟩ ∧
        ∃ failure, u.createHousehold exampleMoment (idAfter 0)
          (exampleHousehold "HH-5" ["IND-8"]) = .error failure := by
  obtain ⟨hadmits, -, hregistered⟩ := createHousehold_admits exampleStore_reachable exampleMoment
    (idAfter 7) (exampleHousehold "HH-5" ["IND-6", "IND-7"])
  have hsome : (exampleStore.createHousehold exampleMoment (idAfter 7)
      (exampleHousehold "HH-5" ["IND-6", "IND-7"])).toOption.isSome = true := by
    decide +kernel
  obtain ⟨⟨record, t⟩, hcreate⟩ := Option.isSome_iff_exists.mp hsome
  have hcreate := toOption_eq_some_iff.mp hcreate
  obtain ⟨-, hlater⟩ := hregistered record t hcreate
  obtain ⟨u, hu⟩ := exists_after_eq t [⟨exampleMoment, .withdrawHousehold record.household.id⟩]
  have hrepeated : ¬ (["IND-6", "IND-6"] : List String).Nodup := by decide
  refine ⟨exampleStore_reachable, hadmits.mp ⟨record, t, hcreate⟩,
    fun h => hrepeated h.member_ids_distinct, record, t, u, hcreate, hu, ?_⟩
  exact hlater _ u hu (exampleHousehold "HH-5" ["IND-8"]) (.inl rfl) exampleMoment (idAfter 0)

end Store

end Beneficiary
