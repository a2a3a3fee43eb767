import Beneficiary.Proofs.Store.Identity
import Beneficiary.Proofs.Store.Registration
import Beneficiary.Proofs.Store.Sorting

/-!
# The population of a store

Every household is registered in a program with members of its own, one of whom is its head, under
ids that nothing else has. A withdrawn household has no current member; in a program of persons a
household is its single member, also in being withdrawn. Registration establishes this for the
household that it adds, and both withdrawals keep it.
-/

namespace Beneficiary

namespace Store

/-- The households of a store belong to its programs, their members belong to them, and nothing is
registered twice. -/
structure Populated (s : Store) : Prop where
  household_program : ∀ h ∈ s.households, ∃ p ∈ s.programs, p.id = h.programId
  individual_household : ∀ i ∈ s.individuals, ∃ h ∈ s.households, h.id = i.householdId
  household_head : ∀ h ∈ s.households, ∃ i ∈ s.allMembers h.id, h.headId = some i.id
  household_ids : (s.households.map Household.unicefId).Nodup
  individual_ids : (s.individuals.map Individual.unicefId).Nodup
  household_choices : ∀ h ∈ s.households, h.HasDeclaredChoices
  individual_choices : ∀ i ∈ s.individuals, i.HasDeclaredChoices
  withdrawn_members : ∀ h ∈ s.households, h.withdrawn = true →
    ∀ i ∈ s.allMembers h.id, i.withdrawn = true
  person_member : ∀ p ∈ s.programs, p.mode = .person → ∀ h ∈ s.households, h.programId = p.id →
    ∃ i, s.allMembers h.id = [i] ∧ h.headId = some i.id ∧ h.withdrawn = i.withdrawn

variable {s t : Store}

/-- The members of a household are the individuals that belong to it. -/
theorem mem_allMembers {id : Uuid} {i : Individual} :
    i ∈ s.allMembers id ↔ i ∈ s.individuals ∧ i.householdId = id := by
  simp [allMembers]

/-- A household is left with its members when individuals are registered elsewhere. -/
theorem allMembers_append {new : List Individual} (ht : t.individuals = s.individuals ++ new)
    {id : Uuid} (hnew : ∀ i ∈ new, i.householdId ≠ id) : t.allMembers id = s.allMembers id := by
  have hnone : (new.filter fun i => i.householdId == id) = [] := by simpa using hnew
  rw [allMembers, ht, List.filter_append, hnone, List.append_nil, allMembers]

/-- A change one by one changes the members of a household one by one. -/
theorem allMembers_revise (f : Household → Household) {g : Individual → Individual}
    (hg : KeepsIndividual g) (id : Uuid) :
    (s.revise f g).allMembers id = (s.allMembers id).map g := by
  unfold allMembers revise
  rw [List.filter_map, sortedBy_map hg.unicefId_eq]
  congr 3
  funext i
  simp [hg.householdId_eq i]

private theorem registered_householdId {ids : IdSource} {householdId : Uuid} {count : Nat}
    {persons : List NewIndividual} {i : Individual}
    (h : i ∈ (NewIndividual.registeredAll ids householdId count persons).map Individual.stored) :
    i.householdId = householdId := by
  obtain ⟨j, hj, rfl⟩ := List.mem_map.mp h
  obtain ⟨n, person, -, rfl⟩ := mem_registeredAll.mp hj
  rfl

/-- Registering a household leaves the others with their members. -/
theorem allMembers_register_of_ne {now : Moment} {programId : Uuid} {input : NewHousehold}
    {headIndex : Nat} {id : Uuid} (hid : id ≠ s.nextId) :
    (s.register now programId input headIndex).allMembers id = s.allMembers id :=
  allMembers_append rfl fun _ hi heq => hid (heq.symm.trans (registered_householdId hi))

/-- A registered household has the members that it was registered with. -/
theorem allMembers_register (hs : ∀ i ∈ s.individuals, i.householdId ≠ s.nextId) {now : Moment}
    {programId : Uuid} {input : NewHousehold} {headIndex : Nat} :
    (s.register now programId input headIndex).allMembers s.nextId =
      sortedBy Individual.unicefId
        ((NewIndividual.registeredAll s.ids s.nextId (s.issued + 1) input.members).map
          Individual.stored) := by
  have hold : (s.individuals.filter fun i => i.householdId == s.nextId) = [] := by simpa using hs
  have hnew : ((NewIndividual.registeredAll s.ids s.nextId (s.issued + 1) input.members).map
      Individual.stored).filter (fun i => i.householdId == s.nextId) =
      (NewIndividual.registeredAll s.ids s.nextId (s.issued + 1) input.members).map
        Individual.stored := by
    rw [List.filter_eq_self]
    exact fun i hi => beq_iff_eq.mpr (registered_householdId hi)
  unfold allMembers register
  rw [List.filter_append, hold, hnew, List.nil_append]

/-- No household is in empty tables. -/
theorem populated_emptyAfter (issued : Nat) (ids : IdSource) :
    (emptyAfter issued ids).Populated := by
  constructor <;> simp [emptyAfter]

/-- The population does not depend on fields, or on how many identifiers were handed out. -/
theorem Populated.congr (hs : s.Populated) (hprograms : t.programs = s.programs)
    (hhouseholds : t.households = s.households) (hindividuals : t.individuals = s.individuals) :
    t.Populated := by
  have hmembers (id : Uuid) : t.allMembers id = s.allMembers id := by
    rw [allMembers, hindividuals, allMembers]
  constructor
  · simpa only [hprograms, hhouseholds] using hs.household_program
  · simpa only [hhouseholds, hindividuals] using hs.individual_household
  · simpa only [hhouseholds, hmembers] using hs.household_head
  · simpa only [hhouseholds] using hs.household_ids
  · simpa only [hindividuals] using hs.individual_ids
  · simpa only [hhouseholds] using hs.household_choices
  · simpa only [hindividuals] using hs.individual_choices
  · simpa only [hhouseholds, hmembers] using hs.withdrawn_members
  · simpa only [hprograms, hhouseholds, hmembers] using hs.person_member

/-- A program is set up without households. -/
theorem Populated.program (hs : s.Populated) (hkeyed : s.Keyed) {program : Program}
    (hid : program.id = s.nextId) :
    Populated { s with issued := s.issued + 1, programs := s.programs ++ [program] } := by
  refine { hs with household_program := ?_, person_member := ?_ }
  · intro h hh
    obtain ⟨p, hp, hpid⟩ := hs.household_program h hh
    exact ⟨p, List.mem_append_left _ hp, hpid⟩
  · intro p hp hmode h hh hprogram
    rcases List.mem_append.mp hp with hp | hp
    · exact hs.person_member p hp hmode h hh hprogram
    · obtain rfl := List.mem_singleton.mp hp
      obtain ⟨q, hq, hqid⟩ := hs.household_program h hh
      exact absurd (hqid.trans (hprogram.trans hid)) (hkeyed.program_id_ne hq)

/-- A change one by one keeps the population where it withdraws no household without its members,
and in a program of persons both or none. -/
theorem Populated.revise (hs : s.Populated) {f : Household → Household}
    {g : Individual → Individual} (hf : KeepsHousehold f) (hg : KeepsIndividual g)
    (hwithdrawn : ∀ h ∈ s.households, (f h).withdrawn = true →
      ∀ i ∈ s.allMembers h.id, (g i).withdrawn = true)
    (hperson : ∀ p ∈ s.programs, p.mode = .person → ∀ h ∈ s.households, h.programId = p.id →
      ∀ i, s.allMembers h.id = [i] → h.withdrawn = i.withdrawn →
        (f h).withdrawn = (g i).withdrawn) :
    (s.revise f g).Populated := by
  have hmembers (h : Household) :
      (s.revise f g).allMembers (f h).id = (s.allMembers h.id).map g := by
    rw [allMembers_revise f hg, hf.id_eq h]
  have hhouseholds {P : Household → Prop} (hP : ∀ h ∈ s.households, P (f h)) :
      ∀ h ∈ (s.revise f g).households, P h := List.forall_mem_map.mpr hP
  have hindividuals {P : Individual → Prop} (hP : ∀ i ∈ s.individuals, P (g i)) :
      ∀ i ∈ (s.revise f g).individuals, P i := List.forall_mem_map.mpr hP
  constructor
  · refine hhouseholds fun h hh => ?_
    rw [hf.programId_eq h]
    exact hs.household_program h hh
  · refine hindividuals fun i hi => ?_
    obtain ⟨h, hh, hid⟩ := hs.individual_household i hi
    refine ⟨f h, List.mem_map_of_mem hh, ?_⟩
    rw [hf.id_eq h, hg.householdId_eq i, hid]
  · refine hhouseholds fun h hh => ?_
    obtain ⟨i, hi, hid⟩ := hs.household_head h hh
    refine ⟨g i, ?_, ?_⟩
    · rw [hmembers]
      exact List.mem_map_of_mem hi
    · rw [hf.headId_eq h, hg.id_eq i, hid]
  · have hkey : Household.unicefId ∘ f = Household.unicefId :=
      funext hf.unicefId_eq
    simpa only [Store.revise, List.map_map, hkey] using hs.household_ids
  · have hkey : Individual.unicefId ∘ g = Individual.unicefId :=
      funext hg.unicefId_eq
    simpa only [Store.revise, List.map_map, hkey] using hs.individual_ids
  · refine hhouseholds fun h hh => ?_
    obtain ⟨w, hw⟩ := hf h
    rw [hw]
    exact ⟨(hs.household_choices h hh).1, (hs.household_choices h hh).2⟩
  · refine hindividuals fun i hi => ?_
    obtain ⟨fields, w, hw⟩ := hg i
    obtain ⟨hsex, hmarital, hrelationship, hobserved⟩ := hs.individual_choices i hi
    rw [hw]
    exact ⟨hsex, hmarital, hrelationship, hobserved⟩
  · refine hhouseholds fun h hh hw => ?_
    rw [hmembers]
    exact List.forall_mem_map.mpr (hwithdrawn h hh hw)
  · intro p hp hmode
    refine hhouseholds fun h hh hprogram => ?_
    rw [hf.programId_eq h] at hprogram
    obtain ⟨i, hi, hhead, hw⟩ := hs.person_member p hp hmode h hh hprogram
    refine ⟨g i, ?_, ?_, hperson p hp hmode h hh hprogram i hi hw⟩
    · rw [hmembers, hi]
      rfl
    · rw [hf.headId_eq h, hg.id_eq i, hhead]

@[simp] private theorem withdrawn_ite_withdraw {p : Prop} [Decidable p] {h : Household} :
    (if p then h.withdraw else h).withdrawn = (decide p || h.withdrawn) := by
  by_cases hp : p <;> simp [hp, Household.withdraw]

@[simp] private theorem individual_withdrawn_ite_withdraw {p : Prop} [Decidable p]
    {i : Individual} : (if p then i.withdraw else i).withdrawn = (decide p || i.withdrawn) := by
  by_cases hp : p <;> simp [hp, Individual.withdraw]

/-- A household only wraps an individual when it is the individual's and of a program of persons. -/
theorem wraps_iff {h : Household} {id : Uuid} :
    s.wraps h id = true ↔
      (∃ i ∈ s.allMembers h.id, i.id = id) ∧
        ∃ p ∈ s.programs, p.id = h.programId ∧ p.mode = .person := by
  simp only [wraps, Bool.and_eq_true, List.any_eq_true, beq_iff_eq, mem_allMembers]
  refine and_congr_left fun _ => exists_congr fun i => ?_
  constructor
  · rintro ⟨hi, hid, hhousehold⟩
    exact ⟨⟨hi, hhousehold⟩, hid⟩
  · rintro ⟨⟨hi, hhousehold⟩, hid⟩
    exact ⟨hi, hid, hhousehold⟩

/-- A household is withdrawn with all its members. -/
theorem Populated.withdrawHousehold (hs : s.Populated) (id : Uuid) :
    (s.withdrawHousehold id).Populated := by
  refine hs.revise (keepsHousehold_withdraw _) (keepsIndividual_withdraw _) ?_ ?_
  · intro h hh hw i hi
    have hhousehold := (mem_allMembers.mp hi).2
    simp only [withdrawn_ite_withdraw, Bool.or_eq_true, decide_eq_true_eq] at hw
    simp only [individual_withdrawn_ite_withdraw, hhousehold, Bool.or_eq_true, decide_eq_true_eq]
    exact hw.imp_right fun hw => hs.withdrawn_members h hh hw i hi
  · intro p _ _ h _ _ i hi hw
    have hmem : i ∈ s.allMembers h.id := by simp [hi]
    have hhousehold := (mem_allMembers.mp hmem).2
    simp [hhousehold, hw]

/-- An individual is withdrawn with the household that only wraps the individual. -/
theorem Populated.withdrawIndividual (hs : s.Populated) (id : Uuid) :
    (s.withdrawIndividual id).Populated := by
  refine hs.revise (keepsHousehold_withdraw _) (keepsIndividual_withdraw _) ?_ ?_
  · intro h hh hw i hi
    simp only [withdrawn_ite_withdraw, Bool.or_eq_true, decide_eq_true_eq] at hw
    simp only [individual_withdrawn_ite_withdraw, Bool.or_eq_true, decide_eq_true_eq]
    rcases hw with hwraps | hw
    -- a household that wraps the individual has no other member
    · obtain ⟨⟨j, hj, hjid⟩, p, hp, hpid, hmode⟩ := wraps_iff.mp hwraps
      obtain ⟨k, hk, -⟩ := hs.person_member p hp hmode h hh hpid.symm
      rw [hk, List.mem_singleton] at hi hj
      exact .inl (hi.trans hj.symm ▸ hjid)
    · exact .inr (hs.withdrawn_members h hh hw i hi)
  · intro p hp hmode h _ hprogram i hi hw
    have hwraps : s.wraps h id = true ↔ i.id = id := by
      rw [wraps_iff, hi]
      simp only [List.mem_singleton, exists_eq_left, and_iff_left_iff_imp]
      exact fun _ => ⟨p, hp, hprogram.symm, hmode⟩
    simp [hwraps, hw]

/-- A round is recorded without withdrawing anything. -/
theorem Populated.withRound (hs : s.Populated) (hkeyed : s.Keyed) {individual : Individual}
    (h : individual ∈ s.individuals) (input : NewRoundValue) :
    (s.withRound individual input).Populated := by
  rw [withRound_eq hkeyed h]
  have hkept (i : Individual) :
      (if i.id = individual.id then
        Individual.stored { i with flexFields := input.addTo i.flexFields } else i).withdrawn =
        i.withdrawn := by
    split <;> rfl
  refine hs.revise keepsHousehold_id (keepsIndividual_addTo _ input) ?_ ?_
  · intro h hh hw i hi
    rw [hkept]
    exact hs.withdrawn_members h hh hw i hi
  · intro p _ _ h _ _ i _ hw
    rw [hkept]
    exact hw

private theorem exists_head {mode : ProgramMode} {members : List NewIndividual} {index : Nat}
    (h : NewHousehold.headIndex mode members = .ok index) (ids : IdSource) (householdId : Uuid)
    (count : Nat) :
    ∃ i ∈ (NewIndividual.registeredAll ids householdId count members).map Individual.stored,
      i.id = ids.after (count + index) := by
  have hlt := NewHousehold.headIndex_lt h
  refine ⟨(members[index].registered (ids.after (count + index)) householdId).stored, ?_, rfl⟩
  exact List.mem_map_of_mem
    (mem_registeredAll.mpr ⟨index, members[index], List.getElem?_eq_getElem hlt, rfl⟩)

private theorem registeredAll_person {members : List NewIndividual} {index : Nat}
    (h : NewHousehold.headIndex .person members = .ok index) (ids : IdSource) (householdId : Uuid)
    (count : Nat) :
    ∃ i, (NewIndividual.registeredAll ids householdId count members).map Individual.stored = [i] ∧
      i.id = ids.after (count + index) ∧ i.withdrawn = false := by
  obtain ⟨hlength, rfl⟩ := NewHousehold.headIndex_person_eq_ok_iff.mp h
  obtain ⟨person, rfl⟩ := List.length_eq_one_iff.mp hlength
  exact ⟨_, rfl, rfl, rfl⟩

section Register

variable {now : Moment} {programId : Uuid} {input : NewHousehold} {headIndex : Nat}

/-- What holds of all households and of a new one holds of all once it is registered. -/
theorem forall_households_register {P : Household → Prop}
    (hold : ∀ h ∈ s.households, P h)
    (hnew : P (input.registered s.nextId programId (s.ids.after (s.issued + 1 + headIndex))
      now).stored) :
    ∀ h ∈ (s.register now programId input headIndex).households, P h :=
  List.forall_mem_append.mpr ⟨hold, List.forall_mem_singleton.mpr hnew⟩

/-- What holds of all individuals and of the new members holds of all once they are registered. -/
theorem forall_individuals_register {P : Individual → Prop}
    (hold : ∀ i ∈ s.individuals, P i)
    (hnew : ∀ (n : Nat) (person : NewIndividual), input.members[n]? = some person →
      P (person.registered (s.ids.after (s.issued + 1 + n)) s.nextId).stored) :
    ∀ i ∈ (s.register now programId input headIndex).individuals, P i := by
  refine List.forall_mem_append.mpr ⟨hold, List.forall_mem_map.mpr fun i hi => ?_⟩
  obtain ⟨n, person, hperson, rfl⟩ := mem_registeredAll.mp hi
  exact hnew n person hperson

private theorem nodup_individual_ids_register (hs : (s.individuals.map Individual.unicefId).Nodup)
    (hnew : s.checkNewIds input = .ok ()) :
    ((s.register now programId input headIndex).individuals.map Individual.unicefId).Nodup := by
  obtain ⟨-, hnodup, hfree⟩ := checkNewIds_eq_ok_iff.mp hnew
  have hids : ((NewIndividual.registeredAll s.ids s.nextId (s.issued + 1) input.members).map
      Individual.stored).map Individual.unicefId = input.members.map NewIndividual.unicefId := by
    rw [List.map_map, ← map_unicefId_registeredAll s.ids s.nextId (s.issued + 1)]
    rfl
  unfold register
  rw [List.map_append, hids, List.nodup_append]
  refine ⟨hs, hnodup, ?_⟩
  intro a ha b hb
  obtain ⟨i, hi, rfl⟩ := List.mem_map.mp ha
  obtain ⟨person, hperson, rfl⟩ := List.mem_map.mp hb
  exact hfree person hperson i hi

/-- A household that passes the checks is registered with its members. -/
theorem Populated.register (hs : s.Populated) (hkeyed : s.Keyed) {program : Program}
    (hprogram : s.program? programId = some program)
    (hcheck : input.check program.mode = .ok headIndex) (hnew : s.checkNewIds input = .ok ()) :
    (s.register now programId input headIndex).Populated := by
  obtain ⟨hprogramMem, hprogramId⟩ := mem_of_program? hprogram
  obtain ⟨-, -, hchoices, hpersons, hhead⟩ := (NewHousehold.check_eq_ok_iff s.nextId programId
    (s.ids.after (s.issued + 1 + headIndex)) now).mp hcheck
  have hmembers {h : Household} (hh : h ∈ s.households) :
      (s.register now programId input headIndex).allMembers h.id = s.allMembers h.id :=
    allMembers_register_of_ne (hkeyed.household_id_ne hh)
  have helsewhere : ∀ i ∈ s.individuals, i.householdId ≠ s.nextId := by
    intro i hi
    obtain ⟨h, hh, hid⟩ := hs.individual_household i hi
    exact hid ▸ hkeyed.household_id_ne hh
  have hregistered : (s.register now programId input headIndex).allMembers s.nextId = _ :=
    allMembers_register helsewhere
  constructor
  · exact forall_households_register hs.household_program ⟨program, hprogramMem, hprogramId⟩
  · refine forall_individuals_register (fun i hi => ?_) fun n person _ => ?_
    · obtain ⟨h, hh, hid⟩ := hs.individual_household i hi
      exact ⟨h, List.mem_append_left _ hh, hid⟩
    · exact ⟨_, List.mem_append_right _ (List.mem_singleton_self _), rfl⟩
  · refine forall_households_register (fun h hh => ?_) ?_
    · rw [hmembers hh]
      exact hs.household_head h hh
    · obtain ⟨i, hi, hid⟩ := exists_head hhead s.ids s.nextId (s.issued + 1)
      exact ⟨i, hregistered ▸ mem_sortedBy.mpr hi, congrArg some hid.symm⟩
  · refine nodup_map_concat hs.household_ids ?_
    exact (checkNewIds_eq_ok_iff.mp hnew).1
  · exact nodup_individual_ids_register hs.individual_ids hnew
  · exact forall_households_register hs.household_choices ⟨hchoices.1, hchoices.2⟩
  · refine forall_individuals_register hs.individual_choices fun n person hperson => ?_
    obtain ⟨-, hsex, hmarital, hrelationship, hobserved⟩ := (NewIndividual.check_eq_ok_iff
      (s.ids.after (s.issued + 1 + n)) s.nextId).mp (hpersons person (List.mem_of_getElem? hperson))
    exact ⟨hsex, hmarital, hrelationship, hobserved⟩
  · refine forall_households_register (fun h hh => ?_) ?_
    · rw [hmembers hh]
      exact hs.withdrawn_members h hh
    · intro hw
      cases hw
  · intro p hp hmode
    -- the new household is of this program only if its mode is the one that was checked
    refine forall_households_register (fun h hh => ?_) fun hid => ?_
    · rw [hmembers hh]
      exact hs.person_member p hp hmode h hh
    · have hsame : p = program :=
        List.inj_on_of_nodup_map hkeyed.programs hp hprogramMem (hid.symm.trans hprogramId.symm)
      rw [← hsame, hmode] at hhead
      obtain ⟨i, hi, hid, hw⟩ := registeredAll_person hhead s.ids s.nextId (s.issued + 1)
      refine ⟨i, ?_, congrArg some hid.symm, hw.symm⟩
      rw [hi, sortedBy_singleton] at hregistered
      exact hregistered

end Register

/-- Every step keeps the population. -/
theorem Populated.step (hs : s.Populated) (hkeyed : s.Keyed) (h : s.Step t) : t.Populated := by
  cases h with
  | unchanged => exact hs
  | program p hid hname => exact hs.program hkeyed hid
  | flexAttribute => exact hs.congr rfl rfl rfl
  | periodicField => exact hs.congr rfl rfl rfl
  | household now programId program input headIndex hprogram hcheck hnew =>
    exact hs.register hkeyed hprogram hcheck hnew
  | withdrawHousehold id => exact hs.withdrawHousehold id
  | withdrawIndividual id => exact hs.withdrawIndividual id
  | recordRound individual input hindividual =>
    exact hs.withRound hkeyed (mem_of_individual? hindividual).1 input

/-- Every reachable store has distinct identifiers and a population. -/
theorem Reachable.invariants (h : s.Reachable) : s.Keyed ∧ s.Populated :=
  Reachable.induction (P := fun s => s.Keyed ∧ s.Populated)
    (fun issued ids => ⟨keyed_emptyAfter issued ids, populated_emptyAfter issued ids⟩)
    (fun _ _ hs hstep => ⟨hs.1.step hstep, hs.2.step hs.1 hstep⟩) h

/-- Calls on freshly made tables, be they answered or refused, leave tables behind whose households
belong to programs, have their head and members, and are registered once. -/
theorem populated_after (issued : Nat) (ids : IdSource) (calls : List Call) :
    ∃ s, (Database.unmade.migrateAfter issued ids).after calls = ⟨some s⟩ ∧ s.Populated := by
  obtain ⟨s, hs⟩ := exists_after_eq (emptyAfter issued ids) calls
  exact ⟨s, hs, (Reachable.invariants ⟨issued, ids, calls, hs⟩).2⟩

/-- The moment of the calls below. -/
def exampleMoment : Moment := { date := ⟨2024, 7, 1, by decide⟩, time := ⟨32400, 0, by decide⟩ }

/-- A household of persons, of whom the first is flagged as head. -/
def exampleHousehold (unicefId : String) (persons : List String) : NewHousehold :=
  { unicefId
    size := none
    residenceStatus := some "IDP"
    admin1 := none
    admin2 := none
    village := none
    address := none
    firstRegistrationDate := none
    returnee := none
    consentSharing := []
    flexFields := .empty
    members := persons.zipIdx.map fun (person, index) =>
      { unicefId := person
        fullName := person
        isHead := index == 0
        sex := some "FEMALE"
        birthDate := none
        maritalStatus := none
        relationship := none
        disability := none
        observedDisability := []
        pregnant := none
        phoneNo := none
        flexFields := .empty } }

/-- A program of persons with three households, of which one is withdrawn by its member, and a
program of households with a family that one member leaves. A repeated registration is refused. -/
def exampleCalls : List Call :=
  [ .createProgram { name := "Cash", businessArea := "A", mode := some .person },
    .createHousehold (idAfter 0) (exampleHousehold "HH-2" ["IND-2"]),
    .createHousehold (idAfter 0) (exampleHousehold "HH-1" ["IND-1"]),
    .createHousehold (idAfter 0) (exampleHousehold "HH-1" ["IND-3"]),
    .createHousehold (idAfter 0) (exampleHousehold "HH-3" ["IND-3"]),
    .withdrawIndividual (idAfter 6),
    .createProgram { name := "Food", businessArea := "A", mode := none },
    .createHousehold (idAfter 7) (exampleHousehold "HH-4" ["IND-5", "IND-4"]),
    .withdrawIndividual (idAfter 10) ].map fun operation => { now := exampleMoment, operation }

/-- The store that the calls leave behind. -/
def exampleStore : Store :=
  ((Database.unmade.migrateAfter 0).after exampleCalls).tables.getD .empty

-- the refused registration left nothing, and the third household went with its person
example : exampleStore.households.map (fun h => (h.unicefId, h.withdrawn)) =
    [("HH-2", false), ("HH-1", false), ("HH-3", true), ("HH-4", false)] := by
  decide +kernel

/-- The store that calls leave behind is reachable. -/
theorem exampleStore_reachable : exampleStore.Reachable := reachable_after exampleCalls

end Store

end Beneficiary
