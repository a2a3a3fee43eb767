import Beneficiary.Proofs.Store.Reachable

/-!
# What registration checks

A household is registered only when its ids are new and its selections are choices of the core
fields. The checks run one after the other, so passing them all is passing each of them.
-/

namespace Beneficiary

/-- What is selected for a household are choices of its core fields. -/
structure Household.HasDeclaredChoices (h : Household) : Prop where
  residenceStatus : ∀ value ∈ h.residenceStatus, value ∈ CoreField.choicesOf "residence_status"
  consentSharing : ∀ value ∈ h.consentSharing, value ∈ CoreField.choicesOf "consent_sharing"

/-- What is selected for an individual are choices of its core fields. -/
structure Individual.HasDeclaredChoices (i : Individual) : Prop where
  sex : ∀ value ∈ i.sex, value ∈ CoreField.choicesOf "sex"
  maritalStatus : ∀ value ∈ i.maritalStatus, value ∈ CoreField.choicesOf "marital_status"
  relationship : ∀ value ∈ i.relationship, value ∈ CoreField.choicesOf "relationship"
  observedDisability :
    ∀ value ∈ i.observedDisability, value ∈ CoreField.choicesOf "observed_disability"

/-- Values pass the check of a core field with choices exactly when they are among its choices. -/
theorem checkChoices_eq_ok_iff {field : String} (hfield : CoreField.choicesOf field ≠ [])
    {values : List String} :
    checkChoices field values = .ok () ↔ ∀ value ∈ values, value ∈ CoreField.choicesOf field := by
  induction values with
  | nil => simp [checkChoices]
  | cons value rest ih =>
    have hempty : (CoreField.choicesOf field).isEmpty = false := by simpa using hfield
    simp only [checkChoices, check_bind_eq_ok_iff, ih, checkChoice, require_eq_ok_iff, hempty,
      Bool.false_or, List.contains_eq_mem, decide_eq_true_eq, List.forall_mem_cons]

/-- A person passes the check exactly when the id is not blank and selections are choices. -/
theorem NewIndividual.check_eq_ok_iff {person : NewIndividual} (id householdId : Uuid) :
    person.check = .ok () ↔
      Text.isBlankText person.unicefId = false ∧
        (person.registered id householdId).HasDeclaredChoices := by
  unfold NewIndividual.check
  simp only [check_bind_eq_ok_iff, require_eq_ok_iff, Bool.not_eq_true']
  rw [checkChoices_eq_ok_iff (by decide), checkChoices_eq_ok_iff (by decide),
    checkChoices_eq_ok_iff (by decide), checkChoices_eq_ok_iff (by decide)]
  simp only [Option.mem_toList]
  refine and_congr_right fun _ => ?_
  constructor
  · rintro ⟨hsex, hmarital, hrelationship, hobserved⟩
    exact ⟨hsex, hmarital, hrelationship, hobserved⟩
  · rintro ⟨hsex, hmarital, hrelationship, hobserved⟩
    exact ⟨hsex, hmarital, hrelationship, hobserved⟩

/-- Persons pass the check exactly when each of them does. -/
theorem NewIndividual.checkAll_eq_ok_iff {persons : List NewIndividual} :
    NewIndividual.checkAll persons = .ok () ↔ ∀ person ∈ persons, person.check = .ok () := by
  induction persons with
  | nil => simp [NewIndividual.checkAll]
  | cons person rest ih =>
    simp only [NewIndividual.checkAll, check_bind_eq_ok_iff, ih, List.forall_mem_cons]

/-- The head of a household of a program of persons is its only member. -/
theorem NewHousehold.headIndex_person_eq_ok_iff {members : List NewIndividual} {index : Nat} :
    NewHousehold.headIndex .person members = .ok index ↔ members.length = 1 ∧ index = 0 := by
  simp only [NewHousehold.headIndex, check_bind_eq_ok_iff, require_eq_ok_iff, pure, Except.pure,
    beq_iff_eq, Except.ok.injEq]
  exact and_congr_right fun _ => eq_comm

/-- The head of a household is one of its members. -/
theorem NewHousehold.headIndex_lt {mode : ProgramMode} {members : List NewIndividual} {index : Nat}
    (h : NewHousehold.headIndex mode members = .ok index) : index < members.length := by
  cases mode with
  | person =>
    obtain ⟨hlength, rfl⟩ := headIndex_person_eq_ok_iff.mp h
    omega
  | household =>
    obtain ⟨hheads, h⟩ := check_bind_eq_ok_iff.mp h
    obtain rfl := Except.ok.inj h
    have hcount : (members.filter NewIndividual.isHead).length = 1 := by
      simpa using require_eq_ok_iff.mp hheads
    have hne : members.filter NewIndividual.isHead ≠ [] := by
      intro hnil
      simp [hnil] at hcount
    obtain ⟨person, hperson⟩ := List.exists_mem_of_ne_nil _ hne
    obtain ⟨hmem, hhead⟩ := List.mem_filter.mp hperson
    exact List.findIdx_lt_length_of_exists ⟨person, hmem, hhead⟩

/-- A household passes the checks of its own exactly when its id is not blank, it has members, its
selections are choices, each of its members passes, and it has a head. -/
theorem NewHousehold.check_eq_ok_iff {mode : ProgramMode} {input : NewHousehold} {index : Nat}
    (id programId headId : Uuid) (now : Moment) :
    input.check mode = .ok index ↔
      Text.isBlankText input.unicefId = false ∧ input.members ≠ [] ∧
        (input.registered id programId headId now).HasDeclaredChoices ∧
        (∀ person ∈ input.members, person.check = .ok ()) ∧
        NewHousehold.headIndex mode input.members = .ok index := by
  unfold NewHousehold.check
  simp only [check_bind_eq_ok_iff, require_eq_ok_iff, Bool.not_eq_true',
    NewIndividual.checkAll_eq_ok_iff]
  rw [checkChoices_eq_ok_iff (by decide), checkChoices_eq_ok_iff (by decide)]
  simp only [Option.mem_toList, List.isEmpty_eq_false_iff]
  constructor
  · rintro ⟨hid, hmembers, hresidence, hconsent, hpersons, hhead⟩
    exact ⟨hid, hmembers, ⟨hresidence, hconsent⟩, hpersons, hhead⟩
  · rintro ⟨hid, hmembers, ⟨hresidence, hconsent⟩, hpersons, hhead⟩
    exact ⟨hid, hmembers, hresidence, hconsent, hpersons, hhead⟩

/-- How the checks of a household on its own can fail, the number of its heads aside. -/
def NewHousehold.refusals : List Failure :=
  [.blankHouseholdId, .noMembers, .blankIndividualId, .notOnePerson] ++
    ["residence_status", "consent_sharing", "sex", "marital_status", "relationship",
      "observed_disability"].map fun field => .notAChoice field (CoreField.choicesOf field)

/-- Values fail the check of a core field only by not being among its choices. -/
theorem checkChoices_eq_error {field : String} {values : List String} {failure : Failure}
    (h : checkChoices field values = .error failure) :
    failure = .notAChoice field (CoreField.choicesOf field) := by
  induction values with
  | nil => cases h
  | cons value rest ih =>
    rcases check_bind_eq_error_iff.mp h with hvalue | ⟨-, hrest⟩
    · exact (require_eq_error_iff.mp hvalue).2.symm
    · exact ih hrest

/-- A person fails the check by a blank id or by what is no choice. -/
theorem NewIndividual.check_eq_error {person : NewIndividual} {failure : Failure}
    (h : person.check = .error failure) : failure ∈ NewHousehold.refusals := by
  rcases check_bind_eq_error_iff.mp h with hid | ⟨-, h⟩
  · rw [← (require_eq_error_iff.mp hid).2]
    decide
  rcases check_bind_eq_error_iff.mp h with hsex | ⟨-, h⟩
  · rw [checkChoices_eq_error hsex]
    decide
  rcases check_bind_eq_error_iff.mp h with hmarital | ⟨-, h⟩
  · rw [checkChoices_eq_error hmarital]
    decide
  rcases check_bind_eq_error_iff.mp h with hrelationship | ⟨-, hobserved⟩
  · rw [checkChoices_eq_error hrelationship]
    decide
  · rw [checkChoices_eq_error hobserved]
    decide

/-- Persons fail the check as one of them does. -/
theorem NewIndividual.checkAll_eq_error {persons : List NewIndividual} {failure : Failure}
    (h : NewIndividual.checkAll persons = .error failure) :
    failure ∈ NewHousehold.refusals := by
  induction persons with
  | nil => cases h
  | cons person rest ih =>
    rcases check_bind_eq_error_iff.mp h with hperson | ⟨-, hrest⟩
    · exact check_eq_error hperson
    · exact ih hrest

/-- A household without its one head fails the check, by what its program takes for one. -/
theorem NewHousehold.headIndex_eq_error {mode : ProgramMode} {members : List NewIndividual}
    {failure : Failure} (h : NewHousehold.headIndex mode members = .error failure) :
    failure = .notOnePerson ∨ ∃ heads, failure = .notOneHead heads := by
  cases mode with
  | person =>
    rcases check_bind_eq_error_iff.mp h with hone | ⟨-, h⟩
    · exact .inl (require_eq_error_iff.mp hone).2.symm
    · cases h
  | household =>
    rcases check_bind_eq_error_iff.mp h with hone | ⟨-, h⟩
    · exact .inr ⟨_, (require_eq_error_iff.mp hone).2.symm⟩
    · cases h

/-- The checks of a household on its own fail in no other way. -/
theorem NewHousehold.check_eq_error {mode : ProgramMode} {input : NewHousehold}
    {failure : Failure} (h : input.check mode = .error failure) :
    failure ∈ NewHousehold.refusals ∨ ∃ heads, failure = .notOneHead heads := by
  rcases check_bind_eq_error_iff.mp h with hid | ⟨-, h⟩
  · rw [← (require_eq_error_iff.mp hid).2]
    exact .inl (by decide)
  rcases check_bind_eq_error_iff.mp h with hmembers | ⟨-, h⟩
  · rw [← (require_eq_error_iff.mp hmembers).2]
    exact .inl (by decide)
  rcases check_bind_eq_error_iff.mp h with hresidence | ⟨-, h⟩
  · rw [checkChoices_eq_error hresidence]
    exact .inl (by decide)
  rcases check_bind_eq_error_iff.mp h with hconsent | ⟨-, h⟩
  · rw [checkChoices_eq_error hconsent]
    exact .inl (by decide)
  rcases check_bind_eq_error_iff.mp h with hpersons | ⟨-, h⟩
  · exact .inl (NewIndividual.checkAll_eq_error hpersons)
  rcases headIndex_eq_error h with rfl | hheads
  · exact .inl (by decide)
  · exact .inr hheads

/-- No id is taken exactly when all are new and none repeats. -/
theorem firstTaken?_eq_none_iff {taken ids : List String} :
    firstTaken? taken ids = none ↔ ids.Nodup ∧ ∀ id ∈ ids, id ∉ taken := by
  induction ids generalizing taken with
  | nil => simp [firstTaken?]
  | cons id rest ih =>
    unfold firstTaken?
    by_cases htaken : id ∈ taken
    · simp [htaken]
    · rw [if_neg (by simpa using htaken), ih, List.nodup_cons]
      constructor
      · rintro ⟨hnodup, hrest⟩
        refine ⟨⟨fun hmem => hrest id hmem List.mem_cons_self, hnodup⟩, ?_⟩
        intro a ha
        rcases List.mem_cons.mp ha with rfl | ha
        · exact htaken
        · exact fun hmem => hrest a ha (List.mem_cons_of_mem _ hmem)
      · rintro ⟨⟨hid, hnodup⟩, hnew⟩
        refine ⟨hnodup, ?_⟩
        intro a ha hmem
        rcases List.mem_cons.mp hmem with rfl | hmem
        · exact hid ha
        · exact hnew a (List.mem_cons_of_mem _ ha) hmem

/-- Registration ids pass their check exactly when none of them is taken and no member repeats that
of another. -/
theorem Store.checkNewIds_eq_ok_iff {s : Store} {input : NewHousehold} :
    s.checkNewIds input = .ok () ↔
      (∀ h ∈ s.households, h.unicefId ≠ input.unicefId) ∧
        (input.members.map NewIndividual.unicefId).Nodup ∧
        ∀ person ∈ input.members, ∀ i ∈ s.individuals, i.unicefId ≠ person.unicefId := by
  unfold Store.checkNewIds
  simp only [check_bind_eq_ok_iff, require_eq_ok_iff]
  refine and_congr (by simp) ?_
  have hiff := @firstTaken?_eq_none_iff (s.individuals.map Individual.unicefId)
    (input.members.map NewIndividual.unicefId)
  cases htaken : firstTaken? (s.individuals.map Individual.unicefId)
      (input.members.map NewIndividual.unicefId) with
  | none =>
    obtain ⟨hnodup, hnew⟩ := hiff.mp htaken
    simpa [hnodup] using hnew
  | some id =>
    rw [htaken] at hiff
    simpa using hiff.not.mp (by simp)

end Beneficiary
