import Beneficiary.Store.Catalog

/-!
# Registering households

A household is registered together with its members, of whom one is the head; in programs of
persons the single member is. Registration ids are unique in the whole store, also after a
withdrawal. A refused registration changes nothing.
-/

namespace Beneficiary

/-- Checks that a value is one of the choices of a core field. -/
def checkChoice (field : String) (value : String) : Except Failure Unit :=
  let choices := CoreField.choicesOf field
  require (choices.isEmpty || choices.contains value) (.notAChoice field choices)

/-- Checks values one after the other. -/
def checkChoices (field : String) : List String → Except Failure Unit
  | [] => .ok ()
  | value :: rest => do
    checkChoice field value
    checkChoices field rest

/-- Checks the id and the choices of a person. -/
def NewIndividual.check (person : NewIndividual) : Except Failure Unit := do
  require (!Text.isBlankText person.unicefId) .blankIndividualId
  checkChoices "sex" person.sex.toList
  checkChoices "marital_status" person.maritalStatus.toList
  checkChoices "relationship" person.relationship.toList
  checkChoices "observed_disability" person.observedDisability

/-- Checks persons one after the other. -/
def NewIndividual.checkAll : List NewIndividual → Except Failure Unit
  | [] => .ok ()
  | person :: rest => do
    person.check
    checkAll rest

namespace NewHousehold

/-- The index of the head among the members: the one flagged member, or in programs of persons the
only member. -/
def headIndex (mode : ProgramMode) (members : List NewIndividual) : Except Failure Nat :=
  match mode with
  | .person => do
    require (members.length == 1) .notOnePerson
    return 0
  | .household => do
    let heads := (members.filter NewIndividual.isHead).length
    require (heads == 1) (.notOneHead heads)
    return members.findIdx NewIndividual.isHead

/-- Checks the household on its own and gives the index of its head. -/
def check (mode : ProgramMode) (input : NewHousehold) : Except Failure Nat := do
  require (!Text.isBlankText input.unicefId) .blankHouseholdId
  require (!input.members.isEmpty) .noMembers
  checkChoices "residence_status" input.residenceStatus.toList
  checkChoices "consent_sharing" input.consentSharing
  NewIndividual.checkAll input.members
  headIndex mode input.members

/-- The household as registered. -/
def registered (input : NewHousehold) (id programId headId : Uuid) (now : Moment) : Household :=
  { id
    programId
    unicefId := input.unicefId
    headId := some headId
    size := some (input.size.getD (Int64.ofNat input.members.length))
    residenceStatus := input.residenceStatus
    admin1 := input.admin1
    admin2 := input.admin2
    village := input.village
    address := input.address
    firstRegistrationDate := input.firstRegistrationDate
    returnee := input.returnee
    consentSharing := input.consentSharing
    flexFields := input.flexFields
    withdrawn := false
    createdAt := now }

end NewHousehold

namespace NewIndividual

/-- The person as registered. -/
def registered (person : NewIndividual) (id householdId : Uuid) : Individual :=
  { id
    householdId
    unicefId := person.unicefId
    fullName := person.fullName
    sex := person.sex
    birthDate := person.birthDate
    maritalStatus := person.maritalStatus
    relationship := person.relationship
    disability := person.disability
    observedDisability := person.observedDisability
    pregnant := person.pregnant
    phoneNo := person.phoneNo
    flexFields := person.flexFields
    withdrawn := false }

/-- The persons as registered, with the identifiers that follow `count` others. -/
def registeredAll (ids : IdSource) (householdId : Uuid) :
    Nat → List NewIndividual → List Individual
  | _, [] => []
  | count, person :: rest =>
    person.registered (ids.after count) householdId
      :: registeredAll ids householdId (count + 1) rest

end NewIndividual

/-- The household as it is read back from the store. -/
def Household.stored (household : Household) : Household :=
  { household with flexFields := household.flexFields.reread }

/-- The individual as read back from the store. -/
def Individual.stored (individual : Individual) : Individual :=
  { individual with flexFields := individual.flexFields.reread }

/-- The first id that is among the taken ones or repeats an earlier one. -/
def firstTaken? (taken : List String) : List String → Option String
  | [] => none
  | id :: rest => if taken.contains id then some id else firstTaken? (id :: taken) rest

namespace Store

/-- Checks that the registration ids of a household and its members are new. -/
def checkNewIds (s : Store) (input : NewHousehold) : Except Failure Unit := do
  require (!s.households.any fun h => h.unicefId == input.unicefId)
    (.householdIdTaken input.unicefId)
  match firstTaken? (s.individuals.map Individual.unicefId)
      (input.members.map NewIndividual.unicefId) with
  | some id => .error (.individualIdTaken id)
  | none => .ok ()

/-- Registers a household with its members. -/
def createHousehold (s : Store) (now : Moment) (programId : Uuid) (input : NewHousehold) :
    Except Failure (HouseholdRecord × Store) := do
  let program ← s.requireProgram programId
  let headIndex ← input.check program.mode
  s.checkNewIds input
  let id := s.nextId
  let firstMember := s.issued + 1
  let household := input.registered id programId (s.ids.after (firstMember + headIndex)) now
  let members := NewIndividual.registeredAll s.ids id firstMember input.members
  return ({ household, members },
    { s with
      issued := firstMember + members.length
      households := s.households ++ [household.stored]
      individuals := s.individuals ++ members.map Individual.stored })

end Store

end Beneficiary
