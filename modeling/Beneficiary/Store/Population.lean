import Beneficiary.Store.Basic

/-!
# Reading households

A record of the store lists a household's members by registration id. Listings include withdrawn
households and members; the population of a program holds current ones only, and can be read in two
ways: all members of the program at once, or the members of one household after the other.
-/

namespace Beneficiary

namespace Store

/-- The members of a household by registration id, withdrawn ones included. -/
def allMembers (s : Store) (household : Uuid) : List Individual :=
  sortedBy Individual.unicefId (s.individuals.filter fun i => i.householdId == household)

/-- The current members of a household by registration id. -/
def members (s : Store) (household : Uuid) : List Individual :=
  sortedBy Individual.unicefId
    (s.individuals.filter fun i => i.householdId == household && !i.withdrawn)

/-- A household with all its members, withdrawn ones included. -/
def record? (s : Store) (household : Uuid) : Option HouseholdRecord :=
  (s.household? household).map fun h => { household := h, members := s.allMembers household }

/-- Whether an individual belongs to a household of a program. -/
def isRegisteredIn (s : Store) (program : Uuid) (individual : Individual) : Bool :=
  s.households.any fun h => h.programId == program && h.id == individual.householdId

/-- Households by registration id, each with its members among those given. -/
def group (households : List Household) (members : List Individual) : List HouseholdRecord :=
  (sortedBy Household.unicefId households).map fun h =>
    { household := h
      members := (sortedBy Individual.unicefId members).filter fun i => i.householdId == h.id }

/-- All households of a program with all their members, withdrawn ones included. -/
def records (s : Store) (program : Uuid) : List HouseholdRecord :=
  group (s.households.filter fun h => h.programId == program)
    (s.individuals.filter (s.isRegisteredIn program))

/-- The current households of a program with their current members. -/
def population (s : Store) (program : Uuid) : List HouseholdRecord :=
  group (s.households.filter fun h => h.programId == program && !h.withdrawn)
    (s.individuals.filter fun i => s.isRegisteredIn program i && !i.withdrawn)

/-- The current households of a program by registration id. -/
def currentHouseholds (s : Store) (program : Uuid) : List Household :=
  sortedBy Household.unicefId
    (s.households.filter fun h => h.programId == program && !h.withdrawn)

/-- The population of a program, read household after household. -/
def populationByHousehold (s : Store) (program : Uuid) : List HouseholdRecord :=
  (s.currentHouseholds program).map fun h => { household := h, members := s.members h.id }

/-- The current head of a household. -/
def headOf (s : Store) (household : Uuid) : Option Individual := do
  let h ← s.household? household
  let headId ← h.headId
  s.individuals.find? fun i => i.id == headId && !i.withdrawn

end Store

end Beneficiary
