import Beneficiary.Criteria.Round
import Beneficiary.Store.Registration

/-!
# Withdrawals and collected values

A withdrawn household takes its members with it. In programs of persons a household only wraps its
member and is withdrawn along with the member. A value collected in a round of a periodic field is
put among the member's attributes, and nothing else changes.
-/

namespace Beneficiary

/-- The household, withdrawn. -/
def Household.withdraw (household : Household) : Household := { household with withdrawn := true }

/-- The individual, withdrawn. -/
def Individual.withdraw (individual : Individual) : Individual :=
  { individual with withdrawn := true }

namespace NewRoundValue

/-- The entry of a round: the value and the date of its collection. -/
def entry (input : NewRoundValue) : Json.Ordered :=
  Json.Ordered.of (.object
    [ (roundValueKey, input.value.json),
      (roundDateKey, Json.ofOption (fun d => .string d.text) input.collectionDate) ])

/-- The rounds kept under a field, none when they are no object. -/
def roundsOf (fields : Json.Fields) (field : String) : Json.Fields :=
  match fields.get? field with
  | some (.object entries) => .of entries
  | _ => .empty

/-- The attributes with the round put under its field. -/
def addTo (input : NewRoundValue) (fields : Json.Fields) : Json.Fields :=
  let rounds := (roundsOf fields input.field).insert (roundKey input.round) input.entry
  fields.insert input.field rounds.toOrdered

end NewRoundValue

namespace Store

/-- Withdraws a household with its members. -/
def withdrawHousehold (s : Store) (id : Uuid) : Store :=
  { s with
    households := s.households.map fun h => if h.id = id then h.withdraw else h
    individuals := s.individuals.map fun i => if i.householdId = id then i.withdraw else i }

/-- Whether a household belongs to a program of persons and has an individual. -/
def wraps (s : Store) (household : Household) (individual : Uuid) : Bool :=
  (s.individuals.any fun i => i.id == individual && i.householdId == household.id)
    && s.programs.any fun p => p.id == household.programId && p.mode == .person

/-- Withdraws an individual, and the household that only wraps this individual. -/
def withdrawIndividual (s : Store) (id : Uuid) : Store :=
  { s with
    households := s.households.map fun h => if s.wraps h id then h.withdraw else h
    individuals := s.individuals.map fun i => if i.id = id then i.withdraw else i }

/-- The periodic fields of the program in which an individual is registered. -/
def periodicFieldsFor (s : Store) (individual : Individual) : List PeriodicField :=
  match s.household? individual.householdId with
  | some household => s.periodicFieldsOf household.programId
  | none => []

/-- Checks that a round of a field can be recorded for an individual. -/
def checkRound (s : Store) (individual : Individual) (field : String) (round : UInt32) :
    Except Failure Unit :=
  match (s.periodicFieldsFor individual).find? fun f => f.name == field with
  | none => .error (.unknownPeriodicField field)
  | some f => do
    require (f.owner == .individual) (.notIndividualField f.name)
    require (round != 0 && decide (round ≤ f.spec.numberOfRounds))
      (.noSuchRound round f.spec.numberOfRounds)

/-- Records one round of a periodic field on an individual; an unknown individual is none. -/
def recordRound (s : Store) (id : Uuid) (input : NewRoundValue) :
    Except Failure (Option Individual × Store) :=
  match s.individual? id with
  | none => .ok (none, s)
  | some individual => do
    s.checkRound individual input.field input.round
    let changed := { individual with flexFields := input.addTo individual.flexFields }
    return (some changed,
      { s with
        individuals := s.individuals.map fun i => if i.id = id then changed.stored else i })

end Store

end Beneficiary
