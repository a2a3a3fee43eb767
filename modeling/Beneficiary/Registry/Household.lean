import Beneficiary.Calendar.Moment
import Beneficiary.Json.Ordered
import Beneficiary.Uuid

/-!
# Households and individuals

A household and its members carry fixed attributes and the program's own attributes, kept by field
name. The value of a periodic field is an object from round numbers to the values collected. A
record is a household with its members; its head is the member that the household names.
-/

namespace Beneficiary

/-- A registered household. -/
structure Household where
  id : Uuid
  programId : Uuid
  unicefId : String
  headId : Option Uuid
  size : Option Int64
  residenceStatus : Option String
  admin1 : Option String
  admin2 : Option String
  village : Option String
  address : Option String
  firstRegistrationDate : Option Date
  returnee : Option Bool
  consentSharing : List String
  flexFields : Json.Fields
  withdrawn : Bool
  createdAt : Moment

/-- A registered person, who belongs to exactly one household. -/
structure Individual where
  id : Uuid
  householdId : Uuid
  unicefId : String
  fullName : String
  sex : Option String
  birthDate : Option Date
  maritalStatus : Option String
  relationship : Option String
  disability : Option Bool
  observedDisability : List String
  pregnant : Option Bool
  phoneNo : Option String
  flexFields : Json.Fields
  withdrawn : Bool

/-- A household together with members. -/
structure HouseholdRecord where
  household : Household
  members : List Individual

namespace HouseholdRecord

/-- The member that the household names as its head. -/
def head? (record : HouseholdRecord) : Option Individual :=
  match record.household.headId with
  | some id => record.members.find? fun member => member.id == id
  | none => none

end HouseholdRecord

/-- What is stated to register a person in a household. -/
structure NewIndividual where
  unicefId : String
  fullName : String
  isHead : Bool
  sex : Option String
  birthDate : Option Date
  maritalStatus : Option String
  relationship : Option String
  disability : Option Bool
  observedDisability : List String
  pregnant : Option Bool
  phoneNo : Option String
  flexFields : Json.Fields

/-- What is stated to register a household with its members. -/
structure NewHousehold where
  unicefId : String
  size : Option Int64
  residenceStatus : Option String
  admin1 : Option String
  admin2 : Option String
  village : Option String
  address : Option String
  firstRegistrationDate : Option Date
  returnee : Option Bool
  consentSharing : List String
  flexFields : Json.Fields
  members : List NewIndividual

/-- What is stated to record one round of a periodic field. -/
structure NewRoundValue where
  field : String
  round : UInt32
  value : Json.Ordered
  collectionDate : Option Date

end Beneficiary
