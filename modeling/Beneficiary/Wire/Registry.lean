import Beneficiary.Registry.Household
import Beneficiary.Wire.Scalar

/-!
# Programs and households on the wire

The JSON form of programs, households and individuals and of the statements that register them. The
record of a household is the object of the household with its members added.
-/

namespace Beneficiary

open Json (Decoder)
open Json.Decoder.Record

namespace Program

/-- The program as JSON. -/
def toJson (p : Program) : Json :=
  .object
    [ ("id", p.id.toJson),
      ("name", .string p.name),
      ("business_area", .string p.businessArea),
      ("mode", p.mode.toJson),
      ("created_at", p.createdAt.toJson) ]

/-- Reads a program. -/
def decoder : Decoder Program :=
  .record <|
    mk <$> required "id" Uuid.decoder
      <*> required "name" .string
      <*> required "business_area" .string
      <*> required "mode" ProgramMode.decoder
      <*> required "created_at" Moment.decoder

end Program

namespace NewProgram

/-- The statement as JSON. -/
def toJson (p : NewProgram) : Json :=
  .object
    [ ("name", .string p.name),
      ("business_area", .string p.businessArea),
      ("mode", .ofOption ProgramMode.toJson p.mode) ]

/-- Reads the statement of a program. -/
def decoder : Decoder NewProgram :=
  .record <|
    mk <$> required "name" .string
      <*> required "business_area" .string
      <*> optional "mode" ProgramMode.decoder

end NewProgram

/-- An integer of sixty-four bits as JSON. -/
def Json.ofInt64 (n : Int64) : Json := .ofInt n.toInt

/-- Text, where there is some, as JSON. -/
def Json.ofText? : Option String → Json := .ofOption .string

namespace Household

/-- The named values of the household. -/
def fields (h : Household) : List (String × Json) :=
  [ ("id", h.id.toJson),
    ("program_id", h.programId.toJson),
    ("unicef_id", .string h.unicefId),
    ("head_id", .ofOption Uuid.toJson h.headId),
    ("size", .ofOption .ofInt64 h.size),
    ("residence_status", .ofText? h.residenceStatus),
    ("admin1", .ofText? h.admin1),
    ("admin2", .ofText? h.admin2),
    ("village", .ofText? h.village),
    ("address", .ofText? h.address),
    ("first_registration_date", .ofOption Date.toJson h.firstRegistrationDate),
    ("returnee", .ofOption .bool h.returnee),
    ("consent_sharing", .ofStrings h.consentSharing),
    ("flex_fields", h.flexFields.toJson),
    ("withdrawn", .bool h.withdrawn),
    ("created_at", h.createdAt.toJson) ]

/-- The household as JSON. -/
def toJson (h : Household) : Json := .object h.fields

/-- The parts of a household's record. -/
def parts : Decoder.Record Household :=
  mk <$> required "id" Uuid.decoder
    <*> required "program_id" Uuid.decoder
    <*> required "unicef_id" .string
    <*> nullable "head_id" Uuid.decoder
    <*> nullable "size" .int64
    <*> nullable "residence_status" .string
    <*> nullable "admin1" .string
    <*> nullable "admin2" .string
    <*> nullable "village" .string
    <*> nullable "address" .string
    <*> nullable "first_registration_date" Date.decoder
    <*> nullable "returnee" .bool
    <*> defaulted "consent_sharing" (.list .string) []
    <*> defaulted "flex_fields" .fields .empty
    <*> defaulted "withdrawn" .bool false
    <*> required "created_at" Moment.decoder

/-- Reads a household. -/
def decoder : Decoder Household := .record parts

end Household

namespace Individual

/-- The individual as JSON. -/
def toJson (i : Individual) : Json :=
  .object
    [ ("id", i.id.toJson),
      ("household_id", i.householdId.toJson),
      ("unicef_id", .string i.unicefId),
      ("full_name", .string i.fullName),
      ("sex", .ofText? i.sex),
      ("birth_date", .ofOption Date.toJson i.birthDate),
      ("marital_status", .ofText? i.maritalStatus),
      ("relationship", .ofText? i.relationship),
      ("disability", .ofOption .bool i.disability),
      ("observed_disability", .ofStrings i.observedDisability),
      ("pregnant", .ofOption .bool i.pregnant),
      ("phone_no", .ofText? i.phoneNo),
      ("flex_fields", i.flexFields.toJson),
      ("withdrawn", .bool i.withdrawn) ]

/-- Reads an individual. -/
def decoder : Decoder Individual :=
  .record <|
    mk <$> required "id" Uuid.decoder
      <*> required "household_id" Uuid.decoder
      <*> required "unicef_id" .string
      <*> required "full_name" .string
      <*> nullable "sex" .string
      <*> nullable "birth_date" Date.decoder
      <*> nullable "marital_status" .string
      <*> nullable "relationship" .string
      <*> nullable "disability" .bool
      <*> defaulted "observed_disability" (.list .string) []
      <*> nullable "pregnant" .bool
      <*> nullable "phone_no" .string
      <*> defaulted "flex_fields" .fields .empty
      <*> defaulted "withdrawn" .bool false

end Individual

namespace HouseholdRecord

/-- The record as JSON. -/
def toJson (r : HouseholdRecord) : Json :=
  .object (r.household.fields ++ [("members", .ofList Individual.toJson r.members)])

/-- Whether an unknown field of a record can be passed over: its value must be readable. -/
def canSkip (source : Json.Source) : Bool := (Decoder.value source).isOk

/-- Reads a record, from an object only. -/
def decoder : Decoder HouseholdRecord :=
  .objectRecord canSkip <|
    mk <$> Household.parts <*> required "members" (.list Individual.decoder)

end HouseholdRecord

namespace NewIndividual

/-- The statement as JSON. -/
def toJson (i : NewIndividual) : Json :=
  .object
    [ ("unicef_id", .string i.unicefId),
      ("full_name", .string i.fullName),
      ("is_head", .bool i.isHead),
      ("sex", .ofText? i.sex),
      ("birth_date", .ofOption Date.toJson i.birthDate),
      ("marital_status", .ofText? i.maritalStatus),
      ("relationship", .ofText? i.relationship),
      ("disability", .ofOption .bool i.disability),
      ("observed_disability", .ofStrings i.observedDisability),
      ("pregnant", .ofOption .bool i.pregnant),
      ("phone_no", .ofText? i.phoneNo),
      ("flex_fields", i.flexFields.toJson) ]

/-- Reads the statement of a person. -/
def decoder : Decoder NewIndividual :=
  .record <|
    mk <$> required "unicef_id" .string
      <*> required "full_name" .string
      <*> defaulted "is_head" .bool false
      <*> optional "sex" .string
      <*> optional "birth_date" Date.decoder
      <*> optional "marital_status" .string
      <*> optional "relationship" .string
      <*> optional "disability" .bool
      <*> defaulted "observed_disability" (.list .string) []
      <*> optional "pregnant" .bool
      <*> optional "phone_no" .string
      <*> defaulted "flex_fields" .fields .empty

end NewIndividual

namespace NewHousehold

/-- The statement as JSON. -/
def toJson (h : NewHousehold) : Json :=
  .object
    [ ("unicef_id", .string h.unicefId),
      ("size", .ofOption .ofInt64 h.size),
      ("residence_status", .ofText? h.residenceStatus),
      ("admin1", .ofText? h.admin1),
      ("admin2", .ofText? h.admin2),
      ("village", .ofText? h.village),
      ("address", .ofText? h.address),
      ("first_registration_date", .ofOption Date.toJson h.firstRegistrationDate),
      ("returnee", .ofOption .bool h.returnee),
      ("consent_sharing", .ofStrings h.consentSharing),
      ("flex_fields", h.flexFields.toJson),
      ("members", .ofList NewIndividual.toJson h.members) ]

/-- Reads the statement of a household. -/
def decoder : Decoder NewHousehold :=
  .record <|
    mk <$> required "unicef_id" .string
      <*> optional "size" .int64
      <*> optional "residence_status" .string
      <*> optional "admin1" .string
      <*> optional "admin2" .string
      <*> optional "village" .string
      <*> optional "address" .string
      <*> optional "first_registration_date" Date.decoder
      <*> optional "returnee" .bool
      <*> defaulted "consent_sharing" (.list .string) []
      <*> defaulted "flex_fields" .fields .empty
      <*> required "members" (.list NewIndividual.decoder)

end NewHousehold

namespace NewRoundValue

/-- The statement as JSON. -/
def toJson (v : NewRoundValue) : Json :=
  .object
    [ ("field", .string v.field),
      ("round", .ofUInt32 v.round),
      ("value", v.value.json),
      ("collection_date", .ofOption Date.toJson v.collectionDate) ]

/-- Reads the statement of a collected value. -/
def decoder : Decoder NewRoundValue :=
  .record <|
    mk <$> required "field" .string
      <*> required "round" .uint32
      <*> required "value" .ordered
      <*> optional "collection_date" Date.decoder

end NewRoundValue

end Beneficiary
