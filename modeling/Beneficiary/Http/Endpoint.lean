import Beneficiary.Http.Encoding
import Beneficiary.Http.MediaType
import Beneficiary.Http.Message
import Beneficiary.Wire.Answer

/-!
# Endpoints

An endpoint is what a path addresses. With a method it asks for an operation of the store, for
which the request must supply what is needed: an identifier in the path, a reference date in the
query, a JSON body. They are read in this order, and the first that is unusable refuses the
request.
-/

namespace Beneficiary.Http

/-- What a path addresses; identifiers stand as they are written. -/
inductive Endpoint where
  | health
  | programs
  | program (id : List Char)
  | fields (program : List Char)
  | flexAttributes (program : List Char)
  | periodicFields (program : List Char)
  | households (program : List Char)
  | household (id : List Char)
  | householdWithdrawal (id : List Char)
  | individualWithdrawal (id : List Char)
  | periodicData (individual : List Char)
  | validation (program : List Char)
  | preview (program : List Char)
deriving DecidableEq, Repr

namespace Endpoint

/-- The endpoint of the segments below the root of the interface. -/
def ofNames? (id : List Char) : List String → Option Endpoint
  | ["health"] => some health
  | ["programs"] => some programs
  | ["programs", ""] => some (program id)
  | ["programs", "", "fields"] => some (fields id)
  | ["programs", "", "flex-attributes"] => some (flexAttributes id)
  | ["programs", "", "periodic-fields"] => some (periodicFields id)
  | ["programs", "", "households"] => some (households id)
  | ["programs", "", "targeting", "validate"] => some (validation id)
  | ["programs", "", "targeting", "preview"] => some (preview id)
  | ["households", ""] => some (household id)
  | ["households", "", "withdraw"] => some (householdWithdrawal id)
  | ["individuals", "", "withdraw"] => some (individualWithdrawal id)
  | ["individuals", "", "periodic-data"] => some (periodicData id)
  | _ => none

/-- The endpoint of a path. The second segment below the root is an identifier; it may be empty,
and then names nothing, but an empty segment that ends the path is none. -/
def ofSegments? (segments : List (List Char)) : Option Endpoint :=
  match segments.map String.ofList with
  | "" :: "api" :: "v1" :: names =>
    match names with
    | [_, ""] => none
    | kind :: id :: rest => ofNames? id.toList (kind :: "" :: rest)
    | names => ofNames? [] names
  | _ => none

end Endpoint

/-- What an endpoint asks for. -/
inductive Task where
  /-- Whether the service is up. -/
  | health
  | operation (operation : Operation)

namespace Request

/-- The identifier written in a segment of the path. -/
def identifier (segment : List Char) : Except Refusal Uuid :=
  match (decodeText? segment).bind Uuid.ofText? with
  | some id => .ok id
  | none => .error .path

/-- The reference date of the query, today when it has none. -/
def referenceDate (request : Request) (today : Date) : Except Refusal Date :=
  match (queryValues request.query).filter fun pair => pair.1 == some "as_of" with
  | [] => .ok today
  | [(_, some value)] =>
    match Date.ofText? value with
    | some date => .ok date
    | none => .error .query
  | _ => .error .query

/-- The body, read by a decoder. -/
def read {α : Type} (request : Request) (decoder : Json.Decoder α) : Except Refusal α :=
  if request.contentType.any isJsonType then
    match Json.decodeText decoder request.body with
    | .ok value => .ok value
    | .error .malformed => .error .bodySyntax
    | .error .mismatch => .error .bodyShape
  else .error .contentType

end Request

namespace Endpoint

/-- The task of an operation on what an identifier in the path names. -/
def onId (segment : List Char) (make : Uuid → Operation) : Option (Except Refusal Task) :=
  some ((Request.identifier segment).map fun id => .operation (make id))

/-- The task of an operation on what an identifier in the path names, with a body. -/
def onIdWith {α : Type} (request : Request) (segment : List Char) (decoder : Json.Decoder α)
    (make : Uuid → α → Operation) : Option (Except Refusal Task) :=
  some do
    let id ← Request.identifier segment
    let input ← request.read decoder
    return .operation (make id input)

/-- The task of targeting the program that an identifier in the path names. -/
def onTarget (request : Request) (today : Date) (segment : List Char)
    (make : Uuid → TargetingRequest → Date → Operation) : Option (Except Refusal Task) :=
  some do
    let id ← Request.identifier segment
    let asOf ← request.referenceDate today
    let input ← request.read TargetingRequest.decoder
    return .operation (make id input asOf)

/-- What an endpoint asks for when it is read; none when it cannot be. -/
def readTask? : Endpoint → Option (Except Refusal Task)
  | .health => some (.ok .health)
  | .programs => some (.ok (.operation .getPrograms))
  | .program id => onId id .getProgram
  | .fields id => onId id .getFieldDescriptors
  | .households id => onId id .getHouseholds
  | .household id => onId id .getHousehold
  | _ => none

/-- What an endpoint asks for when something is posted to it; none when nothing can be. -/
def postTask? (request : Request) (today : Date) : Endpoint → Option (Except Refusal Task)
  | .programs =>
    some ((request.read NewProgram.decoder).map fun input => .operation (.createProgram input))
  | .flexAttributes id => onIdWith request id NewFlexAttribute.decoder .createFlexAttribute
  | .periodicFields id => onIdWith request id NewPeriodicField.decoder .createPeriodicField
  | .households id => onIdWith request id NewHousehold.decoder .createHousehold
  | .householdWithdrawal id => onId id .withdrawHousehold
  | .individualWithdrawal id => onId id .withdrawIndividual
  | .periodicData id => onIdWith request id NewRoundValue.decoder .recordRound
  | .validation id => onTarget request today id .validate
  | .preview id => onTarget request today id .preview
  | _ => none

/-- What an endpoint asks for by the method of a request; none when the method is not allowed. -/
def task? (request : Request) (today : Date) (endpoint : Endpoint) :
    Option (Except Refusal Task) :=
  match request.method with
  | .get => endpoint.readTask?
  | .head => endpoint.readTask?
  | .post => endpoint.postTask? request today
  | _ => none

end Endpoint

end Beneficiary.Http
