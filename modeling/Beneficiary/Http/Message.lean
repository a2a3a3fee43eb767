import Beneficiary.Json.Printer
import Beneficiary.Store.Failure
import Beneficiary.Wire.Criteria

/-!
# Requests and responses

A request is refused before it reaches the store when its address, its query, its media type or its
body is unusable. A failure of the store answers with the status that its message tells: something
not found, a conflict with what is already there, or a rule that must be kept.
-/

namespace Beneficiary.Http

/-- A request method; names are case-sensitive. -/
inductive Method where
  | get
  | head
  | post
  | options
  | other (name : String)
deriving DecidableEq, Repr

/-- The method of a name. -/
def Method.ofText : String → Method
  | "GET" => get
  | "HEAD" => head
  | "POST" => post
  | "OPTIONS" => options
  | name => other name

/-- A request; the target is the path with the query, or an address that ends in them. -/
structure Request where
  method : Method
  target : String
  contentType : Option String
  origin : Option String
  body : String
deriving DecidableEq, Repr

namespace Request

/-- Whether a character may stand in the scheme of an address. -/
def isSchemeChar (c : Char) : Bool := c.isAlphanum || c == '+' || c == '-' || c == '.'

/-- A target without the scheme and host of an address; a host alone addresses the root. -/
def withoutHost (target : List Char) : List Char :=
  match target.dropWhile isSchemeChar with
  | ':' :: '/' :: '/' :: rest =>
    match rest.dropWhile fun c => c != '/' && c != '?' with
    | '/' :: path => '/' :: path
    | query => '/' :: query
  | _ => target

/-- The target up to a fragment, from the root of the service. -/
def address (request : Request) : List Char :=
  withoutHost (request.target.toList.takeWhile (· != '#'))

/-- The segments of the path, the empty one before the first slash included. -/
def segments (request : Request) : List (List Char) :=
  Text.pieces (· == '/') (request.address.takeWhile (· != '?'))

/-- The query, empty when there is none. -/
def query (request : Request) : List Char :=
  (request.address.dropWhile (· != '?')).drop 1

end Request

/-- Why a request does not reach the store. -/
inductive Refusal where
  /-- The path names no identifier where one is needed. -/
  | path
  /-- The query has no usable reference date. -/
  | query
  /-- The body is not declared as JSON. -/
  | contentType
  /-- The body is not well formed. -/
  | bodySyntax
  /-- The body is well formed, but of the wrong shape. -/
  | bodyShape
deriving DecidableEq, Repr

namespace Refusal

/-- The status of a refusal. -/
def status : Refusal → Nat
  | path => 400
  | query => 400
  | contentType => 415
  | bodySyntax => 400
  | bodyShape => 422

/-- The refusal in words. -/
def message : Refusal → String
  | path => "The path holds no identifier where one is needed"
  | query => "The query is not usable"
  | contentType => "The body must be declared as application/json"
  | bodySyntax => "The body is not well-formed JSON"
  | bodyShape => "The body is JSON of another shape"

end Refusal

/-- The body of a response. -/
inductive Body where
  | empty
  | text (text : String)
  | json (value : Json)
  | refusal (refusal : Refusal)

/-- The body as text. -/
def Body.render : Body → String
  | .empty => ""
  | .text s => s
  | .json value => value.compact
  | .refusal r => r.message

/-- A response. -/
structure Response where
  status : Nat
  body : Body

namespace Response

/-- A response without a body. -/
def bare (status : Nat) : Response := { status, body := .empty }

/-- Something that the request names is not there. -/
def notFound (what : String) : Response :=
  { status := 404, body := .text (what ++ " not found") }

/-- The response of a refused request. -/
def ofRefusal (refusal : Refusal) : Response :=
  { status := refusal.status, body := .refusal refusal }

/-- The status that a message tells, if it tells one. -/
def statusOf? (message : String) : Option Nat :=
  if Text.contains message "not found" then some 404
  else if Text.contains message "already" then some 409
  else if Text.contains message "must" then some 400
  else none

/-- The response of a failure. Criteria that do not compile are described in full; a failure whose
message tells no status is not disclosed. -/
def ofFailure : Failure → Response
  | .criteria e => { status := 422, body := .json e.toJson }
  | failure =>
    match statusOf? failure.message with
    | some status => { status, body := .text failure.message }
    | none => { status := 500, body := .text "Internal server error" }

end Response

end Beneficiary.Http
