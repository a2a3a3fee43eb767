import Beneficiary.Http.Origin
import Beneficiary.Http.Service

/-!
# Requests and responses as JSON

A front end that holds the connections passes each request on as a JSON object and sends back the
response that it gets as another.
-/

namespace Beneficiary.Http

open Json (Decoder)
open Json.Decoder.Record

namespace Request

/-- Reads a request. -/
def decoder : Decoder Request :=
  .record <|
    mk <$> required "method" (.text fun name => some (Method.ofText name))
      <*> required "target" .string
      <*> optional "content_type" .string
      <*> optional "origin" .string
      <*> defaulted "body" .string ""

end Request

namespace Body

/-- The media type of a body. -/
def contentType : Body → Option String
  | .empty => none
  | .json _ => some "application/json"
  | .text _ => some "text/plain; charset=utf-8"
  | .refusal _ => some "text/plain; charset=utf-8"

end Body

namespace Response

/-- The response as JSON, with the origin that may read it. -/
def toJson (response : Response) (allowedOrigin : Option String) : Json :=
  .object
    [ ("status", .ofNat response.status),
      ("content_type", .ofOption .string response.body.contentType),
      ("allow_origin", .ofOption .string allowedOrigin),
      ("body", .string response.body.render) ]

end Response

/-- Answers the text of a request with the text of its response; none when the text is no
request. -/
def exchange? (now : Moment) (policy : OriginPolicy) (db : Database) (text : String) :
    Option (String × Database) :=
  match Json.decodeText Request.decoder text with
  | .error _ => none
  | .ok request =>
    let (response, after) := respond now db request
    some ((response.toJson (policy.allowed request.origin)).compact, after)

end Beneficiary.Http
