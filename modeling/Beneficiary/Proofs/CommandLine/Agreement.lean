import Mathlib
import Beneficiary.CommandLine.Run
import Beneficiary.Http.Exchange
import Beneficiary.Proofs.Http.Requests
import Beneficiary.Proofs.Json.Layout
import Beneficiary.Proofs.Store.Refusals
import Beneficiary.Proofs.Targeting.Verdicts
import Beneficiary.Proofs.Wire.Criteria

/-!
# Commands and the service agree

A command reads its request from a file through an untyped value, and takes a value without criteria
for bare criteria; the service decodes a body at once. For the text of a request both read the
request, so they run the same operation. The command prints over several lines what the service sends
compactly, and exits with code 0. Why the operation is refused is printed as an error by the command,
which exits with code 1, and sent by the service as a text, or in the description of criteria that do
not compile.
-/

namespace Beneficiary

namespace CommandLine

private theorem field?_order (named : List (String × Json)) (h : (named.map Prod.fst).Nodup)
    (name : String) :
    (Json.order (.object named)).field? name = (named.lookup name).map Json.order := by
  rw [Json.order, Json.field?, Json.lookup_orderFields (by rwa [Json.map_fst_orderValues]),
    Json.lookup_orderValues]

/-- A file with the text of a request holds the request. -/
theorem readRequest_request (file : String) (request : TargetingRequest) :
    readRequest file (.text request.toJson.compact) = .ok request := by
  have hfits := (TargetingRequest.fitsIn request).mono (by decide : 9 ≤ Json.depthLimit)
  have hread : Json.decodeValue TargetingRequest.decoder request.toJson.order = .ok request :=
    TargetingRequest.reads request _ (.inr rfl)
  have hcriteria : (request.toJson.order.field? "criteria").isSome = true := by
    rw [TargetingRequest.toJson, field?_order _ (by simp)]
    rfl
  simp only [readRequest, Json.parse_compact hfits.keepsNumbers, if_pos hfits.depth_le]
  rw [requestOf, Json.Ordered.of, if_pos hcriteria, hread]
  rfl

/-- A file with the text of criteria holds the request for them without exclusions. -/
theorem readRequest_criteria (file : String) (criteria : Criteria) :
    readRequest file (.text criteria.toJson.compact) = .ok { criteria, exclusions := none } := by
  have hfits := (Criteria.fitsIn criteria).mono (by decide : 8 ≤ Json.depthLimit)
  have hread : Json.decodeValue Criteria.decoder criteria.toJson.order = .ok criteria :=
    Criteria.reads criteria _ (.inr rfl)
  have hcriteria : ¬ (criteria.toJson.order.field? "criteria").isSome = true := by
    rw [Criteria.toJson, field?_order _ (by simp)]
    simp
  simp only [readRequest, Json.parse_compact hfits.keepsNumbers, if_pos hfits.depth_le]
  rw [requestOf, Json.Ordered.of, if_neg hcriteria, hread]
  rfl

end CommandLine

namespace Http

/-- The request posts a text as JSON to what is addressed of a program, for a reference date. -/
structure Request.Posts (request : Request) (endpoint : List Char → Endpoint) (program : Uuid)
    (today asOf : Date) (text : String) : Prop where
  method : request.method = .post
  addressed : ∃ segment, Endpoint.ofSegments? request.segments = some (endpoint segment) ∧
    Request.identifier segment = .ok program
  dated : request.referenceDate today = .ok asOf
  declared : request.contentType.any isJsonType = true
  body : request.body = text

variable {request : Request} {endpoint : List Char → Endpoint} {program : Uuid}
  {today asOf : Date} {targeting : TargetingRequest}

/-- A body with the text of a request to target is read as that request. -/
theorem Request.Posts.read (h : request.Posts endpoint program today asOf targeting.toJson.compact) :
    request.read TargetingRequest.decoder = .ok targeting := by
  have hfits := (TargetingRequest.fitsIn targeting).mono (by decide : 9 ≤ Json.depthLimit)
  have hread : Json.decodeText TargetingRequest.decoder targeting.toJson.compact = .ok targeting :=
    (Json.decodeText_compact_of_fits _ hfits).trans (TargetingRequest.reads targeting _ (.inl rfl))
  rw [Request.read, if_pos h.declared, h.body, hread]

private theorem onTarget_of_posts {make : Uuid → TargetingRequest → Date → Operation}
    {segment : List Char} (hid : Request.identifier segment = .ok program)
    (h : request.Posts endpoint program today asOf targeting.toJson.compact) :
    Endpoint.onTarget request today segment make =
      some (.ok (.operation (make program targeting asOf))) :=
  Endpoint.onTarget_eq_some_iff.mpr ⟨program, asOf, targeting, hid, h.dated, h.read, rfl⟩

/-- What is posted to be previewed asks for the preview. -/
theorem Request.Posts.preview (h : request.Posts .preview program today asOf
    targeting.toJson.compact) :
    request.operation? today = some (.preview program targeting asOf) := by
  obtain ⟨segment, haddressed, hid⟩ := h.addressed
  refine operation?_eq_some_iff.mpr ⟨_, haddressed, ?_⟩
  rw [Endpoint.task?, h.method]
  exact onTarget_of_posts hid h

/-- What is posted to be validated asks for the validation. -/
theorem Request.Posts.validation (h : request.Posts .validation program today asOf
    targeting.toJson.compact) :
    request.operation? today = some (.validate program targeting asOf) := by
  obtain ⟨segment, haddressed, hid⟩ := h.addressed
  refine operation?_eq_some_iff.mpr ⟨_, haddressed, ?_⟩
  rw [Endpoint.task?, h.method]
  exact onTarget_of_posts hid h

/-- What is posted is answered with the operation that it asks for. -/
theorem Request.Posts.respond_eq {text : String} (h : request.Posts endpoint program today asOf text)
    {now : Moment} (db : Database) {operation : Operation}
    (hasked : request.operation? now.date = some operation) :
    respond now db request = perform now db operation := by
  rw [respond, h.method]
  exact route_eq hasked

end Http

/-- The failures of targeting. -/
def Failure.IsOfTargeting : Failure → Prop
  | unknownProgram => True
  | otherExclusionMode _ => True
  | criteria _ => True
  | _ => False

/-- A request is refused for its program, the mode of its exclusions or its criteria. -/
theorem Store.isOfTargeting_of_compileTargeting {s : Store} {program : Uuid}
    {request : TargetingRequest} {asOf : Date} {failure : Failure}
    (h : s.compileTargeting program request asOf = .error failure) : failure.IsOfTargeting := by
  unfold compileTargeting at h
  rcases bind_eq_error_iff.mp h with h | ⟨found, -, h⟩
  · rw [requireProgram_eq_error h]
    trivial
  rcases bind_eq_error_iff.mp h with h | ⟨exclusions, -, h⟩
  · rw [exclusionsFor_eq_error h]
    trivial
  rcases bind_eq_error_iff.mp h with h | ⟨compiled, -, h⟩
  · obtain ⟨e, -, rfl⟩ := mapError_eq_error_iff.mp h
    trivial
  · cases h

namespace CommandLine

/-- The printout shows a JSON value and no error: it holds the text of the value, laid out in
whatever way. -/
structure Printout.Shows (printout : Printout) (value : Json) : Prop where
  code : printout.code = 0
  output : Json.withoutLayout printout.output = value.compact
  errors : printout.errors = ""

/-- The printout gives a message as the reason why there is no outcome. -/
structure Printout.Refuses (printout : Printout) (message : String) : Prop where
  code : printout.code = 1
  output : printout.output = ""
  errors : printout.errors = "Error: " ++ message ++ "\n"

/-- A command and the service agree: the command shows exactly what the service sends with status
200, and it gives exactly the reason that the service sends with status 400 or 404, or that stands in
the description which the service sends with status 422. -/
structure Agrees (printout : Printout) (response : Http.Response) : Prop where
  answer : ∀ value : Json, printout.Shows value ↔
    response.status = 200 ∧ response.body.contentType = some "application/json" ∧
      response.body.render = value.compact
  refusal : ∀ message, printout.Refuses message ↔
    (response.status = 422 ∧
      ∃ body, response.body = .json body ∧ body.field? "message" = some (.string message)) ∨
    (response.status = 400 ∨ response.status = 404) ∧ response.body = .text message

/-- What is printed of an outcome is its JSON. -/
theorem shows_ofOutcome_iff {outcome : Except RunFailure Json} {value : Json} :
    (Printout.ofOutcome outcome).Shows value ↔
      ∃ shown, outcome = .ok shown ∧ shown.compact = value.compact := by
  constructor
  · intro h
    cases outcome with
    | ok shown =>
      refine ⟨shown, rfl, ?_⟩
      rw [← Json.withoutLayout_pretty shown]
      exact h.output
    | error failure =>
      have hcode : (1 : UInt32) = 0 := h.code
      exact absurd hcode (by decide)
  · rintro ⟨shown, rfl, htext⟩
    exact ⟨rfl, (Json.withoutLayout_pretty shown).trans htext, rfl⟩

/-- What is printed of an outcome that is missing is the reason. -/
theorem refuses_ofOutcome_iff {outcome : Except RunFailure Json} {message : String} :
    (Printout.ofOutcome outcome).Refuses message ↔
      ∃ failure, outcome = .error failure ∧ failure.message = message := by
  constructor
  · intro h
    cases outcome with
    | ok shown =>
      have hcode : (0 : UInt32) = 1 := h.code
      exact absurd hcode (by decide)
    | error failure =>
      refine ⟨failure, rfl, ?_⟩
      have herrors : "Error: " ++ failure.message ++ "\n" = "Error: " ++ message ++ "\n" := h.errors
      simpa [← String.toList_inj] using herrors
  · rintro ⟨failure, rfl, rfl⟩
    exact ⟨rfl, rfl, rfl⟩

/-- An outcome agrees with the response that sends it. -/
theorem agrees_ok (value : Json) :
    Agrees (.ofOutcome (.ok value)) { status := 200, body := .json value } where
  answer shown := by
    rw [shows_ofOutcome_iff]
    simp [Http.Body.contentType, Http.Body.render]
  refusal message := by
    rw [refuses_ofOutcome_iff]
    simp

/-- A failure agrees with a response that sends its reason as a text. -/
theorem agrees_text (failure : Failure) {status : Nat} (hstatus : status = 400 ∨ status = 404) :
    Agrees (.ofOutcome (.error (.refused failure))) { status, body := .text failure.message } where
  answer value := by
    rw [shows_ofOutcome_iff]
    constructor
    · rintro ⟨_, ⟨⟩, -⟩
    · rintro ⟨rfl, -⟩
      rcases hstatus with h | h <;> cases h
  refusal message := by
    rw [refuses_ofOutcome_iff]
    constructor
    · rintro ⟨_, ⟨⟩, rfl⟩
      exact .inr ⟨hstatus, rfl⟩
    · rintro (⟨-, body, ⟨⟩, -⟩ | ⟨-, ⟨⟩⟩)
      exact ⟨_, rfl, rfl⟩

/-- Criteria that do not compile agree with their description. -/
theorem agrees_criteria (e : CompileError) :
    Agrees (.ofOutcome (.error (.refused (.criteria e))))
      { status := 422, body := .json e.toJson } where
  answer value := by
    rw [shows_ofOutcome_iff]
    constructor
    · rintro ⟨_, ⟨⟩, -⟩
    · rintro ⟨⟨⟩, -⟩
  refusal message := by
    have hmessage : e.toJson.field? "message" = some (.string e.message) := rfl
    rw [refuses_ofOutcome_iff]
    constructor
    · rintro ⟨_, ⟨⟩, rfl⟩
      exact .inl ⟨rfl, _, rfl, hmessage⟩
    · rintro (⟨-, body, ⟨⟩, hbody⟩ | ⟨⟨⟨⟩⟩ | ⟨⟨⟩⟩, -⟩)
      rw [hmessage] at hbody
      cases hbody
      exact ⟨_, rfl, rfl⟩

/-- A failure of targeting agrees with its response. -/
theorem agrees_error {failure : Failure} (h : failure.IsOfTargeting) :
    Agrees (.ofOutcome (.error (.refused failure))) (Http.Response.ofFailure failure) := by
  cases failure with
  | unknownProgram =>
    have hstatus : Http.Response.statusOf? Failure.unknownProgram.message = some 404 := by
      decide +kernel
    simp only [Http.Response.ofFailure, hstatus]
    exact agrees_text _ (.inr rfl)
  | otherExclusionMode mode =>
    have hstatus : Http.Response.statusOf? (Failure.otherExclusionMode mode).message = some 400 := by
      cases mode <;> decide +kernel
    simp only [Http.Response.ofFailure, hstatus]
    exact agrees_text _ (.inl rfl)
  | criteria e => exact agrees_criteria e
  | _ => cases h

variable {now : Moment} {s : Store} {operation : Operation} {program : Uuid}
  {request : TargetingRequest} {call : Http.Request} {asOf : Date}

/-- What a command makes of an operation of targeting agrees with what the service does. -/
theorem agrees_outcome
    (hanswer : ∀ answer t, s.run now operation = .ok (answer, t) →
      Http.Response.ofAnswer operation answer = { status := 200, body := .json answer.toJson })
    (hfailure : ∀ failure, s.run now operation = .error failure → failure.IsOfTargeting) :
    Agrees (.ofOutcome (outcome now ⟨some s⟩ operation))
      (Http.answerWith now ⟨some s⟩ operation).1 := by
  unfold outcome Http.answerWith
  cases hrun : s.run now operation with
  | ok result =>
    obtain ⟨answer, t⟩ := result
    simp only [Store.run_eq_of_ok hrun, Http.Response.ofOutcome, hanswer answer t hrun]
    exact agrees_ok _
  | error failure =>
    simp only [Store.run_eq_of_error hrun, Http.Response.ofOutcome]
    exact agrees_error (hfailure failure hrun)

/-- Previewing a file agrees with a request to preview the same on the same date. -/
theorem preview_agrees (file : String) (given : Option Date)
    (h : call.Posts .preview program now.date (given.getD now.date) request.toJson.compact) :
    Agrees
      (.ofOutcome (preview now ⟨some s⟩ program file (.text request.toJson.compact) given))
      (Http.respond now ⟨some s⟩ call).1 := by
  rw [h.respond_eq ⟨some s⟩ h.preview, preview, readRequest_request]
  apply agrees_outcome
  · intro answer t hrun
    obtain ⟨result, -, heq⟩ := map_eq_ok_iff.mp hrun
    cases heq
    rfl
  · intro failure hrun
    exact Store.isOfTargeting_of_compileTargeting
      (Store.preview_eq_error_iff.mp (map_eq_error_iff.mp hrun))

/-- Validating a file agrees with a request to validate the same, whatever its reference date. -/
theorem validate_agrees (file : String)
    (h : call.Posts .validation program now.date asOf request.toJson.compact) :
    Agrees (.ofOutcome (validate now ⟨some s⟩ program file (.text request.toJson.compact)))
      (Http.respond now ⟨some s⟩ call).1 := by
  have hdate : s.run now (.validate program request now.date) =
      s.run now (.validate program request asOf) := by
    rw [Store.run, Store.run, Store.validate_onDate program request asOf now.date]
  have houtcome : validate now ⟨some s⟩ program file (.text request.toJson.compact) =
      outcome now ⟨some s⟩ (.validate program request asOf) := by
    rw [validate, readRequest_request]
    change outcome now ⟨some s⟩ (.validate program request now.date) = _
    simp only [outcome, Database.run, hdate]
  rw [h.respond_eq ⟨some s⟩ h.validation, houtcome]
  apply agrees_outcome
  · intro answer t hrun
    obtain ⟨result, -, heq⟩ := map_eq_ok_iff.mp hrun
    cases heq
    rfl
  · intro failure hrun
    exact Store.isOfTargeting_of_compileTargeting
      (Store.validate_eq_error_iff.mp (map_eq_error_iff.mp hrun))

/-- A command agrees with the service. On a file with the text of a request, previewing it agrees
with posting the same text to be previewed on the same date, and validating it agrees with posting it
to be validated, with any reference date. A file with the text of bare criteria is read as the
request for them without exclusions. -/
theorem agrees_with_service (now : Moment) (s : Store) (program : Uuid)
    (request : TargetingRequest) (file : String) :
    (∀ (given : Option Date) (call : Http.Request),
      call.Posts .preview program now.date (given.getD now.date) request.toJson.compact →
      Agrees
        (.ofOutcome (preview now ⟨some s⟩ program file (.text request.toJson.compact) given))
        (Http.respond now ⟨some s⟩ call).1) ∧
    (∀ (asOf : Date) (call : Http.Request),
      call.Posts .validation program now.date asOf request.toJson.compact →
      Agrees (.ofOutcome (validate now ⟨some s⟩ program file (.text request.toJson.compact)))
        (Http.respond now ⟨some s⟩ call).1) ∧
    ∀ criteria : Criteria, readRequest file (.text criteria.toJson.compact) =
      .ok { criteria, exclusions := none } :=
  ⟨fun given _ h => preview_agrees file given h, fun _ _ h => validate_agrees file h,
    readRequest_criteria file⟩

/-- Displaced households. -/
def displaced : TargetingRequest :=
  { criteria :=
      { rules :=
          [ { householdFilters :=
                [ { field := "residence_status"
                    classification := .core
                    round := none
                    method := .equals
                    arguments := ["IDP"] } ]
              blocks := [] } ] }
    exclusions := none }

/-- The request to target displaced households of a program, with a date of the year before. -/
def displacedCall (what : String) : Http.Request :=
  { method := .post
    target := "/api/v1/programs/d1f7a9c3-5b2e-4c8a-b6e4-917c30000007/targeting/" ++ what
      ++ "?as_of=2023-07-01"
    contentType := some "application/json"
    origin := none
    body := displaced.toJson.compact }

private theorem displacedCall_posts {what : String} {endpoint : List Char → Http.Endpoint}
    (h : Http.Endpoint.ofSegments? (displacedCall what).segments =
      some (endpoint "d1f7a9c3-5b2e-4c8a-b6e4-917c30000007".toList))
    (hdated : (displacedCall what).referenceDate Store.exampleMoment.date =
      .ok ⟨2023, 7, 1, by decide⟩) :
    (displacedCall what).Posts endpoint (Store.idAfter 7) Store.exampleMoment.date
      ⟨2023, 7, 1, by decide⟩ displaced.toJson.compact where
  method := rfl
  addressed := ⟨_, h, by decide +kernel⟩
  dated := hdated
  declared := (by decide +kernel : (some "application/json").any Http.isJsonType = true)
  body := rfl

/-- Displaced households are previewed and validated alike by a command and by the service. -/
theorem displaced_agrees :
    Agrees
      (.ofOutcome (preview Store.exampleMoment ⟨some Store.exampleStore⟩ (Store.idAfter 7)
        "displaced.json" (.text displaced.toJson.compact) (some ⟨2023, 7, 1, by decide⟩)))
      (Http.respond Store.exampleMoment ⟨some Store.exampleStore⟩ (displacedCall "preview")).1 ∧
    Agrees
      (.ofOutcome (validate Store.exampleMoment ⟨some Store.exampleStore⟩ (Store.idAfter 7)
        "displaced.json" (.text displaced.toJson.compact)))
      (Http.respond Store.exampleMoment ⟨some Store.exampleStore⟩ (displacedCall "validate")).1 := by
  obtain ⟨hpreview, hvalidate, -⟩ := agrees_with_service Store.exampleMoment Store.exampleStore
    (Store.idAfter 7) displaced "displaced.json"
  refine ⟨hpreview _ _ (displacedCall_posts ?_ ?_), hvalidate _ _ (displacedCall_posts ?_ ?_)⟩
  all_goals decide +kernel

end CommandLine

end Beneficiary
