import Beneficiary.Http.Endpoint
import Beneficiary.Http.Origin

/-!
# The service

The service answers requests from a database. An unknown path is not found, a known path with
another method is not allowed, a refused request does not reach the database, and a failed
operation leaves it as it was.
-/

namespace Beneficiary.Http

namespace Response

/-- The response of an operation that made something, or of one that looked something up. -/
def ofFound (status : Nat) (what : String) : Option Json → Response
  | some value => { status, body := .json value }
  | none => notFound what

/-- The response of a withdrawal. -/
def ofWithdrawal (what : String) (found : Bool) : Response :=
  if found then bare 204 else notFound what

/-- The status of an operation that succeeds. -/
def successStatus : Operation → Nat
  | .createProgram _ => 201
  | .createFlexAttribute _ _ => 201
  | .createPeriodicField _ _ => 201
  | .createHousehold _ _ => 201
  | _ => 200

/-- The response of an answered operation. -/
def ofAnswer (operation : Operation) (answer : Answer) : Response :=
  match answer with
  | .program p => ofFound (successStatus operation) "Program" (p.map Program.toJson)
  | .record r => ofFound (successStatus operation) "Household" (r.map HouseholdRecord.toJson)
  | .individual i => ofFound (successStatus operation) "Individual" (i.map Individual.toJson)
  | .withdrawn found =>
    match operation with
    | .withdrawHousehold _ => ofWithdrawal "Household" found
    | _ => ofWithdrawal "Individual" found
  | answer => { status := successStatus operation, body := .json answer.toJson }

/-- The response of an outcome. -/
def ofOutcome (operation : Operation) : Except Failure Answer → Response
  | .ok answer => ofAnswer operation answer
  | .error failure => ofFailure failure

end Response

/-- Answers with an operation. -/
def answerWith (now : Moment) (db : Database) (operation : Operation) : Response × Database :=
  let (outcome, after) := db.run now operation
  (.ofOutcome operation outcome, after)

/-- Performs an operation. The households of a program are listed only where the program
exists. -/
def perform (now : Moment) (db : Database) (operation : Operation) : Response × Database :=
  match operation with
  | .getHouseholds program =>
    match db.run now (.getProgram program) with
    | (.ok (.program none), _) => (.notFound "Program", db)
    | (.error failure, _) => (.ofFailure failure, db)
    | _ => answerWith now db operation
  | operation => answerWith now db operation

/-- Carries out what an endpoint asks for. -/
def carryOut (now : Moment) (db : Database) : Except Refusal Task → Response × Database
  | .error refusal => (.ofRefusal refusal, db)
  | .ok .health => ({ status := 200, body := .json (.object [("status", .string "ok")]) }, db)
  | .ok (.operation operation) => perform now db operation

/-- Answers a request by the endpoint that its path addresses. -/
def route (now : Moment) (db : Database) (request : Request) : Response × Database :=
  match Endpoint.ofSegments? request.segments with
  | none => (.bare 404, db)
  | some endpoint =>
    match endpoint.task? request now.date with
    | none => (.bare 405, db)
    | some task => carryOut now db task

/-- Answers a request. Options are answered for every path, and a request for the head alone gets
no body. -/
def respond (now : Moment) (db : Database) (request : Request) : Response × Database :=
  match request.method with
  | .options => (.bare 200, db)
  | .head =>
    let (response, after) := route now db request
    (.bare response.status, after)
  | _ => route now db request

end Beneficiary.Http
