import Beneficiary.CommandLine.Arguments
import Beneficiary.Storage.Opening
import Beneficiary.Wire.Answer

/-!
# Running a command

A command works on the database at a place. Criteria are read from a file that holds
either a whole request or bare criteria, compiled for a program and, for a preview, run over its
population. The outcome is JSON, or the reason why there is none; either is printed, and the exit code
tells which of the two it is.
-/

namespace Beneficiary.CommandLine

/-- How the program is called. -/
def usage : String :=
  "Compile and preview beneficiary targeting criteria

Usage: tgt [--db FILE] [COMMAND]

Commands:
  serve [--host HOST] [-p, --port PORT]
      Answer requests, one JSON object a line
  validate --program ID FILE
      Compile criteria against a program's schema and report errors
  preview --program ID FILE [--as-of DATE]
      Run criteria over a program's population
  help [COMMAND]
      Print this text"

/-- Why a command has no outcome. -/
inductive RunFailure where
  | notOpened (fault : OpeningFault) (place : String)
  | unreadable (file : String)
  | notJson (file : String)
  /-- The file holds JSON of another shape. -/
  | otherShape (file : String)
  | refused (failure : Failure)
deriving DecidableEq, Repr

/-- The reason in words. -/
def RunFailure.message : RunFailure → String
  | notOpened .unopened place => "Failed to open database at " ++ place
  | notOpened .unmade _ => "Failed to create schema_migrations table"
  | unreadable file => "Failed to read " ++ file
  | notJson file => "Invalid JSON in " ++ file
  | otherShape file => "No targeting request in " ++ file
  | refused failure => failure.message

/-- Opens the database at a place, given what each path leads to. The folders before the place are
made first. -/
def openDatabase (folder : Path) (contentAt : Path → Content) (place : String) :
    Except RunFailure Database :=
  let passable := (Path.foldersOf folder place).all Path.isNameable
  match (DatabaseLocation.ofText? place).filter fun _ => passable with
  | none => .error (.notOpened .unopened place)
  | some location =>
    let content := ((location.path? folder).map contentAt).getD .vacant
    (location.openWith folder content).mapError fun fault => .notOpened fault place

/-- What a file holds for a request; the file of the database holds none. -/
def contentForRequest (folder : Path) (place : Option String) (file : String)
    (content : Content) : Content :=
  let database := (place.bind DatabaseLocation.ofText?).bind (DatabaseLocation.path? folder)
  if database = some (.ofText folder file) then .unreadable else content

/-- The request in a JSON value: the value itself when it is an object with criteria, otherwise the
value taken for bare criteria. -/
def requestOf (value : Json) : Except Json.Fault TargetingRequest :=
  if (value.field? "criteria").isSome then Json.decodeValue TargetingRequest.decoder value
  else
    (Json.decodeValue Criteria.decoder value).map fun criteria => { criteria, exclusions := none }

/-- The request in a file. -/
def readRequest (file : String) : Content → Except RunFailure TargetingRequest
  | .text text =>
    match Json.parse text with
    | .error _ => .error (.notJson file)
    | .ok value => (requestOf value.json).mapError fun _ => .otherShape file
  | _ => .error (.unreadable file)

/-- Runs an operation that answers with JSON. -/
def outcome (now : Moment) (db : Database) (operation : Operation) : Except RunFailure Json :=
  match (db.run now operation).1 with
  | .ok answer => .ok answer.toJson
  | .error failure => .error (.refused failure)

/-- Validates the request in a file. -/
def validate (now : Moment) (db : Database) (program : Uuid) (file : String) (content : Content) :
    Except RunFailure Json := do
  let request ← readRequest file content
  outcome now db (.validate program request now.date)

/-- Previews the request in a file on a reference date, today unless one is given. -/
def preview (now : Moment) (db : Database) (program : Uuid) (file : String) (content : Content)
    (asOf : Option Date) : Except RunFailure Json := do
  let request ← readRequest file content
  outcome now db (.preview program request (asOf.getD now.date))

/-- What a run of the program prints, and the code with which it exits. -/
structure Printout where
  code : UInt32
  /-- The text on standard output. -/
  output : String
  /-- The text on standard error, apart from the log. -/
  errors : String
deriving DecidableEq, Repr

namespace Printout

/-- The printout of an outcome: its JSON over several lines, or the reason why there is none. -/
def ofOutcome : Except RunFailure Json → Printout
  | .ok value => { code := 0, output := value.pretty ++ "\n", errors := "" }
  | .error failure => { code := 1, output := "", errors := "Error: " ++ failure.message ++ "\n" }

/-- The printout of a command line that runs no command. -/
def ofStop : Stop → Printout
  | .help => { code := 0, output := usage ++ "\n", errors := "" }
  | .misuse =>
    { code := 2
      output := ""
      errors := "error: the command line is not acceptable; try --help\n" }

end Printout

end Beneficiary.CommandLine
