import Beneficiary.Calendar.Clock
import Beneficiary.CommandLine.Run
import Beneficiary.Http.Exchange
import Beneficiary.Settings

/-!
# The command line

Carries out a command line on a database file. Validation and preview print their outcome as JSON;
the service reads one request from each line of standard input and keeps the database after each.
-/

namespace Beneficiary

namespace CommandLine

/-- The settings of the environment. -/
def currentSettings : IO Settings := do
  let names :=
    ["TARGETING_DB_PATH", "TARGETING_HOST", "TARGETING_PORT", "TARGETING_CORS_ORIGINS"]
  let values ← names.mapM fun name => do return (name, (← IO.getEnv name))
  return Settings.ofLookup fun name => (values.lookup name).join

/-- The usual database file. -/
def usualDatabasePath : IO String := do
  match ← IO.getEnv "XDG_DATA_HOME", ← IO.getEnv "HOME" with
  | some place, _ => return place ++ "/targeting/targeting.db"
  | none, some home => return home ++ "/.local/share/targeting/targeting.db"
  | none, none => return "targeting.db"

/-- Whether a path leads to a folder. -/
def isFolder (path : String) : IO Bool := do
  ((← IO.currentDir) / path).isDir

/-- What the text of a path leads to. -/
def contentOf (text : String) : IO Content := do
  try
    return .ofBytes (← IO.FS.readBinFile text)
  catch
    | .noFileOrDirectory .. => return .vacant
    | _ => return .unreadable

/-- What a path leads to. -/
def contentAt (path : Path) : IO Content := do
  match path.text?, path.parent.text? with
  | some text, some folder =>
    match ← contentOf text with
    | .vacant => return if ← isFolder folder then .vacant else .unreadable
    | content => return content
  | _, _ => return .unreadable

/-- Makes the folders before a place, and tells whether they are there. -/
def makeFolders (folder : Path) (place : String) : IO Bool := do
  match ((Path.foldersOf folder place).head?).bind Path.text? with
  | some text =>
    try
      IO.FS.createDirAll text
      return true
    catch _ => return false
  | none => return false

/-- What the file of a database at a place leads to. -/
def databaseContent (folder : Path) (place : String) : IO Content := do
  if ← makeFolders folder place then
    match (DatabaseLocation.ofText? place).bind (DatabaseLocation.path? folder) with
    | some path => contentAt path
    | none => return .vacant
  else return .unreadable

/-- Keeps a database that is read and written in its file. -/
def saveDatabase (folder : Path) (place : String) (db : Database) : IO Unit := do
  match (DatabaseLocation.ofText? place).filter (!·.isReadOnly), db.tables with
  | some location, some store =>
    match (location.path? folder).bind Path.text? with
    | some file => IO.FS.writeBinFile file (Content.bytesOf store)
    | none => return ()
  | _, _ => return ()

/-- Answers requests until the input ends. -/
partial def answerLines (folder : Path) (place : String) (policy : Http.OriginPolicy)
    (db : Database) : IO UInt32 := do
  let line ← (← IO.getStdin).getLine
  if line.isEmpty then return 0
  match Http.exchange? (← currentMoment) policy db line with
  | none =>
    IO.eprintln "Error: the line holds no request"
    answerLines folder place policy db
  | some (response, after) =>
    saveDatabase folder place after
    IO.println response
    (← IO.getStdout).flush
    answerLines folder place policy after

/-- Prints a printout, and exits with its code. -/
def report (printout : Printout) : IO UInt32 := do
  IO.print printout.output
  IO.eprint printout.errors
  return printout.code

/-- Serves the database at a place. -/
def serve (settings : Settings) (folder : Path) (place : String) (db : Database) :
    IO UInt32 := do
  match Http.OriginPolicy.ofOrigins? settings.origins with
  | none =>
    IO.eprintln "Error: a wildcard is no origin"
    return 1
  | some policy =>
    IO.eprintln ("Answering requests for " ++ settings.address)
    answerLines folder place policy db

/-- Carries out a command. -/
def carryOut (invocation : Invocation) : IO UInt32 := do
  let settings ← currentSettings
  let folder : Path := .ofText .root (← IO.currentDir).toString
  let place ← match invocation.databasePath.or settings.databasePath with
    | some place => pure place
    | none => usualDatabasePath
  let content ← databaseContent folder place
  match openDatabase folder (fun _ => content) place with
  | .error failure => report (.ofOutcome (.error failure))
  | .ok db =>
    let now ← currentMoment
    let request (file : String) : IO Content := do
      return contentForRequest folder place file (← contentOf file)
    match invocation.command with
    | .serve host port =>
      let host := host.getD settings.host
      let port := port.getD settings.port
      serve { settings with host, port } folder place db
    | .validate program file =>
      report (.ofOutcome (validate now db program file (← request file)))
    | .preview program file asOf =>
      report (.ofOutcome (preview now db program file (← request file) asOf))

end CommandLine

end Beneficiary

/-- Reads the command line and carries it out. -/
def main (arguments : List String) : IO UInt32 := do
  match Beneficiary.CommandLine.Invocation.ofArguments arguments with
  | .ok invocation => Beneficiary.CommandLine.carryOut invocation
  | .error stop => Beneficiary.CommandLine.report (.ofStop stop)
