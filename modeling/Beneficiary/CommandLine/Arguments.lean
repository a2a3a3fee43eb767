import Beneficiary.Wire.Scalar

/-!
# Arguments

The words of a command line are read from the left. A command takes options with values and, where
it needs one, a file. The first word that asks for help or cannot be accepted decides the reading;
what is missing shows at the end.
-/

namespace Beneficiary.CommandLine

/-- The commands by name. -/
inductive CommandName where
  | serve
  | validate
  | preview
deriving DecidableEq, Repr

/-- The command of a name. -/
def CommandName.ofText? : String → Option CommandName
  | "serve" => some serve
  | "validate" => some validate
  | "preview" => some preview
  | _ => none

/-- The options; every one takes a value. -/
inductive OptionName where
  | db
  | host
  | port
  | program
  | asOf
deriving DecidableEq, Repr

namespace OptionName

/-- The option of a long name that a command takes, or no command yet. -/
def ofText? (command : Option CommandName) (name : String) : Option OptionName :=
  match name, command with
  | "db", _ => some db
  | "host", some .serve => some host
  | "port", some .serve => some port
  | "program", some .validate => some program
  | "program", some .preview => some program
  | "as-of", some .preview => some asOf
  | _, _ => none

/-- The option of a letter that a command takes. -/
def ofLetter? (command : Option CommandName) (letter : Char) : Option OptionName :=
  if letter = 'p' ∧ command = some .serve then some port else none

end OptionName

/-- What has been read of a command line. -/
structure Values where
  db : Option String
  host : Option String
  port : Option UInt16
  program : Option Uuid
  asOf : Option Date
  file : Option String
deriving DecidableEq, Repr

/-- Why a command line is not carried out. -/
inductive Stop where
  /-- Help is asked for. -/
  | help
  /-- The command line is not acceptable. -/
  | misuse
deriving DecidableEq, Repr

namespace Values

/-- Nothing read yet. -/
def empty : Values :=
  { db := none, host := none, port := none, program := none, asOf := none, file := none }

/-- A path; the empty text is none. -/
def path? (s : String) : Option String := if s.isEmpty then none else some s

/-- Keeps the value of an option that was not given before. -/
def keep {α : Type} (given : Option α) (read : Option α) : Except Stop (Option α) :=
  match given, read with
  | none, some value => .ok (some value)
  | _, _ => .error .misuse

/-- A port; it has no white space around it, and zero may have a minus sign. -/
def port? (s : String) : Option UInt16 :=
  let number := match s.toList with
    | '-' :: '+' :: _ => none
    | '-' :: digits => (Text.unsigned? digits).filter (· = 0)
    | cs => Text.unsigned? cs
  (number.filter (· < 65536)).map UInt16.ofNat

/-- The values with an option added, which may be given once. -/
def add (values : Values) (option : OptionName) (text : String) : Except Stop Values :=
  match option with
  | .db => (keep values.db (path? text)).map fun db => { values with db }
  | .host => (keep values.host (some text)).map fun host => { values with host }
  | .port => (keep values.port (port? text)).map fun port => { values with port }
  | .program => (keep values.program (Uuid.ofText? text)).map fun program => { values with program }
  | .asOf => (keep values.asOf (Date.ofText? text)).map fun asOf => { values with asOf }

/-- The values with a file added, of which a command other than the service takes one. -/
def addFile (values : Values) (command : CommandName) (text : String) : Except Stop Values :=
  if command = .serve then .error .misuse
  else (keep values.file (path? text)).map fun file => { values with file }

end Values

/-- A word of a command line. -/
inductive Word where
  /-- The mark after which no word is an option. -/
  | mark
  /-- A long option, with its value if one follows an equals sign. -/
  | long (name : String) (value : Option String)
  /-- A letter, with the text that follows it. -/
  | short (letter : Char) (rest : List Char)
  | operand (text : String)
deriving DecidableEq, Repr

/-- The kind of a word; a hyphen alone is an operand. -/
def Word.of (s : String) : Word :=
  match s.toList with
  | ['-', '-'] => .mark
  | '-' :: '-' :: cs =>
    let name := String.ofList (cs.takeWhile (· != '='))
    match cs.dropWhile (· != '=') with
    | _ :: value => .long name (some (String.ofList value))
    | [] => .long name none
  | '-' :: letter :: rest => .short letter rest
  | _ => .operand s

/-- What a word asks for. -/
inductive Step where
  | stop (stop : Stop)
  /-- An option with its value. -/
  | value (option : OptionName) (text : String)
  /-- An option whose value is the next word. -/
  | awaiting (option : OptionName)
  | mark
  | operand (text : String)
deriving DecidableEq, Repr

/-- What a word asks for in a command, or before any. -/
def Word.step (command : Option CommandName) : Word → Step
  | .mark => .mark
  | .operand text => .operand text
  | .long "help" none => .stop .help
  | .long name value =>
    match OptionName.ofText? command name, value with
    | some option, some text => .value option text
    | some option, none => .awaiting option
    | none, _ => .stop .misuse
  | .short letter rest =>
    if letter = 'h' then .stop .help
    else
      match OptionName.ofLetter? command letter, rest with
      | some option, [] => .awaiting option
      | some option, '=' :: text => .value option (String.ofList text)
      | some option, text => .value option (String.ofList text)
      | none, _ => .stop .misuse

/-- The value that a word gives to the option before it; options are no values. -/
def Word.value? : Word → Option String
  | .operand text => some text
  | _ => none

/-- Reads words that are no options. -/
def readFiles (command : CommandName) : Values → List String → Except Stop Values
  | values, [] => .ok values
  | values, word :: rest => do
    let values ← values.addFile command word
    readFiles command values rest

/-- Reads the words after a command. -/
def readWords (command : CommandName) : Values → List String → Except Stop Values
  | values, [] => .ok values
  | values, word :: rest =>
    match (Word.of word).step (some command) with
    | .stop stop => .error stop
    | .mark => readFiles command values rest
    | .operand text => do
      let values ← values.addFile command text
      readWords command values rest
    | .value option text => do
      let values ← values.add option text
      readWords command values rest
    | .awaiting option =>
      match rest with
      | [] => .error .misuse
      | next :: rest =>
        match (Word.of next).value? with
        | none => .error .misuse
        | some text => do
          let values ← values.add option text
          readWords command values rest

/-- What a command line asks for. -/
inductive Command where
  /-- Answering requests, at a host and port if given. -/
  | serve (host : Option String) (port : Option UInt16)
  | validate (program : Uuid) (file : String)
  | preview (program : Uuid) (file : String) (asOf : Option Date)
deriving DecidableEq, Repr

/-- The command of the values read after its name. -/
def CommandName.command (name : CommandName) (values : Values) : Except Stop Command :=
  match name, values.program, values.file with
  | .serve, _, _ => .ok (.serve values.host values.port)
  | .validate, some program, some file => .ok (.validate program file)
  | .preview, some program, some file => .ok (.preview program file values.asOf)
  | _, _, _ => .error .misuse

/-- A command line: the database file if one is given, and the command. -/
structure Invocation where
  databasePath : Option String
  command : Command
deriving DecidableEq, Repr

/-- The answer to the command that explains commands. -/
def helpOn : List String → Stop
  | [] => .help
  | [name] => if name = "help" ∨ (CommandName.ofText? name).isSome then .help else .misuse
  | _ => .misuse

/-- Reads a command with the words after it: what is given after its name, and what is asked
for. -/
def readCommand (name : String) (rest : List String) : Except Stop (Values × Command) :=
  if name = "help" then .error (helpOn rest)
  else
    match CommandName.ofText? name with
    | none => .error .misuse
    | some command => do
      let values ← readWords command .empty rest
      let asked ← command.command values
      return (values, asked)

/-- An option with the word after it, not yet accepted. -/
abbrev Pending := Option (OptionName × String)

/-- The values with what is pending accepted. -/
def Values.settle (values : Values) : Pending → Except Stop Values
  | some (option, text) => values.add option text
  | none => .ok values

/-- Reads the words before a command, and the command; none is the service. An option with its
value in a word of its own is accepted at the next word, but after the command if that is what
follows. A database file given after the command counts before one given earlier. -/
def readInvocation : Values → Pending → List String → Except Stop Invocation
  | values, pending, [] => do
    let values ← values.settle pending
    return { databasePath := values.db, command := .serve none none }
  | values, pending, word :: rest =>
    match (Word.of word).step none with
    | .stop stop => do
      let _ ← values.settle pending
      throw stop
    | .mark => do
      let values ← values.settle pending
      if rest.isEmpty then
        return { databasePath := values.db, command := .serve none none }
      else throw .misuse
    | .operand name => do
      let (inner, asked) ← readCommand name rest
      let values ← values.settle pending
      return { databasePath := inner.db.or values.db, command := asked }
    | .value option text => do
      let values ← values.settle pending
      let values ← values.add option text
      readInvocation values none rest
    | .awaiting option =>
      match rest with
      | [] => .error .misuse
      | next :: rest =>
        match (Word.of next).value? with
        | none => .error .misuse
        | some text => do
          let values ← values.settle pending
          readInvocation values (some (option, text)) rest

/-- Reads a whole command line. -/
def Invocation.ofArguments (arguments : List String) : Except Stop Invocation :=
  readInvocation .empty none arguments

end Beneficiary.CommandLine
