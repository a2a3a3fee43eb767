import Beneficiary.Storage.Path
import Beneficiary.Text.Percent

/-!
# Locations

A database stands in a file or in memory. Its location is written as the path of a file or as an
address `file:` with a path and parameters, which say how the database is opened. An address with a
host, or with a parameter of an unknown value, locates nothing.
-/

namespace Beneficiary

open Text

/-- What may be done with a database. -/
inductive Access where
  /-- It is made where it is missing, read and written. -/
  | create
  | write
  | read
  /-- It is kept in memory. -/
  | memory
deriving DecidableEq, Repr

namespace Access

/-- The access of a name. -/
def ofText? : String → Option Access
  | "rwc" => some create
  | "rw" => some write
  | "ro" => some read
  | "memory" => some memory
  | _ => none

/-- Whether an access may be narrowed to another. -/
def permits : Access → Access → Bool
  | _, memory => true
  | create, _ => true
  | memory, _ => true
  | write, narrowed => narrowed != create
  | read, narrowed => narrowed == read

end Access

/-- How files are reached, by the way they are locked. -/
inductive Medium where
  /-- Files are locked in parts, and changes are logged ahead of writing. -/
  | logged
  /-- Files are not locked. -/
  | unlocked
  /-- A file is locked by another beside it. -/
  | lockFile
  /-- Files are kept in memory. -/
  | memory
deriving DecidableEq, Repr

/-- The medium of a name. -/
def Medium.ofText? : String → Option Medium
  | "unix" => some logged
  | "unix-excl" => some logged
  | "unix-none" => some unlocked
  | "unix-dotfile" => some lockFile
  | "memdb" => some memory
  | _ => none

/-- Where a database stands and how it is opened. -/
structure DatabaseLocation where
  /-- The text of the file's path. -/
  file : List UInt8
  access : Access
  medium : Medium
  /-- The file never changes. -/
  immutable : Bool
  /-- The file is not locked, whatever its medium. -/
  nolock : Bool
deriving DecidableEq, Repr

namespace DatabaseLocation

/-- The location of a file that may be made and written. -/
def ofFile (file : List UInt8) : DatabaseLocation :=
  { file, access := .create, medium := .logged, immutable := false, nolock := false }

/-- The bytes of a part of an address; a zero byte ends them. -/
def partBytes (cs : List Char) : List UInt8 := (percentDecoded cs).takeWhile (· != 0)

/-- A part of an address as a string, empty if it is none. -/
def partText (cs : List Char) : String := (String.fromUTF8? ⟨(partBytes cs).toArray⟩).getD ""

/-- The parameters of an address, without those that have no name. -/
def parametersOf (query : List Char) : List (String × String) :=
  ((pieces (· == '&') query).map fun pair =>
    (partText (pair.takeWhile (· != '=')), partText ((pair.dropWhile (· != '=')).drop 1))).filter
    fun parameter => !parameter.1.isEmpty

/-- The value of a numeral at the start of a text, decimal or hexadecimal after `0x`; zero when it
does not fit in 31 bits. -/
def leadingNumber (cs : List Char) : Nat :=
  let fitting := fun n => if n < 2147483648 then n else 0
  let decimal := digitsValue (cs.takeWhile isDigit)
  match cs with
  | '0' :: x :: rest =>
    let digits := (rest.takeWhile fun c => (hexValue? c).isSome).filterMap hexValue?
    if (x = 'x' ∨ x = 'X') ∧ !digits.isEmpty then
      fitting (digits.foldl (fun n v => 16 * n + v) 0)
    else fitting decimal
  | _ => fitting decimal

/-- Whether the value of a parameter says yes; of a number its lowest byte counts. -/
def saysYes (value : String) : Bool :=
  match value.toList with
  | c :: cs =>
    if isDigit c then leadingNumber (c :: cs) % 256 != 0
    else ["on", "yes", "true"].contains (lowerAscii value)
  | [] => false

/-- Whether the first parameter of a name says yes. -/
def isSet (parameters : List (String × String)) (name : String) : Bool :=
  (parameters.lookup name).any saysYes

/-- The medium of the last parameter that names one. -/
def mediumOf? (parameters : List (String × String)) : Option Medium :=
  match parameters.reverse.lookup "vfs" with
  | some name => Medium.ofText? name
  | none => some .logged

/-- The location with a parameter taken into account that has to have a known value. -/
def withParameter (location : DatabaseLocation) (parameter : String × String) :
    Option DatabaseLocation :=
  match parameter with
  | ("cache", value) => if value = "shared" ∨ value = "private" then some location else none
  | ("mode", value) =>
    ((Access.ofText? value).filter location.access.permits).map
      fun access => { location with access }
  | _ => some location

/-- The part of an address after its host, which is empty or `localhost`. -/
def afterHost? : List Char → Option (List Char)
  | '/' :: '/' :: rest =>
    let host := rest.takeWhile (· != '/')
    if host.isEmpty ∨ host = "localhost".toList then some (rest.drop host.length) else none
  | cs => some cs

/-- The location of an address, from what follows `file:`. A sign `#` ends it. -/
def ofAddress? (cs : List Char) : Option DatabaseLocation := do
  let cs := (← afterHost? cs).takeWhile (· != '#')
  let parameters := parametersOf ((cs.dropWhile (· != '?')).drop 1)
  let location ← parameters.foldlM withParameter (ofFile (partBytes (cs.takeWhile (· != '?'))))
  return { location with
    medium := ← mediumOf? parameters
    immutable := isSet parameters "immutable"
    nolock := isSet parameters "nolock" }

/-- The location that a text denotes. -/
def ofText? (text : String) : Option DatabaseLocation :=
  match text.toList with
  | 'f' :: 'i' :: 'l' :: 'e' :: ':' :: rest => ofAddress? rest
  | _ => some (ofFile text.toUTF8.toList)

/-- Whether the database has no file: it is kept in memory, or its file has no name. -/
def isFileless (location : DatabaseLocation) : Bool :=
  location.access == .memory || location.file.isEmpty
    || location.file == ":memory:".toUTF8.toList

/-- The path of the file, in a folder; none when the database stands in memory. -/
def path? (folder : Path) (location : DatabaseLocation) : Option Path :=
  if location.isFileless || location.medium == .memory then none
  else some (.ofBytes folder location.file)

/-- Whether changes are logged ahead of writing. -/
def isLogged (location : DatabaseLocation) : Bool :=
  location.medium == .logged && !location.nolock && !location.immutable

/-- Whether the database is never written. -/
def isReadOnly (location : DatabaseLocation) : Bool :=
  location.access == .read || (location.immutable && !location.isFileless)

end DatabaseLocation

end Beneficiary
