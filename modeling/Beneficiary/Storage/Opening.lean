import Beneficiary.Json.Source
import Beneficiary.Storage.Location
import Beneficiary.Store.Operation
import Beneficiary.Wire.Store

/-!
# Opening a database

The file of a database begins with a byte that no text holds, so that neither can be taken for the
other; the store follows as JSON. A database is opened at its location and given tables if it has
none. A file of at most one byte holds a database without tables. To make them, a journal is needed
beside the file, whose name must have room for it.
-/

namespace Beneficiary

/-- What a path leads to. -/
inductive Content where
  /-- Nothing yet, in a folder that exists. -/
  | vacant
  | text (text : String)
  | store (store : Store)
  /-- Neither a text nor a database, or nothing where no file can be made. -/
  | unreadable

namespace Content

/-- The first byte of a database's file. -/
def mark : UInt8 := 255

/-- The bytes of a file that holds a store. -/
def bytesOf (store : Store) : ByteArray :=
  ⟨#[mark]⟩ ++ store.toJson.compact.toUTF8

/-- What the bytes of a file are. -/
def ofBytes (bytes : ByteArray) : Content :=
  if bytes[0]? = some mark then
    match (String.fromUTF8? (bytes.extract 1 bytes.size)).map (Json.decodeText Store.decoder) with
    | some (.ok s) => store s
    | _ => unreadable
  else
    match String.fromUTF8? bytes with
    | some s => text s
    | none => unreadable

end Content

/-- Why a database is not at hand. -/
inductive OpeningFault where
  | unopened
  /-- It has no tables and they cannot be made. -/
  | unmade
deriving DecidableEq, Repr

namespace DatabaseLocation

/-- The bytes that the name of a journal has beyond that of its database. -/
def journalRoom : Nat := 8

/-- Whether the file system can hold the file: its path has at most 512 bytes with a journal's, and
where a lock is a file, the name of the lock has five more bytes. -/
def isUsable (location : DatabaseLocation) (path : Path) : Bool :=
  let locked := location.medium == .lockFile && !location.nolock && !location.immutable
  !path.names.isEmpty && path.isNameable && path.toBytes.length + journalRoom ≤ 512
    && path.lastName.length + (if locked then 5 else 0) ≤ 255

/-- Makes tables in an empty file. When changes are logged ahead, the log is begun on opening. -/
def made (location : DatabaseLocation) (path : Path) : Except OpeningFault Database :=
  if !location.isReadOnly && path.lastName.length + journalRoom ≤ 255 then .ok .empty
  else if location.isLogged then .error .unopened
  else .error .unmade

/-- Opens the database in the file at a path. -/
def openFile (location : DatabaseLocation) (path : Path) (content : Content) :
    Except OpeningFault Database :=
  if location.isUsable path then
    match content with
    | .store store => .ok ⟨some store⟩
    | .vacant => if location.access = .create then location.made path else .error .unopened
    | .text text => if text.utf8ByteSize ≤ 1 then location.made path else .error .unopened
    | .unreadable => .error .unopened
  else .error .unopened

/-- Opens the database, given what stands at the path of its file. -/
def openWith (location : DatabaseLocation) (folder : Path) (content : Content) :
    Except OpeningFault Database :=
  match location.path? folder with
  | some path => location.openFile path content
  | none => if location.isReadOnly then .error .unmade else .ok .empty

end DatabaseLocation

end Beneficiary
