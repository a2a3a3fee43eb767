import Beneficiary.Text.Blank

/-!
# Paths

A path leads from the root of a file system through folders by their names. In the text of a path
an empty name and `.` lead nowhere and `..` leads back, so two texts may denote one path.
-/

namespace Beneficiary

open Text

/-- A name in a folder. -/
abbrev FileName := List UInt8

/-- A path from the root, by its names. -/
structure Path where
  names : List FileName
deriving DecidableEq, Repr, Inhabited

namespace Path

/-- The path to the root. -/
def root : Path := ⟨[]⟩

/-- Follows a name that stands in the text of a path. -/
def follow (path : Path) (name : FileName) : Path :=
  if name = [46, 46] then ⟨path.names.dropLast⟩ else ⟨path.names ++ [name]⟩

/-- The names in the text of a path that lead somewhere. -/
def namesIn (text : List UInt8) : List FileName :=
  (pieces (· == 47) text).filter fun name => !(name.isEmpty || name == [46])

/-- Where the text of a path starts from: the root when it starts with a slash, else a folder. -/
def start (folder : Path) (text : List UInt8) : Path :=
  if text.head? = some 47 then root else folder

/-- The path that a text denotes in a folder. -/
def ofBytes (folder : Path) (text : List UInt8) : Path :=
  (namesIn text).foldl follow (start folder text)

/-- The path that a string denotes in a folder. -/
def ofText (folder : Path) (text : String) : Path := ofBytes folder text.toUTF8.toList

/-- The folders that the text of a path goes through before its last name, the nearest first. -/
def foldersOf (folder : Path) (text : String) : List Path :=
  let bytes := text.toUTF8.toList
  (namesIn bytes).dropLast.foldl
    (fun passed name => (passed.head?.getD (start folder bytes)).follow name :: passed)
    [start folder bytes]

/-- The path of the folder in which the last name stands. -/
def parent (path : Path) : Path := ⟨path.names.dropLast⟩

/-- The last name; empty at the root. -/
def lastName (path : Path) : FileName := path.names.getLast?.getD []

/-- The path as bytes. -/
def toBytes (path : Path) : List UInt8 :=
  if path.names.isEmpty then [47] else path.names.flatMap fun name => 47 :: name

/-- The path as a string, if its bytes are one. -/
def text? (path : Path) : Option String := String.fromUTF8? ⟨path.toBytes.toArray⟩

/-- Whether a file system can hold the names, which have at most 255 bytes. -/
def isNameable (path : Path) : Bool := path.names.all fun name => name.length ≤ 255

end Path

end Beneficiary
