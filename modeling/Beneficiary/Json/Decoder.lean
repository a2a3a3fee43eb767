import Beneficiary.Json.Ordered
import Beneficiary.Json.Source

/-!
# Decoding JSON

A decoder turns the tree of a text into a value of the domain or reports the first fault that the
text has, read from left to right: malformed text, or a well formed value of the wrong shape. A
record is decoded from an object or from the array of its fields in their declared order; an
unknown name in an object is passed over, a repeated known one is a fault.
-/

namespace Beneficiary.Json

/-- Why a text does not decode. -/
inductive Fault where
  /-- The text is no JSON up to here. -/
  | malformed
  /-- The value is no value of the type. -/
  | mismatch
deriving DecidableEq, Repr

/-- A decoder of one type. -/
abbrev Decoder (α : Type) := Source → Except Fault α

namespace Decoder

/-- The fault of a value of another kind than expected. -/
def otherKind : Source → Fault
  | .broken => .malformed
  | .number none => .malformed
  | .string none => .malformed
  | _ => .mismatch

/-- A string. -/
def string : Decoder String
  | .string (some s) => .ok s
  | source => .error (otherKind source)

/-- A truth value. -/
def bool : Decoder Bool
  | .bool b => .ok b
  | source => .error (otherKind source)

/-- An integer literal between two bounds, both included. -/
def integer (least greatest : Int) : Decoder Int
  | .number (some (.integer z)) =>
    if least ≤ z ∧ z ≤ greatest then .ok z else .error .mismatch
  | source => .error (otherKind source)

/-- A natural number of thirty-two bits. -/
def uint32 : Decoder UInt32 := fun source =>
  (integer 0 4294967295 source).map fun z => UInt32.ofNat z.toNat

/-- An integer of sixty-four bits. -/
def int64 : Decoder Int64 := fun source =>
  (integer (-9223372036854775808) 9223372036854775807 source).map Int64.ofInt

/-- A natural number of sixty-four bits. -/
def count : Decoder Nat := fun source =>
  (integer 0 18446744073709551615 source).map Int.toNat

/-- A string that a reader accepts as a whole. -/
def text {α : Type} (read : String → Option α) : Decoder α := fun source => do
  match read (← string source) with
  | some value => .ok value
  | none => .error .mismatch

/-- `null`, or a value. -/
def option {α : Type} (decode : Decoder α) : Decoder (Option α)
  | .null => .ok none
  | source => (decode source).map some

/-- The items decoded in turn; an array that is not closed is malformed after them. -/
def items {α : Type} (decode : Decoder α) (closed : Bool) : List Source → Except Fault (List α)
  | [] => if closed then .ok [] else .error .malformed
  | item :: rest => do
    let first ← decode item
    let others ← items decode closed rest
    .ok (first :: others)

/-- An array of values of one type. -/
def list {α : Type} (decode : Decoder α) : Decoder (List α)
  | .array sources closed => items decode closed sources
  | .tooDeep (.array _ _) => .error .malformed
  | source => .error (otherKind source)

mutual

/-- Any value, its fields as they were written. -/
def value : Source → Except Fault Json
  | .null => .ok .null
  | .bool b => .ok (.bool b)
  | .number (some n) => .ok (.number n)
  | .string (some s) => .ok (.string s)
  | .number none => .error .malformed
  | .string none => .error .malformed
  | .array sources closed => do
    let values ← valueItems sources
    if closed then .ok (.array values) else .error .malformed
  | .object sources closed => do
    let values ← valueFields sources
    if closed then .ok (.object values) else .error .malformed
  | .tooDeep _ => .error .malformed
  | .broken => .error .malformed

/-- The items as values. -/
def valueItems : List Source → Except Fault (List Json)
  | [] => .ok []
  | source :: rest => do
    let first ← value source
    let others ← valueItems rest
    .ok (first :: others)

/-- The named values, each name with its value. -/
def valueFields : List (Option String × Source) → Except Fault (List (String × Json))
  | [] => .ok []
  | (none, _) :: _ => .error .malformed
  | (some name, source) :: rest => do
    let first ← value source
    let others ← valueFields rest
    .ok ((name, first) :: others)

end

/-- Any value, in ordered form. -/
def ordered : Decoder Ordered := fun source => (value source).map Ordered.of

/-- An object of any values, in ordered form. -/
def fields : Decoder Fields
  | .object sources closed => do
    let values ← valueFields sources
    if closed then .ok (Fields.of values) else .error .malformed
  | .tooDeep (.object _ _) => .error .malformed
  | source => .error (otherKind source)

/-- One of a list of names: a string, or an object with the name as its only key and `null`
under it. Other kinds of value are malformed. -/
def choice {α : Type} (read : String → Option α) : Decoder α
  | .string (some name) =>
    match read name with
    | some value => .ok value
    | none => .error .mismatch
  | .object ((some name, source) :: rest) closed =>
    match read name with
    | none => .error .mismatch
    | some value =>
      match source with
      | .null => if rest.isEmpty && closed then .ok value else .error .malformed
      | other => .error (otherKind other)
  | _ => .error .malformed

/-- What a record decoder sees: the declared fields that are present with their places in the
text, the number of places, and whether the record was written as an array. -/
structure Slots where
  entries : List (String × Nat × Source)
  size : Nat
  positional : Bool

/-- A fault and the place where it shows. -/
abbrev Placed := Nat × Fault

/-- The earlier of two faults. -/
def earlier (a b : Placed) : Placed := if b.1 < a.1 then b else a

/-- A part of a record: the names it reads, in order, and how it reads them. -/
structure Record (α : Type) where
  names : List String
  read : Slots → Except Placed α

namespace Record

/-- A part that reads nothing. -/
def pure {α : Type} (value : α) : Record α := ⟨[], fun _ => .ok value⟩

/-- Two parts, of which the earlier fault counts. -/
def seq {α β : Type} (first : Record (α → β)) (second : Unit → Record α) : Record β where
  names := first.names ++ (second ()).names
  read slots :=
    match first.read slots, (second ()).read slots with
    | .ok f, .ok a => .ok (f a)
    | .error e, .ok _ => .error e
    | .ok _, .error e => .error e
    | .error e, .error e' => .error (earlier e e')

instance : Applicative Record where
  pure := pure
  seq := seq

/-- A field that must be present. A missing one shows at the end. -/
def required {α : Type} (name : String) (decode : Decoder α) : Record α where
  names := [name]
  read slots :=
    match slots.entries.lookup name with
    | some (place, source) => (decode source).mapError fun fault => (place, fault)
    | none => .error (slots.size + 1, .mismatch)

/-- A field that may be absent from an object and from an array. -/
def defaulted {α : Type} (name : String) (decode : Decoder α) (value : α) : Record α where
  names := [name]
  read slots :=
    match slots.entries.lookup name with
    | some (place, source) => (decode source).mapError fun fault => (place, fault)
    | none => .ok value

/-- A field that may be `null`, and may be absent from an object but not from an array. -/
def nullable {α : Type} (name : String) (decode : Decoder α) : Record (Option α) where
  names := [name]
  read slots :=
    match slots.entries.lookup name with
    | some (place, source) => (option decode source).mapError fun fault => (place, fault)
    | none => if slots.positional then .error (slots.size + 1, .mismatch) else .ok none

/-- A field that may be `null` and may be absent. -/
def optional {α : Type} (name : String) (decode : Decoder α) : Record (Option α) :=
  defaulted name (option decode) none

end Record

/-- The declared fields of an object with their places, and the first fault of the object itself:
a name that is no string, a repeated declared name, an unknown field whose value `skip` refuses.
An object that is not closed is malformed at its end. -/
def fieldSlots (names : List String) (skip : Source → Bool) (closed : Bool) :
    Nat → List String → List (Option String × Source) →
      List (String × Nat × Source) × Option Placed
  | place, _, [] => ([], if closed then none else some (place, .malformed))
  | place, _, (none, _) :: _ => ([], some (place, .malformed))
  | place, seen, (some name, source) :: rest =>
    if names.contains name then
      if seen.contains name then ([], some (place, .mismatch))
      else
        let (entries, fault) := fieldSlots names skip closed (place + 1) (name :: seen) rest
        ((name, place, source) :: entries, fault)
    else if skip source then fieldSlots names skip closed (place + 1) seen rest
    else ([], some (place, .malformed))

/-- The declared fields in the order of an array, with their places. -/
def itemSlots : Nat → List String → List Source → List (String × Nat × Source)
  | place, name :: names, source :: rest =>
    (name, place, source) :: itemSlots (place + 1) names rest
  | _, _, _ => []

/-- The value of a record's parts, unless the container has an earlier fault. -/
def settle {α : Type} (container : Option Placed) (parts : Except Placed α) : Except Fault α :=
  match container, parts with
  | none, .ok value => .ok value
  | none, .error e => .error e.2
  | some e, .ok _ => .error e.2
  | some e, .error e' => .error (earlier e e').2

/-- A record written as an object, unknown fields judged by `skip`. -/
def objectRecord {α : Type} (skip : Source → Bool) (parts : Record α) : Decoder α
  | .object sources closed =>
    let (entries, fault) := fieldSlots parts.names skip closed 0 [] sources
    settle fault (parts.read { entries, size := sources.length, positional := false })
  | .tooDeep (.object _ _) => .error .malformed
  | source => .error (otherKind source)

/-- A record written as an object, or as an array of its fields. Items beyond the last field are
malformed. -/
def record {α : Type} (parts : Record α) : Decoder α
  | .array sources closed =>
    let fault : Option Placed :=
      if closed && sources.length ≤ parts.names.length then none
      else some (min sources.length parts.names.length, .malformed)
    settle fault (parts.read
      { entries := itemSlots 0 parts.names sources, size := sources.length, positional := true })
  | .tooDeep (.array _ _) => .error .malformed
  | source => objectRecord Source.isWellFormed parts source

end Decoder

/-- Decodes a whole text: the value first, then what follows it. -/
def decodeText {α : Type} (decode : Decoder α) (text : String) : Except Fault α := do
  let document := Document.ofChars text.toList
  let value ← decode document.value
  if document.ended then .ok value else .error .malformed

/-- Decodes a value. -/
def decodeValue {α : Type} (decode : Decoder α) (value : Json) : Except Fault α :=
  decode value.toSource

/-- The value of a whole text, its objects in ordered form. -/
def parse (text : String) : Except Fault Ordered := decodeText Decoder.ordered text

end Beneficiary.Json
