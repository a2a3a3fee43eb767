import Beneficiary.Field.Core
import Beneficiary.Json.Decoder
import Beneficiary.Json.Printer
import Beneficiary.Registry.Program

/-!
# The store

A store keeps programs, their fields, and households with their members, each in order of
creation. Identifiers come from a source that hands out none twice, so no two entities share one; the
usual source counts. The program's own attributes of a household or member are kept as JSON text and
read back from it.
-/

namespace Beneficiary

/-- A source of identifiers, which hands out none twice. -/
structure IdSource where
  /-- The identifier that is handed out after `count` others. -/
  after (count : Nat) : Uuid
  distinct {m n : Nat} : after m = after n → m = n

namespace Store

/-- The number of the first identifier. -/
def firstId : Nat := 0xd1f7a9c35b2e4c8ab6e4917c30000000

/-- The identifier that the usual source hands out after `count` others. -/
def idAfter (count : Nat) : Uuid := ⟨firstId + count⟩

end Store

/-- The usual source, whose identifiers are consecutive numbers. -/
def IdSource.counting : IdSource where
  after := Store.idAfter
  distinct h := Nat.add_left_cancel (Uuid.mk.inj h)

/-- What has been registered, in order of creation. -/
structure Store where
  /-- Where new identifiers come from. -/
  ids : IdSource
  /-- How many identifiers have been handed out. -/
  issued : Nat
  programs : List Program
  flexAttributes : List FlexAttribute
  periodicFields : List PeriodicField
  households : List Household
  individuals : List Individual

namespace Store

/-- The store in which nothing is registered, after `issued` identifiers were handed out. -/
def emptyAfter (issued : Nat) (ids : IdSource := .counting) : Store :=
  { ids
    issued
    programs := []
    flexAttributes := []
    periodicFields := []
    households := []
    individuals := [] }

/-- The store in which nothing is registered and no identifier was handed out. -/
def empty : Store := emptyAfter 0

instance : Inhabited Store := ⟨empty⟩

/-- The identifier to hand out next. -/
def nextId (s : Store) : Uuid := s.ids.after s.issued

/-- The items in ascending order of their key; items of one key keep their order. -/
def sortedBy {α : Type} (key : α → String) (items : List α) : List α :=
  items.mergeSort fun a b => decide (key a ≤ key b)

/-- The program of an identifier. -/
def program? (s : Store) (id : Uuid) : Option Program := s.programs.find? fun p => p.id == id

/-- The household of an identifier. -/
def household? (s : Store) (id : Uuid) : Option Household :=
  s.households.find? fun h => h.id == id

/-- The individual of an identifier. -/
def individual? (s : Store) (id : Uuid) : Option Individual :=
  s.individuals.find? fun i => i.id == id

/-- All programs by name. -/
def programsByName (s : Store) : List Program := sortedBy Program.name s.programs

/-- The flex attributes of a program by name. -/
def flexAttributesOf (s : Store) (program : Uuid) : List FlexAttribute :=
  sortedBy FlexAttribute.name (s.flexAttributes.filter fun a => a.programId == program)

/-- The periodic fields of a program by name. -/
def periodicFieldsOf (s : Store) (program : Uuid) : List PeriodicField :=
  sortedBy PeriodicField.name (s.periodicFields.filter fun f => f.programId == program)

/-- The fields that a program has registered. -/
def fieldsOf (s : Store) (program : Uuid) : ProgramFields :=
  { flexAttributes := s.flexAttributesOf program
    periodicFields := s.periodicFieldsOf program }

end Store

namespace Json.Fields

/-- The fields as they are read back from their text. A text that cannot be read holds no
fields. -/
def reread (fields : Fields) : Fields :=
  match decodeText Decoder.fields (compact fields.toJson) with
  | .ok kept => kept
  | .error _ => .empty

end Json.Fields

end Beneficiary
