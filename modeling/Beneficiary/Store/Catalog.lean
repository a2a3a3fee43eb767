import Beneficiary.Criteria.Schema
import Beneficiary.Store.Basic
import Beneficiary.Store.Failure

/-!
# Programs and their fields

Programs are set up and then register fields. Within a program no two fields share a name, be they
core, flex or periodic. Creating a program or field changes nothing else.
-/

namespace Beneficiary

namespace Store

/-- The program of an identifier, which must exist. -/
def requireProgram (s : Store) (id : Uuid) : Except Failure Program :=
  match s.program? id with
  | some program => .ok program
  | none => .error .unknownProgram

/-- Sets up a program. -/
def createProgram (s : Store) (now : Moment) (input : NewProgram) :
    Except Failure (Program × Store) := do
  require (!Text.isBlankText input.name) .blankProgramName
  let program : Program :=
    { id := s.nextId
      name := input.name
      businessArea := input.businessArea
      mode := input.mode.getD .household
      createdAt := now }
  return (program, { s with issued := s.issued + 1, programs := s.programs ++ [program] })

/-- Checks that a name is neither blank nor that of a core field. -/
def checkFieldName (name : String) : Except Failure Unit := do
  require (!Text.isBlankText name) .blankFieldName
  require (CoreField.find? name).isNone (.coreFieldName name)

/-- Whether a program has registered a field of a name. -/
def hasField (s : Store) (program : Uuid) (name : String) : Bool :=
  (s.flexAttributes.any fun a => a.programId == program && a.name == name)
    || s.periodicFields.any fun f => f.programId == program && f.name == name

/-- Registers a flex attribute; choices go with enumerations and selections only. -/
def createFlexAttribute (s : Store) (now : Moment) (programId : Uuid) (input : NewFlexAttribute) :
    Except Failure (FlexAttribute × Store) := do
  let _ ← s.requireProgram programId
  checkFieldName input.name
  require (input.choices.isEmpty || input.valueType.hasChoices) .choicesNotAllowed
  require (!s.hasField programId input.name) (.fieldNameTaken input.name)
  let flex : FlexAttribute :=
    { id := s.nextId
      programId
      name := input.name
      owner := input.owner
      valueType := input.valueType
      label := input.label
      choices := input.choices
      createdAt := now }
  return (flex,
    { s with issued := s.issued + 1, flexAttributes := s.flexAttributes ++ [flex] })

/-- Registers a periodic field: it has a round at least, no more names than rounds, and values of a
type that is not chosen from options. -/
def createPeriodicField (s : Store) (now : Moment) (programId : Uuid) (input : NewPeriodicField) :
    Except Failure (PeriodicField × Store) := do
  let _ ← s.requireProgram programId
  checkFieldName input.name
  require (input.numberOfRounds != 0) .noRounds
  require (!input.subtype.hasChoices) .roundsOfChoices
  require (decide (input.roundNames.length ≤ input.numberOfRounds.toNat)) .tooManyRoundNames
  require (!s.hasField programId input.name) (.fieldNameTaken input.name)
  let field : PeriodicField :=
    { id := s.nextId
      programId
      name := input.name
      owner := input.describedKind
      label := input.label
      spec := input.spec
      createdAt := now }
  return (field, { s with issued := s.issued + 1, periodicFields := s.periodicFields ++ [field] })

/-- The schema of a program as it stands. -/
def schemaOf (s : Store) (program : Uuid) : Schema := .ofFields (s.fieldsOf program)

/-- All fields that rules of a program can refer to. -/
def fieldDescriptors (s : Store) (program : Uuid) : Except Failure (List FieldDescriptor) := do
  let _ ← s.requireProgram program
  return (s.schemaOf program).fields

end Store

end Beneficiary
