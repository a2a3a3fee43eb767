import Beneficiary.Store.Changes
import Beneficiary.Store.Preview

/-!
# Operations on a database

A database is a store whose tables may not have been made yet. Every operation is a value; running
one gives an answer or a failure and the database afterwards. A failed operation leaves the
database as it was.
-/

namespace Beneficiary

/-- Everything that can be asked of a store. -/
inductive Operation where
  | createProgram (input : NewProgram)
  | getProgram (id : Uuid)
  | getPrograms
  | createFlexAttribute (program : Uuid) (input : NewFlexAttribute)
  | createPeriodicField (program : Uuid) (input : NewPeriodicField)
  | getFlexAttributes (program : Uuid)
  | getPeriodicFields (program : Uuid)
  | getProgramFields (program : Uuid)
  | getFieldDescriptors (program : Uuid)
  | createHousehold (program : Uuid) (input : NewHousehold)
  | getHousehold (id : Uuid)
  | getHouseholds (program : Uuid)
  | getIndividual (id : Uuid)
  | withdrawHousehold (id : Uuid)
  | withdrawIndividual (id : Uuid)
  | recordRound (individual : Uuid) (input : NewRoundValue)
  | getPopulation (program : Uuid)
  | getPopulationByHousehold (program : Uuid)
  | getCurrentHouseholds (program : Uuid)
  | getMembers (household : Uuid)
  | getHead (household : Uuid)
  | validate (program : Uuid) (request : TargetingRequest) (asOf : Date)
  | preview (program : Uuid) (request : TargetingRequest) (asOf : Date)

/-- What an operation answers. -/
inductive Answer where
  | program (program : Option Program)
  | programs (programs : List Program)
  | flexAttribute (created : FlexAttribute)
  | flexAttributes (attributes : List FlexAttribute)
  | periodicField (created : PeriodicField)
  | periodicFields (fields : List PeriodicField)
  | programFields (fields : ProgramFields)
  | descriptors (fields : List FieldDescriptor)
  | record (record : Option HouseholdRecord)
  | records (records : List HouseholdRecord)
  | households (households : List Household)
  | individual (individual : Option Individual)
  | individuals (individuals : List Individual)
  /-- Whether there was something to withdraw. -/
  | withdrawn (found : Bool)
  | summary (summary : TargetingSummary)
  | preview (preview : TargetingPreview)

namespace Operation

/-- The table that an operation asks for first. -/
def firstTable : Operation → Table
  | createProgram _ => .programs
  | getProgram _ => .programs
  | getPrograms => .programs
  | createFlexAttribute _ _ => .programs
  | createPeriodicField _ _ => .programs
  | getFlexAttributes _ => .flexAttributes
  | getPeriodicFields _ => .periodicFields
  | getProgramFields _ => .flexAttributes
  | getFieldDescriptors _ => .programs
  | createHousehold _ _ => .programs
  | getHousehold _ => .households
  | getHouseholds _ => .households
  | getIndividual _ => .individuals
  | withdrawHousehold _ => .households
  | withdrawIndividual _ => .individuals
  | recordRound _ _ => .individuals
  | getPopulation _ => .households
  | getPopulationByHousehold _ => .households
  | getCurrentHouseholds _ => .households
  | getMembers _ => .individuals
  | getHead _ => .individuals
  | validate _ _ _ => .programs
  | preview _ _ _ => .programs

/-- Why an operation fails on a database without tables: a blank name is refused before any table
is asked for. -/
def failureWithoutTables (operation : Operation) : Failure :=
  match operation with
  | createProgram input =>
    if Text.isBlankText input.name then .blankProgramName else .missingTable .programs
  | other => .missingTable other.firstTable

end Operation

/-- The answer to an operation and the store afterwards. -/
def Store.run (now : Moment) (s : Store) : Operation → Except Failure (Answer × Store)
  | .createProgram input =>
    (s.createProgram now input).map fun (p, after) => (.program (some p), after)
  | .getProgram id => .ok (.program (s.program? id), s)
  | .getPrograms => .ok (.programs s.programsByName, s)
  | .createFlexAttribute program input =>
    (s.createFlexAttribute now program input).map fun (a, after) => (.flexAttribute a, after)
  | .createPeriodicField program input =>
    (s.createPeriodicField now program input).map fun (f, after) => (.periodicField f, after)
  | .getFlexAttributes program => .ok (.flexAttributes (s.flexAttributesOf program), s)
  | .getPeriodicFields program => .ok (.periodicFields (s.periodicFieldsOf program), s)
  | .getProgramFields program => .ok (.programFields (s.fieldsOf program), s)
  | .getFieldDescriptors program =>
    (s.fieldDescriptors program).map fun fields => (.descriptors fields, s)
  | .createHousehold program input =>
    (s.createHousehold now program input).map fun (r, after) => (.record (some r), after)
  | .getHousehold id => .ok (.record (s.record? id), s)
  | .getHouseholds program => .ok (.records (s.records program), s)
  | .getIndividual id => .ok (.individual (s.individual? id), s)
  | .withdrawHousehold id =>
    .ok (.withdrawn (s.household? id).isSome, s.withdrawHousehold id)
  | .withdrawIndividual id =>
    .ok (.withdrawn (s.individual? id).isSome, s.withdrawIndividual id)
  | .recordRound id input =>
    (s.recordRound id input).map fun (i, after) => (.individual i, after)
  | .getPopulation program => .ok (.records (s.population program), s)
  | .getPopulationByHousehold program => .ok (.records (s.populationByHousehold program), s)
  | .getCurrentHouseholds program => .ok (.households (s.currentHouseholds program), s)
  | .getMembers household => .ok (.individuals (s.members household), s)
  | .getHead household => .ok (.individual (s.headOf household), s)
  | .validate program request asOf =>
    (s.validate program request asOf).map fun summary => (.summary summary, s)
  | .preview program request asOf =>
    (s.preview program request asOf).map fun preview => (.preview preview, s)

/-- A store, or a place for one whose tables have not been made. -/
structure Database where
  tables : Option Store

namespace Database

/-- A database without tables. -/
def unmade : Database := ⟨none⟩

/-- A database with empty tables. -/
def empty : Database := ⟨some .empty⟩

instance : Inhabited Database := ⟨empty⟩

/-- Makes the tables where they are missing, for identifiers of a source that follow `issued`
others. -/
def migrateAfter (issued : Nat) (db : Database) (ids : IdSource := .counting) : Database :=
  ⟨some (db.tables.getD (.emptyAfter issued ids))⟩

/-- Runs an operation: its answer or failure, and the database afterwards. -/
def run (now : Moment) (db : Database) (operation : Operation) :
    Except Failure Answer × Database :=
  match db.tables with
  | none => (.error operation.failureWithoutTables, db)
  | some s =>
    match s.run now operation with
    | .ok (answer, after) => (.ok answer, ⟨some after⟩)
    | .error failure => (.error failure, db)

end Database

end Beneficiary
