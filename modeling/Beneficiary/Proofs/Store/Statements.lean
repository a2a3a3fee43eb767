import Beneficiary.Store.Operation
import Beneficiary.Proofs.Store.Rows

/-!
# Statements to the engine

A database engine keeps the tables, and an operation sends it one statement after the other. The
engine guards the tables. No two rows have the same identifier, no two fields of a program the same
name in one table, and no two households and no two individuals the same registration id; and what a
row refers to is there. A row that breaks a constraint is not inserted, and a query for a row that
must be there fails when it is not. Such a fault is no refusal: no check has found words for it.

An engine may also fail a statement for a reason of its own: a row is longer than it can hold, or
there is no room left. Which statements an engine fails so is not said here; an engine is whatever
decides it. Where it carries out the statements that an operation sends, the operation comes out as
the constraints let it.
-/

namespace Beneficiary.Guarded

/-- Columns of a table in which no two rows agree. -/
inductive Key where
  | id
  /-- The name of a field in its program. -/
  | name
  | unicefId
deriving DecidableEq, Repr

/-- The names of the columns. -/
def Key.columns : Key → List String
  | id => ["id"]
  | name => ["program_id", "name"]
  | unicefId => ["unicef_id"]

/-- Why an operation fails that runs statement by statement. -/
inductive Fault where
  /-- One of its own checks refuses it. -/
  | refused (failure : Failure)
  /-- A row agrees with another one in a key. -/
  | duplicate (table : Table) (key : Key)
  /-- A row refers to one that is not there. -/
  | dangling
  /-- A row that must be there is not. -/
  | missingRow
  /-- The head is none of the members. -/
  | missingHead
  /-- The engine fails a statement for a reason of its own. -/
  | engine (message : String)
deriving DecidableEq, Repr

/-- The fault in words. -/
def Fault.message : Fault → String
  | refused failure => failure.message
  | duplicate table key =>
    "UNIQUE constraint failed: "
      ++ Text.joined ", " (key.columns.map fun column => table.text ++ "." ++ column)
  | dangling => "FOREIGN KEY constraint failed"
  | missingRow => "Query returned no rows"
  | missingHead => "index out of bounds"
  | engine message => message

/-- Fails with a fault unless a condition holds. -/
def demand (condition : Bool) (fault : Fault) : Except Fault Unit :=
  if condition then .ok () else .error fault

/-- An outcome that only the checks of an operation decide. -/
def checked {α : Type} (outcome : Except Failure α) : Except Fault α := outcome.mapError .refused

/-- A row of one of the tables. -/
inductive Row where
  | program (program : Program)
  | flexAttribute (flex : FlexAttribute)
  | periodicField (field : PeriodicField)
  | household (household : Household)
  | individual (individual : Individual)

namespace Row
/-- Checks the constraints of the table that the row is for. -/
def guard (s : Store) : Row → Except Fault Unit
  | program p => demand (s.programs.all fun q => q.id != p.id) (.duplicate .programs .id)
  | flexAttribute a => do
    demand (s.flexAttributes.all fun b => b.id != a.id) (.duplicate .flexAttributes .id)
    demand (s.flexAttributes.all fun b => b.programId != a.programId || b.name != a.name)
      (.duplicate .flexAttributes .name)
    demand (s.programs.any fun p => p.id == a.programId) .dangling
  | periodicField f => do
    demand (s.periodicFields.all fun g => g.id != f.id) (.duplicate .periodicFields .id)
    demand (s.periodicFields.all fun g => g.programId != f.programId || g.name != f.name)
      (.duplicate .periodicFields .name)
    demand (s.programs.any fun p => p.id == f.programId) .dangling
  | household h => do
    demand (s.households.all fun k => k.id != h.id) (.duplicate .households .id)
    demand (s.households.all fun k => k.unicefId != h.unicefId) (.duplicate .households .unicefId)
    demand (s.programs.any fun p => p.id == h.programId) .dangling
  | individual i => do
    demand (s.individuals.all fun j => j.id != i.id) (.duplicate .individuals .id)
    demand (s.individuals.all fun j => j.unicefId != i.unicefId)
      (.duplicate .individuals .unicefId)
    demand (s.households.any fun h => h.id == i.householdId) .dangling

/-- The store with the row in its table. -/
def addTo (s : Store) : Row → Store
  | program p => { s with programs := s.programs ++ [p] }
  | flexAttribute a => { s with flexAttributes := s.flexAttributes ++ [a] }
  | periodicField f => { s with periodicFields := s.periodicFields ++ [f] }
  | household h => { s with households := s.households ++ [h.stored] }
  | individual i => { s with individuals := s.individuals ++ [i.stored] }

/-- The columns of the row. -/
def cells : Row → List Cell
  | program p =>
    [.id p.id, .text p.name, .text p.businessArea, .text p.mode.text, .moment p.createdAt]
  | flexAttribute a =>
    [ .id a.id,
      .id a.programId,
      .text a.name,
      .text a.owner.text,
      .text a.valueType.text,
      .ofOption .text a.label,
      .ofJson (.ofStrings a.choices),
      .moment a.createdAt ]
  | periodicField f =>
    [ .id f.id,
      .id f.programId,
      .text f.name,
      .text f.owner.text,
      .ofOption .text f.label,
      .text f.spec.subtype.text,
      .integer (.ofNat f.spec.numberOfRounds.toNat),
      .ofJson (.ofStrings f.spec.roundNames),
      .moment f.createdAt ]
  | household h => h.row
  | individual i => i.row

/-- The bytes that a value takes up in a column. -/
def bytes : Cell → Nat
  | .null => 0
  | .truth _ => 1
  | .integer _ => 8
  | .id id => id.text.utf8ByteSize
  | .moment moment => moment.text.utf8ByteSize
  | .text text => text.utf8ByteSize

/-- The bytes that a row takes up. -/
def size (row : Row) : Nat := (row.cells.map bytes).sum

end Row

/-- A statement to the engine. -/
inductive Statement where
  /-- What follows counts only when it is committed. -/
  | begin
  | commit
  /-- A query of tables. -/
  | query (tables : List Table)
  | insert (row : Row)
  /-- Rows in the place of those that they change. No column of a constraint is changed. -/
  | update (rows : List Row)

namespace Statement

/-- Checks the constraints that a statement could break. -/
def guard (s : Store) : Statement → Except Fault Unit
  | insert row => row.guard s
  | _ => .ok ()

/-- The rows that a statement writes. -/
def rows : Statement → List Row
  | insert row => [row]
  | update rows => rows
  | _ => []

end Statement

/-- A database engine, by what it makes of statements that break no constraint. -/
structure Engine where
  /-- The message with which the engine fails a statement on a store for a reason of its own, at the
  time of an operation; none when it carries the statement out. -/
  fault? (now : Moment) (s : Store) (statement : Statement) : Option String

/-- The engine that has room for any number of rows, none longer than a number of bytes. -/
def Engine.limited (limit : Nat) : Engine where
  fault? _ _ statement :=
    if statement.rows.any fun row => limit < row.size then some "string or blob too big" else none

/-- What an operation does on a store: the statements that it sends in turn, each with the store that
it finds, and what the operation comes to when the engine carries them out. -/
structure Script (α : Type) where
  sent : List (Store × Statement)
  outcome : Except Fault α

namespace Script

variable {α β : Type}

/-- What follows an outcome is done when there is one. -/
def andThen (first : Script α) (next : α → Script β) : Script β :=
  match first.outcome with
  | .ok a => { sent := first.sent ++ (next a).sent, outcome := (next a).outcome }
  | .error fault => { sent := first.sent, outcome := .error fault }

instance : Monad Script where
  pure a := { sent := [], outcome := .ok a }
  bind := andThen

/-- A fault without a statement. -/
def fail (fault : Fault) : Script α := { sent := [], outcome := .error fault }

/-- A check without a statement. -/
def check (outcome : Except Failure α) : Script α := { sent := [], outcome := checked outcome }

/-- A statement on a store. -/
def send (s : Store) (statement : Statement) : Script Unit :=
  { sent := [(s, statement)], outcome := statement.guard s }

/-- Statements that only read a store, and what is made of them. -/
def read (s : Store) (statements : List Statement) (outcome : Except Failure α) : Script α :=
  { sent := statements.map fun statement => (s, statement), outcome := checked outcome }

/-- What is done in a transaction, which is committed on the store that it comes to. -/
def transaction (s : Store) (script : Script (α × Store)) : Script (α × Store) := do
  send s .begin
  let (a, t) ← script
  send t .commit
  return (a, t)

/-- What a script comes to on an engine: the first statement that the engine fails ends it. -/
def on (script : Script α) (engine : Engine) (now : Moment) : Except Fault α :=
  match script.sent.findSome? fun (s, statement) => engine.fault? now s statement with
  | some message => .error (.engine message)
  | none => script.outcome

end Script

open Script

/-- Inserts a row. -/
def insert (s : Store) (row : Row) : Script Store := do
  send s (.insert row)
  return row.addTo s

/-- Inserts the row that an operation makes when its checks pass. -/
def insertMade {α : Type} (s : Store) (row : α → Row) (outcome : Except Failure (α × Store)) :
    Script (α × Store) := do
  let (made, after) ← check outcome
  let t ← insert s (row made)
  return (made, { t with issued := after.issued })

/-- The queries of a registration of a field: for the program, and for the name when the checks
before it pass. -/
def fieldQueries {α : Type} : Except Failure α → List Statement
  | .ok _ => [.query [.programs], .query [.flexAttributes, .periodicFields]]
  | .error (.fieldNameTaken _) =>
    [.query [.programs], .query [.flexAttributes, .periodicFields]]
  | .error _ => [.query [.programs]]

/-- Registers a field of a program. -/
def insertField {α : Type} (s : Store) (row : α → Row) (outcome : Except Failure (α × Store)) :
    Script (α × Store) := do
  read s (fieldQueries outcome) (.ok ())
  insertMade s row outcome

/-- Inserts members in turn, each unless its registration id is in use by then. -/
def insertMembers (s : Store) : List Individual → Script (Unit × Store)
  | [] => return ((), s)
  | member :: rest => do
    send s (.query [.individuals])
    check (require (!s.individuals.any fun i => i.unicefId == member.unicefId)
      (.individualIdTaken member.unicefId))
    let t ← insert s (.individual member)
    insertMembers t rest

/-- Inserts a household unless its registration id is in use, then its members. -/
def insertRecord (s : Store) (record : HouseholdRecord) (issued : Nat) :
    Script (HouseholdRecord × Store) := do
  send s (.query [.households])
  check (require (!s.households.any fun h => h.unicefId == record.household.unicefId)
    (.householdIdTaken record.household.unicefId))
  let t ← insert s (.household record.household)
  let (_, t) ← insertMembers { t with issued } record.members
  return (record, t)

/-- Registers a household with its members. The head is looked up among the members. -/
def createHousehold (s : Store) (now : Moment) (programId : Uuid) (input : NewHousehold) :
    Script (HouseholdRecord × Store) := do
  send s (.query [.programs])
  let program ← check (s.requireProgram programId)
  let headIndex ← check (input.check program.mode)
  let members := NewIndividual.registeredAll s.ids s.nextId (s.issued + 1) input.members
  match members[headIndex]? with
  | none => fail .missingHead
  | some head =>
    let household := input.registered s.nextId programId head.id now
    transaction s (insertRecord s { household, members } (s.issued + 1 + members.length))

/-- Withdraws a household, then its members. -/
def withdrawHousehold (s : Store) (id : Uuid) : Script (Bool × Store) := transaction s do
  send s (.update ((s.households.filter fun h => h.id == id).map fun h => .household h.withdraw))
  let t := { s with households := s.households.map fun h => if h.id = id then h.withdraw else h }
  send t (.update
    ((t.individuals.filter fun i => i.householdId == id).map fun i => .individual i.withdraw))
  return ((s.household? id).isSome, s.withdrawHousehold id)

/-- Withdraws an individual, then the household that only wraps this individual. -/
def withdrawIndividual (s : Store) (id : Uuid) : Script (Bool × Store) := transaction s do
  send s (.update ((s.individuals.filter fun i => i.id == id).map fun i => .individual i.withdraw))
  let t := { s with individuals := s.individuals.map fun i => if i.id = id then i.withdraw else i }
  send t (.update ((t.households.filter fun h => t.wraps h id).map fun h => .household h.withdraw))
  return ((s.individual? id).isSome, s.withdrawIndividual id)

/-- Records a round on an individual, whose household must be there; an unknown individual is none,
and then nothing is committed. -/
def recordRound (s : Store) (id : Uuid) (input : NewRoundValue) :
    Script (Option Individual × Store) := do
  send s .begin
  send s (.query [.individuals])
  match s.individual? id with
  | none => return (none, s)
  | some individual =>
    send s (.query [.households])
    match s.household? individual.householdId with
    | none => fail .missingRow
    | some _ =>
      send s (.query [.periodicFields])
      check (s.checkRound individual input.field input.round)
      send s (.update
        [.individual { individual with flexFields := input.addTo individual.flexFields }])
      let (recorded, t) ← check (s.recordRound id input)
      send t .commit
      return (recorded, t)

/-- The queries of the fields of a program, which are read in one transaction. -/
def catalogueQueries : List Statement :=
  [.begin, .query [.flexAttributes], .query [.periodicFields], .commit]

/-- The queries of a compilation against the schema of a program: for the program, and for its fields
when the checks before the criteria pass. -/
def compilationQueries {α : Type} : Except Failure α → List Statement
  | .ok _ => .query [.programs] :: catalogueQueries
  | .error (.criteria _) => .query [.programs] :: catalogueQueries
  | .error _ => [.query [.programs]]

/-- The queries of all households of a program with their members. -/
def recordQueries : List Statement := [.query [.households], .query [.individuals, .households]]

/-- The queries of an operation that only asks for what is registered. -/
def queries (s : Store) : Operation → List Statement
  | .getProgram _ => [.query [.programs]]
  | .getPrograms => [.query [.programs]]
  | .getFlexAttributes _ => [.query [.flexAttributes]]
  | .getPeriodicFields _ => [.query [.periodicFields]]
  | .getProgramFields _ => catalogueQueries
  | .getFieldDescriptors program => compilationQueries (s.fieldDescriptors program)
  | .getHousehold id =>
    .query [.households] :: if (s.household? id).isSome then [.query [.individuals]] else []
  | .getHouseholds _ => recordQueries
  | .getIndividual _ => [.query [.individuals]]
  | .getPopulation _ => recordQueries
  | .getPopulationByHousehold program =>
    .query [.households] :: (s.currentHouseholds program).map fun _ => .query [.individuals]
  | .getCurrentHouseholds _ => [.query [.households]]
  | .getMembers _ => [.query [.individuals]]
  | .getHead _ => [.query [.individuals, .households]]
  | .validate program request asOf => compilationQueries (s.validate program request asOf)
  | .preview program request asOf =>
    compilationQueries (s.preview program request asOf)
      ++ if (s.preview program request asOf).isOk then recordQueries else []
  | _ => []

/-- What an operation does on a store, statement by statement. -/
def script (now : Moment) (s : Store) : Operation → Script (Answer × Store)
  | .createProgram input =>
    (fun (p, after) => (.program (some p), after)) <$>
      insertMade s .program (s.createProgram now input)
  | .createFlexAttribute program input =>
    (fun (a, after) => (.flexAttribute a, after)) <$>
      insertField s .flexAttribute (s.createFlexAttribute now program input)
  | .createPeriodicField program input =>
    (fun (f, after) => (.periodicField f, after)) <$>
      insertField s .periodicField (s.createPeriodicField now program input)
  | .createHousehold program input =>
    (fun (r, after) => (.record (some r), after)) <$> createHousehold s now program input
  | .withdrawHousehold id =>
    (fun (found, after) => (.withdrawn found, after)) <$> withdrawHousehold s id
  | .withdrawIndividual id =>
    (fun (found, after) => (.withdrawn found, after)) <$> withdrawIndividual s id
  | .recordRound id input =>
    (fun (i, after) => (.individual i, after)) <$> recordRound s id input
  | operation => read s (queries s operation) (s.run now operation)

/-- The answer to an operation and the store afterwards, on tables kept by an engine. -/
def run (engine : Engine) (now : Moment) (s : Store) (operation : Operation) :
    Except Fault (Answer × Store) :=
  (script now s operation).on engine now

/-- The engine carries out all statements that an operation sends. -/
def Engine.CarriesOut (engine : Engine) (now : Moment) (s : Store) (operation : Operation) : Prop :=
  ∀ entry ∈ (script now s operation).sent, engine.fault? now entry.1 entry.2 = none

/-- The engine fails a statement that an operation sends, with a message. -/
def Engine.Fails (engine : Engine) (now : Moment) (s : Store) (operation : Operation)
    (message : String) : Prop :=
  ∃ entry ∈ (script now s operation).sent, engine.fault? now entry.1 entry.2 = some message

variable {s : Store} {now : Moment}

/-- A check that passes gives its result. -/
@[simp] theorem checked_ok {α : Type} (a : α) : checked (.ok a) = .ok a := rfl

namespace Script

variable {α β : Type} {engine : Engine}

/-- What follows an outcome is done after it. -/
theorem bind_of_ok {first : Script α} {a : α} (h : first.outcome = .ok a) (next : α → Script β) :
    first >>= next = { sent := first.sent ++ (next a).sent, outcome := (next a).outcome } := by
  change first.andThen next = _
  rw [andThen, h]

/-- Nothing follows a fault. -/
theorem bind_of_error {first : Script α} {fault : Fault} (h : first.outcome = .error fault)
    (next : α → Script β) : first >>= next = { sent := first.sent, outcome := .error fault } := by
  change first.andThen next = _
  rw [andThen, h]

/-- What follows an outcome is done with it. -/
@[simp] theorem outcome_bind (first : Script α) (next : α → Script β) :
    (first >>= next).outcome = first.outcome >>= fun a => (next a).outcome := by
  cases h : first.outcome with
  | ok a =>
    rw [bind_of_ok h]
    rfl
  | error fault =>
    rw [bind_of_error h]
    rfl

/-- A value is the outcome of no statement. -/
@[simp] theorem outcome_pure (a : α) : (pure a : Script α).outcome = .ok a := rfl

/-- What is made of a result is made of it in the outcome. -/
@[simp] theorem outcome_map (f : α → β) (script : Script α) :
    (f <$> script).outcome = script.outcome.map f := by
  change (script >>= fun a => pure (f a)).outcome = _
  rw [outcome_bind]
  cases script.outcome <;> rfl

/-- The outcome of a check is decided by the check. -/
@[simp] theorem outcome_check (outcome : Except Failure α) :
    (check outcome).outcome = checked outcome := rfl

/-- The outcome of reading is what is made of it. -/
@[simp] theorem outcome_read (s : Store) (statements : List Statement)
    (outcome : Except Failure α) : (read s statements outcome).outcome = checked outcome := rfl

/-- A statement comes out as the constraints that it could break. -/
@[simp] theorem outcome_send (s : Store) (statement : Statement) :
    (send s statement).outcome = statement.guard s := rfl

/-- A transaction comes to what is done in it. -/
@[simp] theorem outcome_transaction (s : Store) (script : Script (α × Store)) :
    (transaction s script).outcome = script.outcome := by
  simp only [transaction, outcome_bind, outcome_send, Statement.guard, outcome_pure]
  cases script.outcome <;> rfl

/-- What is made of a result sends no statement. -/
@[simp] theorem sent_map (f : α → β) (script : Script α) : (f <$> script).sent = script.sent := by
  change (script >>= fun a => pure (f a)).sent = _
  cases h : script.outcome with
  | ok a =>
    rw [bind_of_ok h]
    exact List.append_nil _
  | error fault => rw [bind_of_error h]

/-- What is sent first is sent. -/
theorem mem_sent_of_first {first : Script α} {next : α → Script β} {entry : Store × Statement}
    (h : entry ∈ first.sent) : entry ∈ (first >>= next).sent := by
  cases hfirst : first.outcome with
  | ok a =>
    rw [bind_of_ok hfirst]
    exact List.mem_append_left _ h
  | error fault =>
    rw [bind_of_error hfirst]
    exact h

/-- What is sent after an outcome is sent when there is one. -/
theorem mem_sent_of_next {first : Script α} {next : α → Script β} {a : α}
    {entry : Store × Statement} (hfirst : first.outcome = .ok a) (h : entry ∈ (next a).sent) :
    entry ∈ (first >>= next).sent := by
  rw [bind_of_ok hfirst]
  exact List.mem_append_right _ h

/-- A script comes to its outcome on an engine that carries out its statements. -/
theorem on_eq (script : Script α)
    (h : ∀ entry ∈ script.sent, engine.fault? now entry.1 entry.2 = none) :
    script.on engine now = script.outcome := by
  rw [on, List.findSome?_eq_none_iff.mpr h]

/-- A script fails on an engine that fails one of its statements. -/
theorem on_eq_engine {script : Script α} {entry : Store × Statement} (hentry : entry ∈ script.sent)
    (hfails : engine.fault? now entry.1 entry.2 ≠ none) :
    ∃ message, (∃ failed ∈ script.sent, engine.fault? now failed.1 failed.2 = some message) ∧
      script.on engine now = .error (.engine message) := by
  unfold on
  split
  · next message hfailed => exact ⟨message, List.exists_of_findSome?_eq_some hfailed, rfl⟩
  · next hnone => exact absurd (List.findSome?_eq_none_iff.mp hnone entry hentry) hfails

/-- A script fails on an engine with a fault of the engine at a statement that is sent, or as it does
where the engine carries out its statements. -/
theorem on_eq_error {script : Script α} {fault : Fault}
    (h : script.on engine now = .error fault) :
    (∃ message, fault = .engine message ∧
      ∃ entry ∈ script.sent, engine.fault? now entry.1 entry.2 = some message) ∨
        script.outcome = .error fault := by
  unfold on at h
  split at h
  · next message hfailed =>
    obtain rfl := Except.error.inj h
    exact .inl ⟨message, rfl, List.exists_of_findSome?_eq_some hfailed⟩
  · exact .inr h

end Script

/-- An engine with a limit on the length of a row fails an operation that writes a longer one. -/
theorem run_limited {limit : Nat} {operation : Operation} {t : Store} {statement : Statement}
    {row : Row} (hsent : (t, statement) ∈ (script now s operation).sent)
    (hrow : row ∈ statement.rows) (hsize : limit < row.size) :
    run (.limited limit) now s operation = .error (.engine "string or blob too big") := by
  have hfails : (Engine.limited limit).fault? now t statement = some "string or blob too big" :=
    if_pos (List.any_eq_true.mpr ⟨row, hrow, decide_eq_true hsize⟩)
  obtain ⟨message, ⟨failed, -, hmessage⟩, hrun⟩ := on_eq_engine hsent (by rw [hfails]; simp)
  obtain ⟨-, heq⟩ := Option.ite_none_right_eq_some.mp hmessage
  exact (Option.some.inj heq) ▸ hrun

end Beneficiary.Guarded
