import Beneficiary.Store.Operation
import Beneficiary.Proofs.Outcome

/-!
# Reachable stores

A database is used by one operation after the other, of which some are refused. A store is reachable
when it is what such calls leave behind on freshly made tables. Each call either leaves the store as
it is or takes one of seven steps, so what holds of empty tables and is kept by each step holds of
every reachable store.
-/

namespace Beneficiary

/-- An operation asked of a database at a moment. -/
structure Call where
  now : Moment
  operation : Operation

/-- The database after calls in turn, be they answered or refused. -/
def Database.after (db : Database) : List Call → Database
  | [] => db
  | call :: rest => (db.run call.now call.operation).2.after rest

/-- The operation withdraws a household or an individual. -/
def Operation.IsWithdrawal : Operation → Prop
  | .withdrawHousehold _ => True
  | .withdrawIndividual _ => True
  | _ => False

/-- Whether an operation only asks for what is registered. -/
def Operation.isQuery : Operation → Bool
  | .createProgram _ => false
  | .createFlexAttribute _ _ => false
  | .createPeriodicField _ _ => false
  | .createHousehold _ _ => false
  | .withdrawHousehold _ => false
  | .withdrawIndividual _ => false
  | .recordRound _ _ => false
  | _ => true

/-- The flex attribute that is registered for an input. -/
def NewFlexAttribute.registered (input : NewFlexAttribute) (id programId : Uuid) (now : Moment) :
    FlexAttribute :=
  { id
    programId
    name := input.name
    owner := input.owner
    valueType := input.valueType
    label := input.label
    choices := input.choices
    createdAt := now }

/-- The periodic field that is registered for an input. -/
def NewPeriodicField.registered (input : NewPeriodicField) (id programId : Uuid) (now : Moment) :
    PeriodicField :=
  { id
    programId
    name := input.name
    owner := input.describedKind
    label := input.label
    spec := input.spec
    createdAt := now }

namespace Store

/-- A store that calls can leave behind on empty tables, made after any number of identifiers were
handed out by any source. -/
def Reachable (s : Store) : Prop :=
  ∃ issued ids calls, (Database.unmade.migrateAfter issued ids).after calls = ⟨some s⟩

/-- The store with a household registered in a program: the household takes the next identifier and
its members the ones that follow. -/
def register (s : Store) (now : Moment) (programId : Uuid) (input : NewHousehold)
    (headIndex : Nat) : Store :=
  { s with
    issued := s.issued + 1 + input.members.length
    households := s.households ++
      [(input.registered s.nextId programId (s.ids.after (s.issued + 1 + headIndex)) now).stored]
    individuals := s.individuals ++
      (NewIndividual.registeredAll s.ids s.nextId (s.issued + 1) input.members).map Individual.stored }

/-- The store with a round recorded on the individuals of an identifier. -/
def withRound (s : Store) (individual : Individual) (input : NewRoundValue) : Store :=
  { s with
    individuals := s.individuals.map fun i =>
      if i.id = individual.id then
        Individual.stored { individual with flexFields := input.addTo individual.flexFields }
      else i }

/-- What one operation can make of a store, with all that it checks before. -/
inductive Step (s : Store) : Store → Prop where
  | unchanged : Step s s
  | program (program : Program) (hid : program.id = s.nextId)
      (hname : Text.isBlankText program.name = false) :
      Step s { s with issued := s.issued + 1, programs := s.programs ++ [program] }
  | flexAttribute (program : Program) (flex : FlexAttribute) (hid : flex.id = s.nextId)
      (hprogram : s.program? flex.programId = some program)
      (hname : checkFieldName flex.name = .ok ())
      (hchoices : (flex.choices.isEmpty || flex.valueType.hasChoices) = true)
      (hfree : s.hasField flex.programId flex.name = false) :
      Step s { s with issued := s.issued + 1, flexAttributes := s.flexAttributes ++ [flex] }
  | periodicField (program : Program) (field : PeriodicField) (hid : field.id = s.nextId)
      (hprogram : s.program? field.programId = some program)
      (hname : checkFieldName field.name = .ok ())
      (hrounds : field.spec.numberOfRounds ≠ 0)
      (hsubtype : field.spec.subtype.hasChoices = false)
      (hnames : field.spec.roundNames.length ≤ field.spec.numberOfRounds.toNat)
      (hfree : s.hasField field.programId field.name = false) :
      Step s { s with issued := s.issued + 1, periodicFields := s.periodicFields ++ [field] }
  | household (now : Moment) (programId : Uuid) (program : Program) (input : NewHousehold)
      (headIndex : Nat) (hprogram : s.program? programId = some program)
      (hcheck : input.check program.mode = .ok headIndex) (hnew : s.checkNewIds input = .ok ()) :
      Step s (s.register now programId input headIndex)
  | withdrawHousehold (id : Uuid) : Step s (s.withdrawHousehold id)
  | withdrawIndividual (id : Uuid) : Step s (s.withdrawIndividual id)
  | recordRound (individual : Individual) (input : NewRoundValue)
      (hindividual : s.individual? individual.id = some individual)
      (hround : s.checkRound individual input.field input.round = .ok ()) :
      Step s (s.withRound individual input)

/-- A required program is the one found. -/
theorem requireProgram_eq_ok_iff {s : Store} {id : Uuid} {program : Program} :
    s.requireProgram id = .ok program ↔ s.program? id = some program := by
  unfold requireProgram
  cases s.program? id <;> simp

/-- A program is required in vain only when it is unknown. -/
theorem requireProgram_eq_error {s : Store} {id : Uuid} {failure : Failure}
    (h : s.requireProgram id = .error failure) : failure = .unknownProgram := by
  unfold requireProgram at h
  split at h
  · cases h
  · exact (Except.error.inj h).symm

/-- A program that is found is registered under the identifier asked for. -/
theorem mem_of_program? {s : Store} {id : Uuid} {program : Program}
    (h : s.program? id = some program) : program ∈ s.programs ∧ program.id = id := by
  unfold program? at h
  exact ⟨List.mem_of_find?_eq_some h, by simpa using List.find?_some h⟩

/-- An individual that is found is registered under the identifier asked for. -/
theorem mem_of_individual? {s : Store} {id : Uuid} {individual : Individual}
    (h : s.individual? id = some individual) :
    individual ∈ s.individuals ∧ individual.id = id := by
  unfold individual? at h
  exact ⟨List.mem_of_find?_eq_some h, by simpa using List.find?_some h⟩

/-- As many members are registered as were stated. -/
theorem length_registeredAll (ids : IdSource) (householdId : Uuid) (count : Nat)
    (persons : List NewIndividual) :
    (NewIndividual.registeredAll ids householdId count persons).length = persons.length := by
  induction persons generalizing count with
  | nil => rfl
  | cons person rest ih => simp [NewIndividual.registeredAll, ih]

/-- A household is registered exactly when the program exists and the input passes both checks. -/
theorem createHousehold_eq_ok_iff {s t : Store} {now : Moment} {programId : Uuid}
    {input : NewHousehold} {record : HouseholdRecord} :
    s.createHousehold now programId input = .ok (record, t) ↔
      ∃ program headIndex, s.program? programId = some program ∧
        input.check program.mode = .ok headIndex ∧ s.checkNewIds input = .ok () ∧
        t = s.register now programId input headIndex ∧
        record =
          { household := input.registered s.nextId programId
              (s.ids.after (s.issued + 1 + headIndex)) now
            members := NewIndividual.registeredAll s.ids s.nextId (s.issued + 1) input.members } := by
  unfold createHousehold
  simp only [bind_eq_ok_iff, requireProgram_eq_ok_iff, pure, Except.pure, Except.ok.injEq,
    Prod.mk.injEq, length_registeredAll]
  constructor
  · rintro ⟨program, hprogram, headIndex, hcheck, u, hnew, rfl, rfl⟩
    exact ⟨program, headIndex, hprogram, hcheck, hnew, rfl, rfl⟩
  · rintro ⟨program, headIndex, hprogram, hcheck, hnew, rfl, rfl⟩
    exact ⟨program, hprogram, headIndex, hcheck, (), hnew, rfl, rfl⟩

private theorem step_createProgram {s t : Store} {now : Moment} {input : NewProgram}
    {program : Program} (h : s.createProgram now input = .ok (program, t)) : s.Step t := by
  unfold createProgram at h
  obtain ⟨u, hname, h⟩ := bind_eq_ok_iff.mp h
  obtain ⟨rfl, rfl⟩ := Prod.mk.inj (Except.ok.inj h)
  exact .program _ rfl (by simpa using require_eq_ok_iff.mp hname)

/-- A flex attribute is registered exactly when the program exists, the name is free, and choices go
with an enumeration or a selection. -/
theorem createFlexAttribute_eq_ok_iff {s t : Store} {now : Moment} {programId : Uuid}
    {input : NewFlexAttribute} {flex : FlexAttribute} :
    s.createFlexAttribute now programId input = .ok (flex, t) ↔
      (∃ program, s.program? programId = some program) ∧ checkFieldName input.name = .ok () ∧
        (input.choices.isEmpty || input.valueType.hasChoices) = true ∧
        s.hasField programId input.name = false ∧
        flex = input.registered s.nextId programId now ∧
        t = { s with issued := s.issued + 1, flexAttributes := s.flexAttributes ++ [flex] } := by
  unfold createFlexAttribute
  simp only [bind_eq_ok_iff, requireProgram_eq_ok_iff, require_eq_ok_iff, Bool.not_eq_true', pure,
    Except.pure, Except.ok.injEq, Prod.mk.injEq]
  constructor
  · rintro ⟨program, hprogram, u, hname, u, hchoices, u, hfree, rfl, rfl⟩
    exact ⟨⟨program, hprogram⟩, hname, hchoices, hfree, rfl, rfl⟩
  · rintro ⟨⟨program, hprogram⟩, hname, hchoices, hfree, rfl, rfl⟩
    exact ⟨program, hprogram, (), hname, (), hchoices, (), hfree, rfl, rfl⟩

/-- A registered flex attribute is one step. -/
theorem step_createFlexAttribute {s t : Store} {now : Moment} {programId : Uuid}
    {input : NewFlexAttribute} {flex : FlexAttribute}
    (h : s.createFlexAttribute now programId input = .ok (flex, t)) : s.Step t := by
  obtain ⟨⟨program, hprogram⟩, hname, hchoices, hfree, rfl, rfl⟩ :=
    createFlexAttribute_eq_ok_iff.mp h
  exact .flexAttribute program _ rfl hprogram hname hchoices hfree

/-- A periodic field is registered exactly when the program exists, the name is free, and the rounds
are well stated. -/
theorem createPeriodicField_eq_ok_iff {s t : Store} {now : Moment} {programId : Uuid}
    {input : NewPeriodicField} {field : PeriodicField} :
    s.createPeriodicField now programId input = .ok (field, t) ↔
      (∃ program, s.program? programId = some program) ∧ checkFieldName input.name = .ok () ∧
        input.numberOfRounds ≠ 0 ∧ input.subtype.hasChoices = false ∧
        input.roundNames.length ≤ input.numberOfRounds.toNat ∧
        s.hasField programId input.name = false ∧
        field = input.registered s.nextId programId now ∧
        t = { s with issued := s.issued + 1, periodicFields := s.periodicFields ++ [field] } := by
  unfold createPeriodicField
  simp only [bind_eq_ok_iff, requireProgram_eq_ok_iff, require_eq_ok_iff, Bool.not_eq_true',
    bne_iff_ne, decide_eq_true_eq, pure, Except.pure, Except.ok.injEq, Prod.mk.injEq]
  constructor
  · rintro ⟨program, hprogram, u, hname, u, hrounds, u, hsubtype, u, hnames, u, hfree, rfl, rfl⟩
    exact ⟨⟨program, hprogram⟩, hname, hrounds, hsubtype, hnames, hfree, rfl, rfl⟩
  · rintro ⟨⟨program, hprogram⟩, hname, hrounds, hsubtype, hnames, hfree, rfl, rfl⟩
    exact ⟨program, hprogram, (), hname, (), hrounds, (), hsubtype, (), hnames, (), hfree, rfl, rfl⟩

/-- A registered periodic field is one step. -/
theorem step_createPeriodicField {s t : Store} {now : Moment} {programId : Uuid}
    {input : NewPeriodicField} {field : PeriodicField}
    (h : s.createPeriodicField now programId input = .ok (field, t)) : s.Step t := by
  obtain ⟨⟨program, hprogram⟩, hname, hrounds, hsubtype, hnames, hfree, rfl, rfl⟩ :=
    createPeriodicField_eq_ok_iff.mp h
  exact .periodicField program _ rfl hprogram hname hrounds hsubtype hnames hfree

/-- A round is recorded exactly when it passes its check; on an unknown individual nothing is. -/
theorem recordRound_eq_ok_iff {s t : Store} {id : Uuid} {input : NewRoundValue}
    {answer : Option Individual} :
    s.recordRound id input = .ok (answer, t) ↔
      (s.individual? id = none ∧ answer = none ∧ t = s) ∨
      ∃ individual, s.individual? id = some individual ∧
        s.checkRound individual input.field input.round = .ok () ∧
        t = s.withRound individual input ∧
        answer = some { individual with flexFields := input.addTo individual.flexFields } := by
  unfold recordRound
  cases hi : s.individual? id with
  | none =>
    simp only [Except.ok.injEq, Prod.mk.injEq, true_and, reduceCtorEq, false_and, exists_false,
      or_false, eq_comm]
  | some individual =>
    obtain ⟨-, rfl⟩ := mem_of_individual? hi
    simp only [reduceCtorEq, false_and, false_or, Option.some.injEq, bind_eq_ok_iff, pure,
      Except.pure, Except.ok.injEq, Prod.mk.injEq]
    constructor
    · rintro ⟨u, hround, rfl, rfl⟩
      exact ⟨individual, rfl, hround, rfl, rfl⟩
    · rintro ⟨_, rfl, hround, rfl, rfl⟩
      exact ⟨(), hround, rfl, rfl⟩

private theorem step_recordRound {s t : Store} {id : Uuid} {input : NewRoundValue}
    {answer : Option Individual} (h : s.recordRound id input = .ok (answer, t)) : s.Step t := by
  rcases recordRound_eq_ok_iff.mp h with ⟨-, -, rfl⟩ | ⟨individual, hi, hround, rfl, -⟩
  · exact .unchanged
  · obtain ⟨-, rfl⟩ := mem_of_individual? hi
    exact .recordRound individual input hi hround

/-- A query is answered from the store as it is. -/
theorem eq_of_run_query {s t : Store} {now : Moment} {operation : Operation} {answer : Answer}
    (hquery : operation.isQuery = true)
    (h : s.run now operation = .ok (answer, t)) : t = s := by
  cases operation with
  | getFieldDescriptors program =>
    obtain ⟨fields, -, heq⟩ := map_eq_ok_iff.mp h
    exact (Prod.mk.inj heq).2.symm
  | validate program request asOf =>
    obtain ⟨summary, -, heq⟩ := map_eq_ok_iff.mp h
    exact (Prod.mk.inj heq).2.symm
  | preview program request asOf =>
    obtain ⟨preview, -, heq⟩ := map_eq_ok_iff.mp h
    exact (Prod.mk.inj heq).2.symm
  | createProgram => cases hquery
  | createFlexAttribute => cases hquery
  | createPeriodicField => cases hquery
  | createHousehold => cases hquery
  | withdrawHousehold => cases hquery
  | withdrawIndividual => cases hquery
  | recordRound => cases hquery
  | _ => exact (Prod.mk.inj (Except.ok.inj h)).2.symm

/-- An operation that is answered takes one step. -/
theorem step_of_run {s t : Store} {now : Moment} {operation : Operation} {answer : Answer}
    (h : s.run now operation = .ok (answer, t)) : s.Step t := by
  cases hquery : operation.isQuery with
  | true =>
    rw [eq_of_run_query hquery h]
    exact .unchanged
  | false =>
    cases operation with
    | createProgram input =>
      obtain ⟨⟨p, t'⟩, hc, heq⟩ := map_eq_ok_iff.mp h
      obtain ⟨-, rfl⟩ := Prod.mk.inj heq
      exact step_createProgram hc
    | createFlexAttribute program input =>
      obtain ⟨⟨a, t'⟩, hc, heq⟩ := map_eq_ok_iff.mp h
      obtain ⟨-, rfl⟩ := Prod.mk.inj heq
      exact step_createFlexAttribute hc
    | createPeriodicField program input =>
      obtain ⟨⟨f, t'⟩, hc, heq⟩ := map_eq_ok_iff.mp h
      obtain ⟨-, rfl⟩ := Prod.mk.inj heq
      exact step_createPeriodicField hc
    | createHousehold programId input =>
      obtain ⟨⟨r, t'⟩, hc, heq⟩ := map_eq_ok_iff.mp h
      obtain ⟨-, rfl⟩ := Prod.mk.inj heq
      obtain ⟨program, headIndex, hprogram, hcheck, hnew, rfl, -⟩ :=
        createHousehold_eq_ok_iff.mp hc
      exact .household now programId program input headIndex hprogram hcheck hnew
    | withdrawHousehold id =>
      obtain ⟨-, rfl⟩ := Prod.mk.inj (Except.ok.inj h)
      exact .withdrawHousehold id
    | withdrawIndividual id =>
      obtain ⟨-, rfl⟩ := Prod.mk.inj (Except.ok.inj h)
      exact .withdrawIndividual id
    | recordRound id input =>
      obtain ⟨⟨i, t'⟩, hc, heq⟩ := map_eq_ok_iff.mp h
      obtain ⟨-, rfl⟩ := Prod.mk.inj heq
      exact step_recordRound hc
    | _ => cases hquery

/-- An operation that is answered leaves the store that it ends with. -/
theorem run_eq_of_ok {s t : Store} {now : Moment} {operation : Operation} {answer : Answer}
    (h : s.run now operation = .ok (answer, t)) :
    (Database.mk (some s)).run now operation = (.ok answer, ⟨some t⟩) := by
  simp only [Database.run, h]

/-- An operation that is refused leaves the store that it began with. -/
theorem run_eq_of_error {s : Store} {now : Moment} {operation : Operation} {failure : Failure}
    (h : s.run now operation = .error failure) :
    (Database.mk (some s)).run now operation = (.error failure, ⟨some s⟩) := by
  simp only [Database.run, h]

/-- A call on made tables takes one step of the store, the step that changes nothing when it is
refused. -/
theorem exists_step_of_call (s : Store) (call : Call) :
    ∃ t, s.Step t ∧ ((Database.mk (some s)).run call.now call.operation).2 = ⟨some t⟩ := by
  cases h : s.run call.now call.operation with
  | error failure => exact ⟨s, .unchanged, by rw [run_eq_of_error h]⟩
  | ok result => exact ⟨result.2, step_of_run h, by rw [run_eq_of_ok h]⟩

/-- Calls leave made tables behind. -/
theorem exists_after_eq (s : Store) (calls : List Call) :
    ∃ t, (Database.mk (some s)).after calls = ⟨some t⟩ := by
  induction calls generalizing s with
  | nil => exact ⟨s, rfl⟩
  | cons call rest ih =>
    obtain ⟨u, -, hrun⟩ := exists_step_of_call s call
    rw [Database.after, hrun]
    exact ih u

/-- What each step keeps is kept by calls in turn. -/
theorem after_induction {P : Store → Prop} (hstep : ∀ s t, P s → s.Step t → P t) {s t : Store}
    {calls : List Call} (hs : P s) (h : (Database.mk (some s)).after calls = ⟨some t⟩) : P t := by
  induction calls generalizing s with
  | nil =>
    obtain rfl : s = t := Option.some.inj (Database.mk.inj h)
    exact hs
  | cons call rest ih =>
    obtain ⟨u, hu, hrun⟩ := exists_step_of_call s call
    rw [Database.after, hrun] at h
    exact ih (hstep s u hs hu) h

/-- What holds of empty tables and is kept by each step holds of every reachable store. -/
theorem Reachable.induction {P : Store → Prop} (hempty : ∀ issued ids, P (.emptyAfter issued ids))
    (hstep : ∀ s t, P s → s.Step t → P t) {s : Store} (h : s.Reachable) : P s := by
  obtain ⟨issued, ids, calls, h⟩ := h
  exact after_induction hstep (hempty issued ids) h

private theorem after_append (db : Database) (calls later : List Call) :
    db.after (calls ++ later) = (db.after calls).after later := by
  induction calls generalizing db with
  | nil => rfl
  | cons call rest ih => exact ih _

/-- What further calls leave behind on a reachable store is reachable. -/
theorem Reachable.after {s t : Store} (hs : s.Reachable) {calls : List Call}
    (h : (Database.mk (some s)).after calls = ⟨some t⟩) : t.Reachable := by
  obtain ⟨issued, ids, earlier, hearlier⟩ := hs
  refine ⟨issued, ids, earlier ++ calls, ?_⟩
  rw [after_append, hearlier, h]

/-- What calls leave behind on freshly made tables is reachable. -/
theorem reachable_after (calls : List Call) :
    (((Database.unmade.migrateAfter 0).after calls).tables.getD .empty).Reachable := by
  obtain ⟨s, hs⟩ := exists_after_eq (emptyAfter 0) calls
  refine ⟨0, .counting, calls, ?_⟩
  rw [Database.migrateAfter, Database.unmade, Option.getD_none, hs]
  rfl

end Store

end Beneficiary
