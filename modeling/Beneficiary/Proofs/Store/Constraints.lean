import Beneficiary.Proofs.Store.Population
import Beneficiary.Proofs.Store.Portraits
import Beneficiary.Proofs.Store.Statements
import Beneficiary.Proofs.Store.Transactions

/-!
# No constraint is broken

Operations check what they are asked before they come to a statement that could break a constraint of
the tables, identifiers are new, and the household of an individual is there. So no operation on a
reachable store breaks a constraint. On an engine that carries out its statements it comes out as
where nothing but its own checks can stop it.
-/

namespace Beneficiary.Guarded

open Script

variable {s : Store} {now : Moment} {programId : Uuid}

private theorem ok_bind {α β : Type} (a : α) (next : α → Except Fault β) :
    (.ok a >>= next) = next a := rfl

/-- The row breaks no constraint beside those that are there. -/
def Row.Fits (s : Store) : Row → Prop
  | program p => ∀ q ∈ s.programs, q.id ≠ p.id
  | flexAttribute a =>
    (∀ b ∈ s.flexAttributes, b.id ≠ a.id) ∧
      (∀ b ∈ s.flexAttributes, b.programId = a.programId → b.name ≠ a.name) ∧
      ∃ p ∈ s.programs, p.id = a.programId
  | periodicField f =>
    (∀ g ∈ s.periodicFields, g.id ≠ f.id) ∧
      (∀ g ∈ s.periodicFields, g.programId = f.programId → g.name ≠ f.name) ∧
      ∃ p ∈ s.programs, p.id = f.programId
  | household h =>
    (∀ k ∈ s.households, k.id ≠ h.id) ∧ (∀ k ∈ s.households, k.unicefId ≠ h.unicefId) ∧
      ∃ p ∈ s.programs, p.id = h.programId
  | individual i =>
    (∀ j ∈ s.individuals, j.id ≠ i.id) ∧ (∀ j ∈ s.individuals, j.unicefId ≠ i.unicefId) ∧
      ∃ h ∈ s.households, h.id = i.householdId

/-- A demand is met exactly when its condition holds. -/
theorem demand_eq_ok_iff {condition : Bool} {fault : Fault} {u : Unit} :
    demand condition fault = .ok u ↔ condition = true := by
  cases condition <;> simp [demand]

/-- A row passes the constraints of its table exactly when it fits. -/
theorem guard_eq_ok_iff {row : Row} : row.guard s = .ok () ↔ row.Fits s := by
  cases row <;>
    simp [Row.guard, Row.Fits, check_bind_eq_ok_iff, demand_eq_ok_iff, imp_iff_not_or]

/-- A row that fits is inserted. -/
theorem insert_eq {row : Row} (h : row.Fits s) : (insert s row).outcome = .ok (row.addTo s) := by
  rw [insert, outcome_bind, outcome_send, Statement.guard, guard_eq_ok_iff.mpr h]
  rfl

/-- A row that an operation makes is inserted as by its checks when each row that passes them
fits. -/
theorem insertMade_eq {α : Type} {row : α → Row} {outcome : Except Failure (α × Store)}
    (h : ∀ made after, outcome = .ok (made, after) →
      (row made).Fits s ∧ after = { (row made).addTo s with issued := after.issued }) :
    (insertMade s row outcome).outcome = checked outcome := by
  cases outcome with
  | error failure => rfl
  | ok result =>
    obtain ⟨made, after⟩ := result
    obtain ⟨hfits, hafter⟩ := h made after rfl
    simp only [insertMade, outcome_bind, outcome_check, checked_ok, ok_bind, insert_eq hfits,
      outcome_pure]
    exact congrArg (fun after => Except.ok (made, after)) hafter.symm

/-- The identifiers of registered fields are handed out. -/
structure FieldsIssued (s : Store) : Prop where
  flexAttributes : ∀ a ∈ s.flexAttributes, s.HasIssued a.id
  periodicFields : ∀ f ∈ s.periodicFields, s.HasIssued f.id

/-- Every step keeps the identifiers of registered fields handed out. -/
theorem FieldsIssued.step {t : Store} (hs : FieldsIssued s) (h : s.Step t) : FieldsIssued t := by
  have hmono {t : Store} (hids : s.ids = t.ids) (hle : s.issued ≤ t.issued)
      (hflex : t.flexAttributes = s.flexAttributes)
      (hperiodic : t.periodicFields = s.periodicFields) : FieldsIssued t :=
    ⟨hflex ▸ fun a ha => (hs.flexAttributes a ha).mono hle hids,
      hperiodic ▸ fun f hf => (hs.periodicFields f hf).mono hle hids⟩
  have hle : s.issued ≤ s.issued + 1 := by omega
  cases h with
  | flexAttribute program flex hid =>
    refine ⟨fun a ha => ?_, fun f hf => (hs.periodicFields f hf).mono hle⟩
    rcases List.mem_append.mp ha with ha | ha
    · exact (hs.flexAttributes a ha).mono hle
    · obtain rfl := List.mem_singleton.mp ha
      exact ⟨s.issued, Nat.lt_succ_self _, hid⟩
  | periodicField program field hid =>
    refine ⟨fun a ha => (hs.flexAttributes a ha).mono hle, fun f hf => ?_⟩
    rcases List.mem_append.mp hf with hf | hf
    · exact (hs.periodicFields f hf).mono hle
    · obtain rfl := List.mem_singleton.mp hf
      exact ⟨s.issued, Nat.lt_succ_self _, hid⟩
  | household now programId program input =>
    exact hmono rfl (by change s.issued ≤ s.issued + 1 + input.members.length; omega) rfl rfl
  | program => exact hmono rfl hle rfl rfl
  | unchanged => exact hs
  | withdrawHousehold => exact hmono rfl le_rfl rfl rfl
  | withdrawIndividual => exact hmono rfl le_rfl rfl rfl
  | recordRound => exact hmono rfl le_rfl rfl rfl

/-- In a reachable store the identifiers of registered fields are handed out. -/
theorem fieldsIssued_of_reachable (h : s.Reachable) : FieldsIssued s :=
  Store.Reachable.induction (fun _ _ => ⟨by simp [Store.emptyAfter], by simp [Store.emptyAfter]⟩)
    (fun _ _ hs hstep => hs.step hstep) h

private theorem ne_nextId_of_hasIssued {id : Uuid} (h : s.HasIssued id) : id ≠ s.nextId := by
  rintro rfl
  exact s.not_hasIssued_nextId h

/-- The row of a program that passes its check fits. -/
theorem createProgram_eq (hs : s.Keyed) (input : NewProgram) :
    (insertMade s .program (s.createProgram now input)).outcome =
      checked (s.createProgram now input) := by
  refine insertMade_eq fun made after h => ?_
  obtain ⟨-, h⟩ := check_bind_eq_ok_iff.mp h
  obtain ⟨rfl, rfl⟩ := Prod.mk.inj (Except.ok.inj h)
  exact ⟨fun q hq => hs.program_id_ne hq, rfl⟩

/-- The row of a flex attribute that passes its checks fits. -/
theorem createFlexAttribute_eq (hs : FieldsIssued s) (input : NewFlexAttribute) :
    (insertField s .flexAttribute (s.createFlexAttribute now programId input)).outcome =
      checked (s.createFlexAttribute now programId input) := by
  rw [insertField, outcome_bind, outcome_read, checked_ok, ok_bind]
  refine insertMade_eq fun made after h => ?_
  obtain ⟨⟨program, hprogram⟩, -, -, hfree, rfl, rfl⟩ :=
    Store.createFlexAttribute_eq_ok_iff.mp h
  rw [Store.hasField, Bool.or_eq_false_iff] at hfree
  refine ⟨⟨fun b hb => ne_nextId_of_hasIssued (hs.flexAttributes b hb), ?_,
    program, Store.mem_of_program? hprogram⟩, rfl⟩
  have hnames : ∀ b ∈ s.flexAttributes, b.programId = programId → b.name ≠ input.name := by
    simpa using hfree.1
  exact hnames

/-- The row of a periodic field that passes its checks fits. -/
theorem createPeriodicField_eq (hs : FieldsIssued s) (input : NewPeriodicField) :
    (insertField s .periodicField (s.createPeriodicField now programId input)).outcome =
      checked (s.createPeriodicField now programId input) := by
  rw [insertField, outcome_bind, outcome_read, checked_ok, ok_bind]
  refine insertMade_eq fun made after h => ?_
  obtain ⟨⟨program, hprogram⟩, -, -, -, -, hfree, rfl, rfl⟩ :=
    Store.createPeriodicField_eq_ok_iff.mp h
  rw [Store.hasField, Bool.or_eq_false_iff] at hfree
  refine ⟨⟨fun g hg => ne_nextId_of_hasIssued (hs.periodicFields g hg), ?_,
    program, Store.mem_of_program? hprogram⟩, rfl⟩
  have hnames : ∀ g ∈ s.periodicFields, g.programId = programId → g.name ≠ input.name := by
    simpa using hfree.2
  exact hnames

/-- What rows written in turn come to where no constraint is broken. -/
def ofWriting {α : Type} (outcome : Except Failure α × Store) : Except Fault (α × Store) :=
  checked (outcome.1.map fun a => (a, outcome.2))

/-- Members of new identifiers whose household is there are inserted as they are written. -/
theorem insertMembers_eq {members : List Individual}
    (hids : (members.map Individual.id).Nodup)
    (hnew : ∀ member ∈ members, ∀ i ∈ s.individuals, i.id ≠ member.id)
    (hhousehold : ∀ member ∈ members, ∃ h ∈ s.households, h.id = member.householdId) :
    (insertMembers s members).outcome =
      ofWriting (Writing.on (Store.insertMembers members) s) := by
  induction members generalizing s with
  | nil => rfl
  | cons member rest ih =>
    rw [List.map_cons, List.nodup_cons] at hids
    obtain ⟨hnewMember, hnewRest⟩ := List.forall_mem_cons.mp hnew
    obtain ⟨hhouseholdMember, hhouseholdRest⟩ := List.forall_mem_cons.mp hhousehold
    simp only [insertMembers, outcome_bind, outcome_send, Statement.guard, ok_bind, outcome_check]
    rw [Store.insertMembers, Writing.on_bind, Writing.on_read]
    cases htaken : s.individuals.any fun i => i.unicefId == member.unicefId with
    | true => rfl
    | false =>
      have hfits : Row.Fits s (.individual member) :=
        ⟨hnewMember, by simpa using htaken, hhouseholdMember⟩
      have hrest := ih (s := (Row.individual member).addTo s) hids.2 ?_ hhouseholdRest
      · simp only [insert_eq hfits, Bool.not_false, require, if_true, checked_ok, ok_bind]
        exact hrest
      · intro other hother i hi
        rcases List.mem_append.mp hi with hi | hi
        · exact hnewRest other hother i hi
        · obtain rfl := List.mem_singleton.mp hi
          intro heq
          exact hids.1 (heq ▸ List.mem_map_of_mem hother)

/-- A household of a program that is there is inserted with its members as it is written, when all
identifiers are new. -/
theorem insertRecord_eq {record : HouseholdRecord} (issued : Nat)
    (hprogram : ∃ p ∈ s.programs, p.id = record.household.programId)
    (hid : ∀ h ∈ s.households, h.id ≠ record.household.id)
    (hids : (record.members.map Individual.id).Nodup)
    (hnew : ∀ member ∈ record.members, ∀ i ∈ s.individuals, i.id ≠ member.id)
    (hmembers : ∀ member ∈ record.members, member.householdId = record.household.id) :
    (insertRecord s record issued).outcome =
      ofWriting (Writing.on (Store.insertRecord record issued) s) := by
  simp only [insertRecord, outcome_bind, outcome_send, Statement.guard, ok_bind, outcome_check]
  cases htaken : s.households.any fun h => h.unicefId == record.household.unicefId with
  | true =>
    rw [Store.on_insertRecord_of_household_taken htaken]
    rfl
  | false =>
    have hfits : Row.Fits s (.household record.household) :=
      ⟨hid, by simpa using htaken, hprogram⟩
    have hrows := insertMembers_eq
      (s := { s with issued, households := s.households ++ [record.household.stored] })
      hids hnew fun member hmember =>
        ⟨record.household.stored, List.mem_append_right _ (List.mem_singleton_self _),
          (hmembers member hmember).symm⟩
    rw [Store.insertRecord, Writing.on_bind_of_ok (Store.on_insertHousehold_of_free htaken),
      Writing.on_bind, insert_eq hfits]
    simp only [Bool.not_false, require, if_true, checked_ok, ok_bind, Row.addTo, hrows,
      outcome_pure]
    cases Writing.on (Store.insertMembers record.members)
        { s with issued, households := s.households ++ [record.household.stored] } with
    | mk result t => cases result <;> rfl

/-- The head of a household that passes its checks is one of the members that are registered. -/
theorem getElem?_registeredAll_head {mode : ProgramMode} {input : NewHousehold} {index : Nat}
    (h : input.check mode = .ok index) (ids : IdSource) (householdId : Uuid) (count : Nat) :
    ∃ head, (NewIndividual.registeredAll ids householdId count input.members)[index]? = some head ∧
      head.id = ids.after (count + index) := by
  have hlt := NewHousehold.headIndex_lt (NewHousehold.headIndex_of_check h)
  rw [Store.registeredAll_eq, List.getElem?_map, List.getElem?_zipIdx,
    List.getElem?_eq_getElem hlt]
  exact ⟨_, rfl, rfl⟩

/-- Members are registered in their household. -/
theorem householdId_of_mem_registeredAll {ids : IdSource} {householdId : Uuid} {count : Nat}
    {persons : List NewIndividual} {i : Individual}
    (h : i ∈ NewIndividual.registeredAll ids householdId count persons) :
    i.householdId = householdId := by
  obtain ⟨n, person, -, rfl⟩ := Store.mem_registeredAll.mp h
  rfl

/-- A household is registered as it is written row by row. -/
theorem createHousehold_eq_ofWriting (hs : s.Keyed) (input : NewHousehold) :
    (createHousehold s now programId input).outcome =
      ofWriting (Writing.on (Store.writeHousehold now programId input) s) := by
  simp only [createHousehold, outcome_bind, outcome_send, Statement.guard, ok_bind, outcome_check]
  cases hprogram : s.requireProgram programId with
  | error failure =>
    simp only [Store.writeHousehold, Writing.on_bind, Writing.on_read, hprogram]
    rfl
  | ok program =>
    simp only [checked_ok, ok_bind]
    cases hcheck : input.check program.mode with
    | error failure =>
      simp only [Store.writeHousehold, Writing.on_bind, Writing.on_read, hprogram, hcheck]
      rfl
    | ok headIndex =>
      obtain ⟨head, hhead, hheadId⟩ := getElem?_registeredAll_head hcheck s.ids s.nextId (s.issued + 1)
      have hfound := Store.mem_of_program? (Store.requireProgram_eq_ok_iff.mp hprogram)
      simp only [checked_ok, ok_bind, hhead, Store.length_registeredAll, outcome_transaction]
      rw [Store.on_writeHousehold hprogram hcheck, Store.newRecord, ← hheadId]
      refine insertRecord_eq _ ⟨program, hfound⟩ (fun h hh => hs.household_id_ne hh) ?_ ?_
        fun member hmember => householdId_of_mem_registeredAll hmember
      · rw [Store.map_id_registeredAll]
        exact List.Nodup.map (Store.ids_injective _) List.nodup_range'
      · intro member hmember i hi heq
        obtain ⟨n, person, -, rfl⟩ := Store.mem_registeredAll.mp hmember
        obtain ⟨count, hlt, hcount⟩ := hs.individuals_issued i hi
        have hsame := s.ids.distinct (hcount.symm.trans heq)
        omega

/-- Rows come to what their transaction does, whose store counts only when all are written. -/
theorem ofWriting_on_eq {α : Type} (writing : Writing α) (s : Store) :
    ofWriting (writing.on s) = ofWriting (writing.transact s) := by
  unfold Writing.transact
  cases writing.on s with
  | mk result t => cases result <;> rfl

/-- A household with its members meets no fault. -/
theorem createHousehold_eq (hs : s.Keyed) (input : NewHousehold) :
    (createHousehold s now programId input).outcome =
      checked (s.createHousehold now programId input) := by
  rw [createHousehold_eq_ofWriting hs, ofWriting_on_eq, Store.transact_writeHousehold]
  cases s.createHousehold now programId input <;> rfl

private theorem exists_household_of_individual (hs : s.Keyed) (hpopulated : s.Populated) {id : Uuid}
    {individual : Individual} (hfound : s.individual? id = some individual) :
    ∃ household, s.household? individual.householdId = some household := by
  obtain ⟨hi, -⟩ := Store.mem_of_individual? hfound
  obtain ⟨household, hh, hid⟩ := hpopulated.individual_household individual hi
  exact ⟨household, hid ▸ hs.household?_eq_some hh⟩

/-- The household of an individual is there when a round is recorded. -/
theorem recordRound_eq (hs : s.Keyed) (hpopulated : s.Populated) (id : Uuid)
    (input : NewRoundValue) : (recordRound s id input).outcome = checked (s.recordRound id input) := by
  simp only [recordRound, outcome_bind, outcome_send, Statement.guard, ok_bind]
  cases hfound : s.individual? id with
  | none =>
    rw [Store.recordRound, hfound]
    rfl
  | some individual =>
    obtain ⟨household, hhousehold⟩ := exists_household_of_individual hs hpopulated hfound
    simp only [hhousehold, outcome_bind, outcome_send, Statement.guard, ok_bind, outcome_check]
    cases hround : s.checkRound individual input.field input.round with
    | error failure =>
      simp only [Store.recordRound, hfound, hround]
      rfl
    | ok _ =>
      rw [checked_ok, ok_bind]
      cases s.recordRound id input <;> rfl

/-- No statement on a reachable store breaks a constraint: where the engine carries out what is sent
to it, an operation comes out as by its own checks. -/
theorem outcome_script (hs : s.Reachable) (now : Moment) (operation : Operation) :
    (script now s operation).outcome = checked (s.run now operation) := by
  obtain ⟨hkeyed, hpopulated⟩ := hs.invariants
  have hissued := fieldsIssued_of_reachable hs
  have hmap {α β : Type} (outcome : Except Failure α) (f : α → β) :
      (checked outcome).map f = checked (outcome.map f) := by
    cases outcome <;> rfl
  cases operation with
  | createProgram input =>
    rw [script, outcome_map, createProgram_eq hkeyed, hmap, Store.run]
  | createFlexAttribute id input =>
    rw [script, outcome_map, createFlexAttribute_eq hissued, hmap, Store.run]
  | createPeriodicField id input =>
    rw [script, outcome_map, createPeriodicField_eq hissued, hmap, Store.run]
  | createHousehold id input =>
    rw [script, outcome_map, createHousehold_eq hkeyed, hmap, Store.run]
  | recordRound id input =>
    rw [script, outcome_map, recordRound_eq hkeyed hpopulated, hmap, Store.run]
  | _ => rfl

/-- On an engine that carries out its statements, an operation on a reachable store comes out as by
its own checks. -/
theorem run_eq {engine : Engine} (hs : s.Reachable) {operation : Operation}
    (h : engine.CarriesOut now s operation) :
    run engine now s operation = checked (s.run now operation) := by
  rw [run, on_eq _ h, outcome_script hs]

/-- The row of an individual with a round is sent to the engine when the round passes its checks. -/
theorem update_mem_sent (hs : s.Keyed) (hpopulated : s.Populated) {id : Uuid} {input : NewRoundValue}
    {individual : Individual} (hfound : s.individual? id = some individual)
    (hround : s.checkRound individual input.field input.round = .ok ()) :
    (s, .update [.individual { individual with flexFields := input.addTo individual.flexFields }]) ∈
      (script now s (.recordRound id input)).sent := by
  obtain ⟨household, hhousehold⟩ := exists_household_of_individual hs hpopulated hfound
  rw [script, sent_map, recordRound]
  refine mem_sent_of_next rfl (mem_sent_of_next rfl ?_)
  rw [hfound]
  refine mem_sent_of_next rfl ?_
  rw [hhousehold]
  refine mem_sent_of_next rfl (mem_sent_of_next (congrArg checked hround) ?_)
  exact mem_sent_of_first (List.mem_singleton_self _)

end Beneficiary.Guarded
