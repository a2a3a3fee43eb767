import Beneficiary.Proofs.Store.Updates

/-!
# Rows written in transactions

The tables are written row after row, and a row may be refused when others before it are written
already. A transaction lets the rows stay only when all of them are written; otherwise the store is
as it was before the first. Registering a household, for one, writes the household, then member
after member, each against the ids that are registered by then. An operation comes out the same
whether its rows are written in this way or all checks are made ahead.
-/

namespace Beneficiary

/-- Rows written in turn. The store holds what is written by then, also when a row is refused. -/
abbrev Writing (α : Type) := ExceptT Failure (StateM Store) α

namespace Writing

variable {α β : Type}

/-- The outcome of writing to a store, and the store with what is written by then. -/
def on (writing : Writing α) (s : Store) : Except Failure α × Store := writing.run.run s

/-- Writes that always succeed. -/
def step (write : Store → α × Store) : Writing α := ExceptT.mk fun s =>
  ((.ok (write s).1, (write s).2) : Except Failure α × Store)

/-- What a read of the store comes to. -/
def read (f : Store → Except Failure α) : Writing α := ExceptT.mk fun s =>
  ((f s, s) : Except Failure α × Store)

/-- Writing in one transaction: all that is written stays, or none of it does. -/
def transact (writing : Writing α) (s : Store) : Except Failure α × Store :=
  match writing.on s with
  | (.ok a, written) => (.ok a, written)
  | (.error failure, _) => (.error failure, s)

end Writing

namespace Store

/-- Writes the row of a household, unless its registration id is in use. -/
def insertHousehold (household : Household) (issued : Nat) : Writing Unit := do
  Writing.read fun s =>
    require (!s.households.any fun h => h.unicefId == household.unicefId)
      (.householdIdTaken household.unicefId)
  Writing.step fun s =>
    ((), { s with issued, households := s.households ++ [household.stored] })

/-- Writes the rows of members in turn, each unless its registration id is in use by then. -/
def insertMembers : List Individual → Writing Unit
  | [] => pure ()
  | member :: rest => do
    Writing.read fun s =>
      require (!s.individuals.any fun i => i.unicefId == member.unicefId)
        (.individualIdTaken member.unicefId)
    Writing.step fun s => ((), { s with individuals := s.individuals ++ [member.stored] })
    insertMembers rest

/-- Writes the row of a household, then those of its members. -/
def insertRecord (record : HouseholdRecord) (issued : Nat) : Writing HouseholdRecord := do
  insertHousehold record.household issued
  insertMembers record.members
  return record

/-- The record that an input is registered as. -/
def newRecord (s : Store) (now : Moment) (programId : Uuid) (input : NewHousehold)
    (headIndex : Nat) : HouseholdRecord :=
  { household := input.registered s.nextId programId (s.ids.after (s.issued + 1 + headIndex)) now
    members := NewIndividual.registeredAll s.ids s.nextId (s.issued + 1) input.members }

/-- Writes a household and its members, after the checks that ask for no registration id. -/
def writeHousehold (now : Moment) (programId : Uuid) (input : NewHousehold) :
    Writing HouseholdRecord := do
  let program ← Writing.read fun s => s.requireProgram programId
  let headIndex ← Writing.read fun _ => input.check program.mode
  let record ← Writing.read fun s => .ok (s.newRecord now programId input headIndex)
  let issued ← Writing.read fun s => .ok s.issued
  insertRecord record (issued + 1 + record.members.length)

/-- Withdraws the row of a household, then those of its members; tells whether there was one. -/
def writeHouseholdWithdrawal (id : Uuid) : Writing Bool := do
  let found ← Writing.step fun s =>
    (s.households.any fun h => h.id == id,
      { s with households := s.households.map fun h => if h.id = id then h.withdraw else h })
  Writing.step fun s =>
    ((), { s with
      individuals := s.individuals.map fun i => if i.householdId = id then i.withdraw else i })
  return found

/-- Withdraws the row of an individual, then that of the household that only wraps it; tells
whether there was one. -/
def writeIndividualWithdrawal (id : Uuid) : Writing Bool := do
  let found ← Writing.step fun s =>
    (s.individuals.any fun i => i.id == id,
      { s with individuals := s.individuals.map fun i => if i.id = id then i.withdraw else i })
  Writing.step fun s =>
    ((), { s with households := s.households.map fun h => if s.wraps h id then h.withdraw else h })
  return found

/-- Writes the row of an individual with a round put among its attributes, if the round can be
recorded; an unknown individual is none. -/
def writeRound (id : Uuid) (input : NewRoundValue) : Writing (Option Individual) := do
  match ← Writing.read fun s => .ok (s.individual? id) with
  | none => return none
  | some individual =>
    Writing.read fun s => s.checkRound individual input.field input.round
    let changed := { individual with flexFields := input.addTo individual.flexFields }
    Writing.step fun s =>
      ((), { s with
        individuals := s.individuals.map fun i => if i.id = id then changed.stored else i })
    return some changed

end Store

/-- An operation in one step after its checks. -/
def Operation.wholly (now : Moment) (operation : Operation) : Writing Answer := do
  let result ← Writing.read fun s => s.run now operation
  Writing.step fun _ => result

/-- An operation row by row. An operation that writes one row at most is one step. -/
def Operation.writing (now : Moment) : Operation → Writing Answer
  | .createHousehold program input =>
    (fun record => .record (some record)) <$> Store.writeHousehold now program input
  | .withdrawHousehold id => Answer.withdrawn <$> Store.writeHouseholdWithdrawal id
  | .withdrawIndividual id => Answer.withdrawn <$> Store.writeIndividualWithdrawal id
  | .recordRound id input => Answer.individual <$> Store.writeRound id input
  | operation => operation.wholly now

namespace Writing

variable {α β : Type}

/-- A value is written by nothing. -/
@[simp] theorem on_pure (a : α) (s : Store) : on (pure a) s = (.ok a, s) := rfl

/-- A read leaves the store as it is. -/
@[simp] theorem on_read (f : Store → Except Failure α) (s : Store) : on (read f) s = (f s, s) := rfl

/-- A write changes the store. -/
@[simp] theorem on_step (write : Store → α × Store) (s : Store) :
    on (step write) s = (.ok (write s).1, (write s).2) := rfl

/-- Writes follow one another until one is refused. -/
theorem on_bind (first : Writing α) (next : α → Writing β) (s : Store) :
    on (first >>= next) s =
      match on first s with
      | (.ok a, t) => on (next a) t
      | (.error failure, t) => (.error failure, t) := by
  change (ExceptT.bind first next).run.run s = _
  unfold ExceptT.bind on
  change (ExceptT.bindCont next ((first.run.run s).1)).run (first.run.run s).2 = _
  obtain ⟨result, t⟩ := first.run.run s
  cases result <;> rfl

/-- After a write that is made the next ones are made. -/
theorem on_bind_of_ok {first : Writing α} {next : α → Writing β} {s t : Store} {a : α}
    (h : on first s = (.ok a, t)) : on (first >>= next) s = on (next a) t := by
  rw [on_bind, h]

/-- After a write that is refused nothing is written. -/
theorem on_bind_of_error {first : Writing α} {next : α → Writing β} {s t : Store}
    {failure : Failure} (h : on first s = (.error failure, t)) :
    on (first >>= next) s = (.error failure, t) := by
  rw [on_bind, h]

/-- What is made of a result does not change what a transaction writes. -/
theorem transact_map (f : α → β) (writing : Writing α) (s : Store) :
    transact (f <$> writing) s = ((transact writing s).1.map f, (transact writing s).2) := by
  unfold transact
  rw [map_eq_pure_bind, on_bind]
  cases on writing s with
  | mk result t => cases result <;> rfl

end Writing

/-- Whether an id is the first one taken depends only on which ids are taken. -/
theorem firstTaken?_congr {taken taken' : List String} (h : ∀ id, id ∈ taken ↔ id ∈ taken')
    (ids : List String) : firstTaken? taken ids = firstTaken? taken' ids := by
  induction ids generalizing taken taken' with
  | nil => rfl
  | cons id rest ih =>
    have htaken : taken.contains id = taken'.contains id := by
      simp only [List.contains_eq_mem, h id]
    have hrest : ∀ other, other ∈ id :: taken ↔ other ∈ id :: taken' := by
      intro other
      rw [List.mem_cons, List.mem_cons, h other]
    rw [firstTaken?, firstTaken?, htaken, ih hrest]

namespace Store

open Writing

variable {s : Store}

private theorem on_insertMembers_cons (s : Store) (member : Individual) (rest : List Individual) :
    on (insertMembers (member :: rest)) s =
      if (s.individuals.map Individual.unicefId).contains member.unicefId then
        (.error (.individualIdTaken member.unicefId), s)
      else
        on (insertMembers rest) { s with individuals := s.individuals ++ [member.stored] } := by
  have hany : (s.individuals.any fun i => i.unicefId == member.unicefId) =
      (s.individuals.map Individual.unicefId).contains member.unicefId := by
    rw [List.contains_eq_any_beq, List.any_map]
    congr 1
    funext i
    exact Bool.beq_comm
  rw [insertMembers, on_bind, on_read, hany]
  cases (s.individuals.map Individual.unicefId).contains member.unicefId with
  | true => rfl
  | false => rfl

private theorem firstTaken?_written (s : Store) (member : Individual) (ids : List String) :
    firstTaken? ((s.individuals ++ [member.stored]).map Individual.unicefId) ids =
      firstTaken? (member.unicefId :: s.individuals.map Individual.unicefId) ids := by
  apply firstTaken?_congr
  intro id
  rw [List.map_append, List.mem_append, List.map_singleton, List.mem_singleton, List.mem_cons]
  exact or_comm

/-- Members are all written when no id of theirs is in use. -/
theorem on_insertMembers_of_none {members : List Individual}
    (h : firstTaken? (s.individuals.map Individual.unicefId)
      (members.map Individual.unicefId) = none) :
    on (insertMembers members) s =
      (.ok (), { s with individuals := s.individuals ++ members.map Individual.stored }) := by
  induction members generalizing s with
  | nil => rw [insertMembers, on_pure, List.map_nil, List.append_nil]
  | cons member rest ih =>
    rw [List.map_cons, firstTaken?] at h
    rw [on_insertMembers_cons]
    split at h
    · cases h
    · next hfree =>
      rw [← firstTaken?_written s member] at h
      rw [if_neg hfree, ih h, List.append_assoc]
      rfl

/-- When the id of a member is in use, the members before the first such are written, and no
other. -/
theorem on_insertMembers_of_some {members : List Individual} {id : String}
    (h : firstTaken? (s.individuals.map Individual.unicefId)
      (members.map Individual.unicefId) = some id) :
    ∃ (n : Nat) (member : Individual), members[n]? = some member ∧ member.unicefId = id ∧
      (∃ i ∈ s.individuals ++ members.take n, i.unicefId = id) ∧
      on (insertMembers members) s =
        (.error (.individualIdTaken id),
          { s with individuals := s.individuals ++ (members.take n).map Individual.stored }) := by
  induction members generalizing s with
  | nil => cases h
  | cons member rest ih =>
    rw [List.map_cons, firstTaken?] at h
    rw [on_insertMembers_cons]
    split at h
    · next htaken =>
      obtain rfl := Option.some.inj h
      refine ⟨0, member, rfl, rfl, by simpa using htaken, ?_⟩
      rw [if_pos htaken, List.take_zero, List.map_nil, List.append_nil]
    · next hfree =>
      rw [← firstTaken?_written s member] at h
      obtain ⟨n, other, hother, hid, ⟨i, hi, hiid⟩, hrest⟩ :=
        ih (s := { s with individuals := s.individuals ++ [member.stored] }) h
      refine ⟨n + 1, other, hother, hid, ?_, ?_⟩
      · rw [List.take_succ_cons]
        rcases List.mem_append.mp hi with hi | hi
        · rcases List.mem_append.mp hi with hi | hi
          · exact ⟨i, List.mem_append_left _ hi, hiid⟩
          · rw [List.mem_singleton.mp hi] at hiid
            exact ⟨member, by simp, hiid⟩
        · exact ⟨i, by simp [hi], hiid⟩
      · rw [if_neg hfree, hrest, List.append_assoc]
        rfl

/-- The row of a household is not written when its id is in use. -/
theorem on_insertHousehold_of_taken {household : Household} {issued : Nat}
    (h : (s.households.any fun h => h.unicefId == household.unicefId) = true) :
    on (insertHousehold household issued) s =
      (.error (.householdIdTaken household.unicefId), s) := by
  apply on_bind_of_error
  rw [on_read, h]
  rfl

/-- The row of a household is written when its id is not in use. -/
theorem on_insertHousehold_of_free {household : Household} {issued : Nat}
    (h : (s.households.any fun h => h.unicefId == household.unicefId) = false) :
    on (insertHousehold household issued) s =
      (.ok (), { s with issued, households := s.households ++ [household.stored] }) := by
  rw [insertHousehold, on_bind, on_read, h]
  rfl

/-- A household whose id is in use is not written, nor are its members. -/
theorem on_insertRecord_of_household_taken {record : HouseholdRecord} {issued : Nat}
    (h : (s.households.any fun h => h.unicefId == record.household.unicefId) = true) :
    on (insertRecord record issued) s =
      (.error (.householdIdTaken record.household.unicefId), s) :=
  on_bind_of_error (on_insertHousehold_of_taken h)

/-- A household with a member whose id is in use is written, and the members before the first such
are. -/
theorem on_insertRecord_of_member_taken (record : HouseholdRecord) (issued : Nat) {id : String}
    (h : (s.households.any fun h => h.unicefId == record.household.unicefId) = false)
    (htaken : firstTaken? (s.individuals.map Individual.unicefId)
      (record.members.map Individual.unicefId) = some id) :
    ∃ (n : Nat) (member : Individual), record.members[n]? = some member ∧ member.unicefId = id ∧
      (∃ i ∈ s.individuals ++ record.members.take n, i.unicefId = id) ∧
      on (insertRecord record issued) s =
        (.error (.individualIdTaken id),
          { s with
            issued
            households := s.households ++ [record.household.stored]
            individuals := s.individuals ++ (record.members.take n).map Individual.stored }) := by
  obtain ⟨n, member, hmember, hid, huse, hwritten⟩ := on_insertMembers_of_some
    (s := { s with issued, households := s.households ++ [record.household.stored] }) htaken
  refine ⟨n, member, hmember, hid, huse, ?_⟩
  rw [insertRecord, on_bind_of_ok (on_insertHousehold_of_free h), on_bind_of_error hwritten]

/-- A household is written with all its members when no id of theirs is in use. -/
theorem on_insertRecord_of_free (record : HouseholdRecord) (issued : Nat)
    (h : (s.households.any fun h => h.unicefId == record.household.unicefId) = false)
    (hfree : firstTaken? (s.individuals.map Individual.unicefId)
      (record.members.map Individual.unicefId) = none) :
    on (insertRecord record issued) s =
      (.ok record,
        { s with
          issued
          households := s.households ++ [record.household.stored]
          individuals := s.individuals ++ record.members.map Individual.stored }) := by
  have hwritten := on_insertMembers_of_none
    (s := { s with issued, households := s.households ++ [record.household.stored] }) hfree
  rw [insertRecord, on_bind_of_ok (on_insertHousehold_of_free h), on_bind_of_ok hwritten, on_pure]

/-- A household that passes its checks is written with its members. -/
theorem on_writeHousehold {now : Moment} {programId : Uuid} {input : NewHousehold}
    {program : Program} {headIndex : Nat} (hprogram : s.requireProgram programId = .ok program)
    (hcheck : input.check program.mode = .ok headIndex) :
    on (writeHousehold now programId input) s =
      on (insertRecord (s.newRecord now programId input headIndex)
        (s.issued + 1 + input.members.length)) s := by
  simp only [writeHousehold, on_bind, on_read, hprogram, hcheck, newRecord, length_registeredAll]

/-- A household that passes the other checks is registered unless a registration id is in use. -/
theorem createHousehold_of_check {now : Moment} {programId : Uuid} {input : NewHousehold}
    {program : Program} {headIndex : Nat} (hprogram : s.requireProgram programId = .ok program)
    (hcheck : input.check program.mode = .ok headIndex) :
    s.createHousehold now programId input = (s.checkNewIds input).map fun _ =>
      (s.newRecord now programId input headIndex, s.register now programId input headIndex) := by
  simp only [createHousehold, bind, Except.bind, hprogram, hcheck, length_registeredAll, register]
  cases s.checkNewIds input <;> rfl

/-- A household is registered in one transaction as it is when all checks are made ahead. -/
theorem transact_writeHousehold (s : Store) (now : Moment) (programId : Uuid)
    (input : NewHousehold) :
    (writeHousehold now programId input).transact s =
      match s.createHousehold now programId input with
      | .ok (record, after) => (.ok record, after)
      | .error failure => (.error failure, s) := by
  unfold transact
  cases hprogram : s.requireProgram programId with
  | error failure =>
    simp only [writeHousehold, createHousehold, on_bind, on_read, hprogram]
    rfl
  | ok program =>
    cases hcheck : input.check program.mode with
    | error failure =>
      have hrefused : s.createHousehold now programId input = .error failure := by
        simp only [createHousehold, bind, Except.bind, hprogram, hcheck]
      simp only [writeHousehold, on_bind, on_read, hprogram, hcheck, hrefused]
    | ok headIndex =>
      rw [on_writeHousehold hprogram hcheck, createHousehold_of_check hprogram hcheck]
      cases htaken : s.households.any fun h => h.unicefId == input.unicefId with
      | true =>
        rw [on_insertRecord_of_household_taken htaken, checkNewIds, htaken]
        rfl
      | false =>
        rw [checkNewIds, htaken]
        cases hfirst : firstTaken? (s.individuals.map Individual.unicefId)
            (input.members.map NewIndividual.unicefId) with
        | some id =>
          rw [← map_unicefId_registeredAll s.ids s.nextId (s.issued + 1)] at hfirst
          obtain ⟨n, member, -, -, -, hwritten⟩ := on_insertRecord_of_member_taken
            (s.newRecord now programId input headIndex) (s.issued + 1 + input.members.length)
            htaken hfirst
          rw [hwritten]
          rfl
        | none =>
          rw [← map_unicefId_registeredAll s.ids s.nextId (s.issued + 1)] at hfirst
          rw [on_insertRecord_of_free _ _ htaken hfirst]
          rfl

/-- A household is withdrawn in one transaction, found or not. -/
theorem transact_writeHouseholdWithdrawal (s : Store) (id : Uuid) :
    (writeHouseholdWithdrawal id).transact s =
      (.ok (s.household? id).isSome, s.withdrawHousehold id) := by
  rw [household?, List.isSome_find?]
  rfl

private theorem wraps_withdrawn (s : Store) (h : Household) (id : Uuid) :
    wraps { s with
        individuals := s.individuals.map fun i => if i.id = id then i.withdraw else i } h id =
      s.wraps h id := by
  have hkeeps := keepsIndividual_withdraw fun i => i.id = id
  have hrevise := wraps_revise (s := s) (f := fun h => h) hkeeps h id
  simpa [revise] using hrevise

/-- An individual is withdrawn in one transaction, found or not. -/
theorem transact_writeIndividualWithdrawal (s : Store) (id : Uuid) :
    (writeIndividualWithdrawal id).transact s =
      (.ok (s.individual? id).isSome, s.withdrawIndividual id) := by
  rw [individual?, List.isSome_find?, withdrawIndividual]
  simp only [← wraps_withdrawn s]
  rfl

/-- A round is recorded in one transaction as it is when its check is made ahead. -/
theorem transact_writeRound (s : Store) (id : Uuid) (input : NewRoundValue) :
    (writeRound id input).transact s =
      match s.recordRound id input with
      | .ok (answer, after) => (.ok answer, after)
      | .error failure => (.error failure, s) := by
  unfold transact
  cases hindividual : s.individual? id with
  | none => simp only [writeRound, recordRound, on_bind, on_read, on_pure, hindividual]
  | some individual =>
    cases hround : s.checkRound individual input.field input.round with
    | error failure =>
      simp only [writeRound, on_bind, on_read, hindividual, hround]
      simp only [recordRound, hindividual, hround, bind, Except.bind]
    | ok u =>
      simp only [writeRound, on_bind, on_read, on_step, on_pure, hindividual, hround]
      simp only [recordRound, hindividual, hround, bind, Except.bind, pure, Except.pure]

private theorem run_eq_transact_wholly (s : Store) (now : Moment) (operation : Operation)
    (h : operation.writing now = operation.wholly now) :
    (Database.mk (some s)).run now operation =
      (((operation.writing now).transact s).1, ⟨some ((operation.writing now).transact s).2⟩) := by
  rw [h, Operation.wholly, transact, on_bind, on_read, Database.run]
  cases hrun : s.run now operation <;> simp [hrun]

/-- An operation comes out the same, with the same store after it, whether it is run with all checks
ahead or row by row in one transaction. -/
theorem run_eq_transact (s : Store) (now : Moment) (operation : Operation) :
    (Database.mk (some s)).run now operation =
      (((operation.writing now).transact s).1, ⟨some ((operation.writing now).transact s).2⟩) := by
  cases operation with
  | createHousehold programId input =>
    rw [Operation.writing, transact_map, transact_writeHousehold]
    cases hcreate : s.createHousehold now programId input <;>
      simp [Database.run, Store.run, Except.map, hcreate]
  | withdrawHousehold id =>
    rw [Operation.writing, transact_map, transact_writeHouseholdWithdrawal]
    rfl
  | withdrawIndividual id =>
    rw [Operation.writing, transact_map, transact_writeIndividualWithdrawal]
    rfl
  | recordRound id input =>
    rw [Operation.writing, transact_map, transact_writeRound]
    cases hrecord : s.recordRound id input <;>
      simp [Database.run, Store.run, Except.map, hrecord]
  | _ => exact run_eq_transact_wholly s now _ rfl

end Store

end Beneficiary
