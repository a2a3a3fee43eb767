import Beneficiary.Proofs.Http.Requests
import Beneficiary.Proofs.Store.Transactions

/-!
# What failures leave behind

Queries change nothing, and neither does an operation that is refused or finds nothing to change. A
transaction takes back what was written before a row was refused. Over the service a response with
the status of an error comes from no other operation, so whoever gets one finds the store as it was.
-/

namespace Beneficiary

namespace Store

variable {s t : Store} {now : Moment} {operation : Operation}

/-- Withdrawing a household that is not registered changes nothing. -/
theorem withdrawHousehold_of_unknown (hs : s.Populated) {id : Uuid} (h : s.household? id = none) :
    s.withdrawHousehold id = s := by
  have hhousehold : ∀ k ∈ s.households, k.id ≠ id := by
    simpa [household?] using h
  have hmember : ∀ i ∈ s.individuals, i.householdId ≠ id := by
    intro i hi heq
    obtain ⟨k, hk, hid⟩ := hs.individual_household i hi
    exact hhousehold k hk (hid.trans heq)
  have hhouseholds : s.households.map (fun k => if k.id = id then k.withdraw else k) =
      s.households := by
    rw [List.map_congr_left fun k hk => if_neg (hhousehold k hk), List.map_id']
  have hindividuals : s.individuals.map (fun i => if i.householdId = id then i.withdraw else i) =
      s.individuals := by
    rw [List.map_congr_left fun i hi => if_neg (hmember i hi), List.map_id']
  rw [withdrawHousehold, hhouseholds, hindividuals]

/-- Withdrawing an individual that is not registered changes nothing. -/
theorem withdrawIndividual_of_unknown {id : Uuid} (h : s.individual? id = none) :
    s.withdrawIndividual id = s := by
  have hindividual : ∀ i ∈ s.individuals, i.id ≠ id := by
    simpa [individual?] using h
  have hwraps : ∀ k, s.wraps k id ≠ true := by
    intro k hk
    rw [wraps, Bool.and_eq_true, List.any_eq_true] at hk
    obtain ⟨⟨i, hi, hid⟩, -⟩ := hk
    rw [Bool.and_eq_true, beq_iff_eq] at hid
    exact hindividual i hi hid.1
  have hhouseholds : s.households.map (fun k => if s.wraps k id then k.withdraw else k) =
      s.households := by
    rw [List.map_congr_left fun k _ => if_neg (hwraps k), List.map_id']
  have hindividuals : s.individuals.map (fun i => if i.id = id then i.withdraw else i) =
      s.individuals := by
    rw [List.map_congr_left fun i hi => if_neg (hindividual i hi), List.map_id']
  rw [withdrawIndividual, hhouseholds, hindividuals]

/-- A change that is answered either finds nothing and leaves the store as it is, or is done and
answered with the status of a success. -/
theorem change_answered (hs : s.Populated) {answer : Answer} (hquery : operation.isQuery = false)
    (h : s.run now operation = .ok (answer, t)) :
    (Outcome.of (.ok answer) ≠ .done ∧ t = s) ∨
      (Outcome.of (.ok answer) = .done ∧
        (Http.Response.ofAnswer operation answer).status < 400) := by
  have hcreated : 201 < 400 := by decide
  have hupdated : 200 < 400 := by decide
  have hwithdrawn : 204 < 400 := by decide
  have hnothing : Outcome.nothing ≠ .done := by decide
  cases operation with
  | createProgram input =>
    obtain ⟨result, -, heq⟩ := map_eq_ok_iff.mp h
    rw [← (Prod.mk.inj heq).1]
    exact .inr ⟨rfl, hcreated⟩
  | createFlexAttribute program input =>
    obtain ⟨result, -, heq⟩ := map_eq_ok_iff.mp h
    rw [← (Prod.mk.inj heq).1]
    exact .inr ⟨rfl, hcreated⟩
  | createPeriodicField program input =>
    obtain ⟨result, -, heq⟩ := map_eq_ok_iff.mp h
    rw [← (Prod.mk.inj heq).1]
    exact .inr ⟨rfl, hcreated⟩
  | createHousehold program input =>
    obtain ⟨result, -, heq⟩ := map_eq_ok_iff.mp h
    rw [← (Prod.mk.inj heq).1]
    exact .inr ⟨rfl, hcreated⟩
  | withdrawHousehold id =>
    obtain ⟨rfl, rfl⟩ := Prod.mk.inj (Except.ok.inj h)
    cases hfound : s.household? id with
    | none => exact .inl ⟨hnothing, withdrawHousehold_of_unknown hs hfound⟩
    | some household => exact .inr ⟨rfl, hwithdrawn⟩
  | withdrawIndividual id =>
    obtain ⟨rfl, rfl⟩ := Prod.mk.inj (Except.ok.inj h)
    cases hfound : s.individual? id with
    | none => exact .inl ⟨hnothing, withdrawIndividual_of_unknown hfound⟩
    | some individual => exact .inr ⟨rfl, hwithdrawn⟩
  | recordRound id input =>
    obtain ⟨⟨found, u⟩, hrecord, heq⟩ := map_eq_ok_iff.mp h
    obtain ⟨rfl, rfl⟩ := Prod.mk.inj heq
    rcases recordRound_eq_ok_iff.mp hrecord with ⟨-, rfl, hu⟩ | ⟨individual, -, -, -, rfl⟩
    · exact .inl ⟨hnothing, hu⟩
    · exact .inr ⟨rfl, hupdated⟩
  | _ => cases hquery

/-- An operation that only asks, is refused or finds nothing to change leaves the store as it is. -/
theorem run_of_not_done (hs : s.Populated)
    (h : operation.isQuery = true ∨
      Outcome.of ((Database.mk (some s)).run now operation).1 ≠ .done) :
    ((Database.mk (some s)).run now operation).2 = ⟨some s⟩ := by
  cases hrun : s.run now operation with
  | error failure => rw [run_eq_of_error hrun]
  | ok result =>
    rw [run_eq_of_ok hrun] at h ⊢
    cases hquery : operation.isQuery with
    | true => rw [eq_of_run_query hquery hrun]
    | false =>
      rcases change_answered hs hquery hrun with ⟨-, hsame⟩ | ⟨hdone, -⟩
      · rw [hsame]
      · simp [hquery, hdone] at h

/-- The rows of a household stop at a member whose id is in use, in the store or by a member before
it: by then the household is written, and the members before that one are. -/
def StopsAtMember (s : Store) (now : Moment) (programId : Uuid) (input : NewHousehold)
    (id : String) : Prop :=
  ∃ (headIndex n : Nat) (member : Individual),
    (s.newRecord now programId input headIndex).members[n]? = some member ∧
    member.unicefId = id ∧
    (∃ i ∈ s.individuals ++ (s.newRecord now programId input headIndex).members.take n,
      i.unicefId = id) ∧
    (writeHousehold now programId input).on s =
      (.error (.individualIdTaken id),
        { s with
          issued := s.issued + 1 + input.members.length
          households := s.households ++
            [(s.newRecord now programId input headIndex).household.stored]
          individuals := s.individuals ++
            ((s.newRecord now programId input headIndex).members.take n).map Individual.stored })

/-- A household that is refused because of a member is one whose rows stop there. -/
theorem stopsAtMember_of_error {programId : Uuid} {input : NewHousehold} {id : String}
    (h : s.createHousehold now programId input = .error (.individualIdTaken id)) :
    s.StopsAtMember now programId input id := by
  rw [createHousehold] at h
  rcases bind_eq_error_iff.mp h with hprogram | ⟨program, hprogram, h⟩
  · cases requireProgram_eq_error hprogram
  rcases bind_eq_error_iff.mp h with hcheck | ⟨headIndex, hcheck, h⟩
  · rcases NewHousehold.check_eq_error hcheck with hmem | ⟨heads, heads_eq⟩
    · simp [NewHousehold.refusals] at hmem
    · cases heads_eq
  rcases check_bind_eq_error_iff.mp h with hnew | ⟨-, h⟩
  · rcases check_bind_eq_error_iff.mp hnew with htaken | ⟨hfree, hfirst⟩
    · cases (require_eq_error_iff.mp htaken).2
    · have hhousehold := Bool.not_eq_true' _ |>.mp (require_eq_ok_iff.mp hfree)
      split at hfirst
      · next taken htaken =>
        obtain rfl := Failure.individualIdTaken.inj (Except.error.inj hfirst)
        rw [← map_unicefId_registeredAll s.ids s.nextId (s.issued + 1)] at htaken
        obtain ⟨n, member, hmember, hid, huse, hwritten⟩ := on_insertRecord_of_member_taken
          (s.newRecord now programId input headIndex) (s.issued + 1 + input.members.length)
          hhousehold htaken
        refine ⟨headIndex, n, member, hmember, hid, huse, ?_⟩
        rw [on_writeHousehold hprogram hcheck, hwritten]
      · cases hfirst
  · cases h

end Store

namespace Http

variable {s : Store} {now : Moment}

/-- The request targets a program: it validates or previews criteria. -/
def Request.IsTargeting (request : Request) : Prop :=
  ∃ program, Endpoint.ofSegments? request.segments = some (.validation program) ∨
    Endpoint.ofSegments? request.segments = some (.preview program)

/-- What an operation that is not done is answered with is the database that it was asked of. -/
theorem perform_of_error {operation : Operation} (hs : s.Populated)
    (h : operation.isQuery = true ∨ 400 ≤ (perform now ⟨some s⟩ operation).1.status) :
    (perform now ⟨some s⟩ operation).2 = ⟨some s⟩ := by
  cases hquery : operation.isQuery with
  | true =>
    have hanswer : (answerWith now ⟨some s⟩ operation).2 = ⟨some s⟩ :=
      Store.run_of_not_done hs (.inl hquery)
    unfold perform
    split
    · split
      · rfl
      · rfl
      · exact hanswer
    · exact hanswer
  | false =>
    have hperform : perform now ⟨some s⟩ operation = answerWith now ⟨some s⟩ operation := by
      cases operation with
      | getHouseholds => cases hquery
      | _ => rfl
    rw [hperform] at h ⊢
    change ((Database.mk (some s)).run now operation).2 = _
    cases hrun : s.run now operation with
    | error failure => rw [Store.run_eq_of_error hrun]
    | ok result =>
      have hstatus := h.resolve_left (by simp [hquery])
      rw [answerWith, Store.run_eq_of_ok hrun] at hstatus
      rcases Store.change_answered hs hquery hrun with ⟨-, hsame⟩ | ⟨-, hlt⟩
      · rw [Store.run_eq_of_ok hrun, hsame]
      · exact absurd hstatus (by simpa [Response.ofOutcome] using hlt)

private theorem isQuery_of_readTask? {endpoint : Endpoint} {operation : Operation}
    (h : endpoint.readTask? = some (.ok (.operation operation))) : operation.isQuery = true := by
  rcases Endpoint.readTask?_cases h with rfl | ⟨make, hmake, id, rfl⟩
  · rfl
  · simp only [List.mem_cons, List.not_mem_nil, or_false] at hmake
    rcases hmake with rfl | rfl | rfl | rfl <;> rfl

/-- A request that only reads or that targets a program asks for a query at most. -/
theorem isQuery_of_operation? {request : Request} {today : Date} {operation : Operation}
    (h : request.operation? today = some operation)
    (hreads : request.method = .get ∨ request.method = .head ∨ request.IsTargeting) :
    operation.isQuery = true := by
  obtain ⟨endpoint, hendpoint, htask⟩ := operation?_eq_some_iff.mp h
  unfold Endpoint.task? at htask
  split at htask
  · exact isQuery_of_readTask? htask
  · exact isQuery_of_readTask? htask
  · next hpost =>
    rw [hpost] at hreads
    obtain ⟨program, htarget⟩ := (hreads.resolve_left nofun).resolve_left nofun
    rw [hendpoint] at htarget
    rcases htarget with heq | heq
    · obtain rfl := Option.some.inj heq
      obtain ⟨id, asOf, input, -, -, -, rfl⟩ := Endpoint.onTarget_eq_some_iff.mp htask
      rfl
    · obtain rfl := Option.some.inj heq
      obtain ⟨id, asOf, input, -, -, -, rfl⟩ := Endpoint.onTarget_eq_some_iff.mp htask
      rfl
  · cases htask

end Http

/-- The store is as it was after a query, after an operation that is refused or finds nothing, and
after a request that only reads, targets a program or gets the status of an error. Rows that were
written before one was refused are taken back, those of a household and its first members too. -/
theorem Store.unchanged_unless_done {s : Store} (hs : s.Reachable) (now : Moment) :
    (∀ operation, operation.isQuery = true ∨
        Outcome.of ((Database.mk (some s)).run now operation).1 ≠ .done →
      ((Database.mk (some s)).run now operation).2 = ⟨some s⟩) ∧
    (∀ operation : Operation, (Database.mk (some s)).run now operation =
      (((operation.writing now).transact s).1, ⟨some ((operation.writing now).transact s).2⟩)) ∧
    (∀ programId input id,
      ((Database.mk (some s)).run now (.createHousehold programId input)).1 =
          .error (.individualIdTaken id) →
        s.StopsAtMember now programId input id ∧
          ((Database.mk (some s)).run now (.createHousehold programId input)).2 = ⟨some s⟩) ∧
    ∀ request : Http.Request,
      400 ≤ (Http.respond now ⟨some s⟩ request).1.status ∨
          request.method ∈ [.get, .head, .options] ∨ request.IsTargeting →
        (Http.respond now ⟨some s⟩ request).2 = ⟨some s⟩ := by
  have hpopulated := hs.invariants.2
  refine ⟨fun operation h => run_of_not_done hpopulated h, run_eq_transact s now, ?_, ?_⟩
  · intro programId input id h
    cases hrun : s.run now (.createHousehold programId input) with
    | error failure =>
      rw [run_eq_of_error hrun] at h ⊢
      obtain rfl := Except.error.inj h
      exact ⟨stopsAtMember_of_error (map_eq_error_iff.mp hrun), rfl⟩
    | ok result =>
      rw [run_eq_of_ok hrun] at h
      cases h
  · intro request h
    cases hasked : request.operation? now.date with
    | none => exact Http.respond_of_none hasked
    | some operation =>
      obtain ⟨hstatus, hafter⟩ := Http.respond_eq hasked
      rw [hstatus] at h
      rw [hafter]
      apply Http.perform_of_error hpopulated
      rcases h with herror | hmethod | htarget
      · exact .inr herror
      · simp only [List.mem_cons, List.not_mem_nil, or_false] at hmethod
        rcases hmethod with hget | hhead | hoptions
        · exact .inl (Http.isQuery_of_operation? hasked (.inl hget))
        · exact .inl (Http.isQuery_of_operation? hasked (.inr (.inl hhead)))
        · rw [Http.operation?_of_options hoptions] at hasked
          cases hasked
      · exact .inl (Http.isQuery_of_operation? hasked (.inr (.inr htarget)))

/-- An outcome is a refusal exactly when there is a failure. -/
theorem Outcome.of_eq_refused_iff {result : Except Failure Answer} {failure : Failure} :
    Outcome.of result = .refused failure ↔ result = .error failure := by
  unfold Outcome.of
  split <;> simp

/-- The withdrawal of a household that is not registered. -/
def strayWithdrawal : Http.Request :=
  { method := .post
    target := "/api/v1/households/d1f7a9c3-5b2e-4c8a-b6e4-917c300000ff/withdraw"
    contentType := none
    origin := none
    body := "" }

/-- A household whose second member repeats an id of the store leaves nothing behind, and neither do
a listing of programs and the withdrawal of a household that is not registered. -/
theorem Store.exampleStore_unchanged :
    exampleStore.Reachable ∧
      exampleStore.StopsAtMember exampleMoment (idAfter 7)
        (exampleHousehold "HH-5" ["IND-6", "IND-1"]) "IND-1" ∧
      ((Database.mk (some exampleStore)).run exampleMoment (.createHousehold (idAfter 7)
        (exampleHousehold "HH-5" ["IND-6", "IND-1"]))).2 = ⟨some exampleStore⟩ ∧
      ((Database.mk (some exampleStore)).run exampleMoment .getPrograms).2 =
        ⟨some exampleStore⟩ ∧
      (Http.respond exampleMoment ⟨some exampleStore⟩ strayWithdrawal).1.status = 404 ∧
      (Http.respond exampleMoment ⟨some exampleStore⟩ strayWithdrawal).2 =
        ⟨some exampleStore⟩ := by
  have hs := exampleStore_reachable
  obtain ⟨hrun, -, hmember, hrespond⟩ := unchanged_unless_done hs exampleMoment
  have hrefused : Outcome.of ((Database.mk (some exampleStore)).run exampleMoment
      (.createHousehold (idAfter 7) (exampleHousehold "HH-5" ["IND-6", "IND-1"]))).1 =
        .refused (.individualIdTaken "IND-1") := by
    decide +kernel
  have hstatus : (Http.respond exampleMoment ⟨some exampleStore⟩ strayWithdrawal).1.status =
      404 := by
    decide +kernel
  obtain ⟨hstops, hafter⟩ := hmember _ _ _ (Outcome.of_eq_refused_iff.mp hrefused)
  refine ⟨hs, hstops, hafter, hrun .getPrograms (.inl rfl), hstatus, ?_⟩
  apply hrespond
  rw [hstatus]
  exact .inl (by decide)

end Beneficiary
