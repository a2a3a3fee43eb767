import Beneficiary.Proofs.Http.Statuses
import Beneficiary.Proofs.Store.Constraints

/-!
# No internal error

A failure whose message holds no word of a status is answered with the status of an internal error,
500, and so is a fault of the tables. But no operation on a reachable store breaks a constraint, and
the message of every refusal holds a word of a status, whatever it quotes, unless the tables were
never made. So a service on made tables, whose engine carries out the statements that it is sent,
answers no request with 500: none that reaches the store, none that is refused before, and none in a
sequence of requests, each of which finds what the others left.

What is assumed of the engine cannot be left out. An engine with a limit on the length of a row fails
the update of an individual whose recorded rounds have grown past it, and no check comes before.
-/

namespace Beneficiary.Http

open Text

/-- Criteria aside, the message of a failure on made tables holds a word of a status, whatever is
quoted in it. -/
theorem exists_statusWord {failure : Failure} (hmade : failure.kind ≠ .unavailable) :
    (∃ e, failure = .criteria e) ∨
      ∃ word ∈ statusWords, contains failure.message word = true := by
  have hfound : "not found" ∈ statusWords := by decide
  have halready : "already" ∈ statusWords := by decide
  have hmust : "must" ∈ statusWords := by decide
  cases failure with
  | criteria e => exact .inl ⟨e, rfl⟩
  | missingTable table => exact absurd rfl hmade
  | unknownProgram => exact .inr ⟨_, hfound, by decide⟩
  | unknownPeriodicField name =>
    exact .inr ⟨_, hfound, contains_append_right (by decide) _⟩
  | fieldNameTaken name =>
    exact .inr ⟨_, halready, contains_append_right (by decide) _⟩
  | householdIdTaken id =>
    exact .inr ⟨_, halready, contains_append_right (by decide) _⟩
  | individualIdTaken id =>
    exact .inr ⟨_, halready, contains_append_right (by decide) _⟩
  | coreFieldName name =>
    exact .inr ⟨_, hmust, contains_append_right (by decide) _⟩
  | notAChoice field choices =>
    exact .inr ⟨_, hmust, contains_append_left (contains_append_right (by decide) _) _⟩
  | notIndividualField name =>
    exact .inr ⟨_, hmust, contains_append_right (by decide) _⟩
  | notOneHead heads => exact .inr ⟨_, hmust, contains_append_left (by decide) _⟩
  | noSuchRound round numberOfRounds =>
    exact .inr ⟨_, hmust, contains_append_left (contains_append_right (by decide) _) _⟩
  | otherExclusionMode mode => exact .inr ⟨_, hmust, by cases mode <;> decide⟩
  | _ => exact .inr ⟨_, hmust, by decide⟩

/-- A message tells a status exactly when it holds a word of one. -/
theorem statusOf?_eq_none_iff {message : String} :
    Response.statusOf? message = none ↔ ∀ word ∈ statusWords, contains message word = false := by
  unfold Response.statusOf? statusWords
  split_ifs with hfound halready hmust <;> simp_all

/-- A message tells no status of an internal error. -/
theorem ne_internal_of_statusOf? {message : String} {status : Nat}
    (h : Response.statusOf? message = some status) : status ≠ 500 := by
  unfold Response.statusOf? at h
  split_ifs at h <;> obtain rfl := Option.some.inj h <;> decide

/-- A failure is an internal error exactly when the tables were never made. -/
theorem status_ofFailure_eq_internal_iff {failure : Failure} :
    (Response.ofFailure failure).status = 500 ↔ failure.kind = .unavailable := by
  constructor
  · contrapose
    intro hmade
    rcases exists_statusWord hmade with ⟨e, rfl⟩ | ⟨word, hword, hcontains⟩
    · simp [Response.ofFailure]
    unfold Response.ofFailure
    split
    · simp
    · split
      · next status hstatus => exact ne_internal_of_statusOf? hstatus
      · next hnone =>
        rw [statusOf?_eq_none_iff.mp hnone word hword] at hcontains
        cases hcontains
  · intro hkind
    cases failure with
    | missingTable table => cases table <;> decide
    | _ => cases hkind

/-- The response of a fault. What is no refusal is answered by its message. -/
def Response.ofFault : Guarded.Fault → Response
  | .refused failure => .ofFailure failure
  | fault =>
    match statusOf? fault.message with
    | some status => { status, body := .text fault.message }
    | none => { status := 500, body := .text "Internal server error" }

section Engine

variable (engine : Guarded.Engine) (now : Moment) (s : Store)

/-- Answers with an operation on tables that an engine keeps. -/
def answerOn (operation : Operation) : Response × Store :=
  match Guarded.run engine now s operation with
  | .ok (answer, t) => (.ofAnswer operation answer, t)
  | .error fault => (.ofFault fault, s)

/-- Performs an operation on tables that an engine keeps. -/
def performOn (operation : Operation) : Response × Store :=
  match operation with
  | .getHouseholds program =>
    match Guarded.run engine now s (.getProgram program) with
    | .ok (.program none, _) => (.notFound "Program", s)
    | .error fault => (.ofFault fault, s)
    | _ => answerOn engine now s operation
  | operation => answerOn engine now s operation

/-- Answers a request on tables that an engine keeps. -/
def respondOn (request : Request) : Response × Store :=
  match request.operation? now.date with
  | none => ((respond now ⟨some s⟩ request).1, s)
  | some operation =>
    let (response, t) := performOn engine now s operation
    match request.method with
    | .head => (.bare response.status, t)
    | _ => (response, t)

/-- The operations that the store is asked for to perform one. -/
def performed : Operation → List Operation
  | .getHouseholds program =>
    .getProgram program :: if (s.program? program).isSome then [.getHouseholds program] else []
  | operation => [operation]

end Engine

/-- The responses to requests in turn on tables that an engine keeps, each request finding what the
ones before it left. -/
def respondAll (engine : Guarded.Engine) (s : Store) : List (Moment × Request) → List Response
  | [] => []
  | (now, request) :: rest =>
    (respondOn engine now s request).1 :: respondAll engine (respondOn engine now s request).2 rest

/-- The engine carries out all statements that are sent to answer a request. -/
def Serves (engine : Guarded.Engine) (now : Moment) (s : Store) (request : Request) : Prop :=
  ∀ operation, request.operation? now.date = some operation →
    ∀ asked ∈ performed s operation, engine.CarriesOut now s asked

/-- The engine carries out all statements that are sent to answer requests in turn. -/
def ServesAll (engine : Guarded.Engine) (s : Store) : List (Moment × Request) → Prop
  | [] => True
  | (now, request) :: rest =>
    Serves engine now s request ∧ ServesAll engine (respondOn engine now s request).2 rest

variable {engine : Guarded.Engine} {now : Moment} {db : Database} {request : Request} {s : Store}
  {operation : Operation}

/-- An operation is answered on an engine that carries out its statements as it is without one. -/
theorem answerOn_eq (hs : s.Reachable) (h : engine.CarriesOut now s operation) :
    answerWith now ⟨some s⟩ operation =
      ((answerOn engine now s operation).1, ⟨some (answerOn engine now s operation).2⟩) := by
  unfold answerWith answerOn
  rw [Guarded.run_eq hs h]
  cases hrun : s.run now operation with
  | error failure =>
    rw [Store.run_eq_of_error hrun]
    rfl
  | ok result =>
    rw [Store.run_eq_of_ok hrun]
    rfl

/-- An operation is performed on an engine that carries out its statements as it is without one. -/
theorem performOn_eq (hs : s.Reachable)
    (h : ∀ asked ∈ performed s operation, engine.CarriesOut now s asked) :
    perform now ⟨some s⟩ operation =
      ((performOn engine now s operation).1, ⟨some (performOn engine now s operation).2⟩) := by
  by_cases hlisting : ∃ program, operation = .getHouseholds program
  · obtain ⟨program, rfl⟩ := hlisting
    have hprogram : Guarded.run engine now s (.getProgram program) =
        .ok (.program (s.program? program), s) :=
      Guarded.run_eq hs (h _ List.mem_cons_self)
    unfold perform performOn
    simp only [hprogram, Database.run, Store.run]
    cases hfound : s.program? program with
    | none => rfl
    | some found => exact answerOn_eq hs (h _ (by simp [performed, hfound]))
  · have hperform : perform now ⟨some s⟩ operation = answerWith now ⟨some s⟩ operation ∧
        performOn engine now s operation = answerOn engine now s operation ∧
        performed s operation = [operation] := by
      cases operation with
      | getHouseholds program => exact absurd ⟨program, rfl⟩ hlisting
      | _ => exact ⟨rfl, rfl, rfl⟩
    obtain ⟨hperform, hperformOn, hperformed⟩ := hperform
    rw [hperform, hperformOn]
    exact answerOn_eq hs (h operation (hperformed ▸ List.mem_singleton_self operation))

/-- A request is answered on an engine that serves it as it is without one. -/
theorem respondOn_eq (hs : s.Reachable) (h : Serves engine now s request) :
    respond now ⟨some s⟩ request =
      ((respondOn engine now s request).1, ⟨some (respondOn engine now s request).2⟩) := by
  unfold respondOn
  cases hasked : request.operation? now.date with
  | none => exact Prod.ext rfl (respond_of_none hasked)
  | some operation =>
    have hperform := performOn_eq hs (h operation hasked)
    unfold respond
    cases hmethod : request.method with
    | options =>
      rw [operation?_of_options hmethod] at hasked
      cases hasked
    | _ => simp only [route_eq hasked, hperform]

/-- What an operation leaves behind is left by a call of it, or by none. -/
theorem exists_calls_perform (now : Moment) (db : Database) (operation : Operation) :
    ∃ calls, (perform now db operation).2 = db.after calls := by
  have hcall : (answerWith now db operation).2 = db.after [{ now, operation }] := rfl
  unfold perform
  split
  · split
    · exact ⟨[], rfl⟩
    · exact ⟨[], rfl⟩
    · exact ⟨_, hcall⟩
  · exact ⟨_, hcall⟩

/-- What a request leaves behind is left by calls. -/
theorem exists_calls_respond (now : Moment) (db : Database) (request : Request) :
    ∃ calls, (respond now db request).2 = db.after calls := by
  cases hasked : request.operation? now.date with
  | none => exact ⟨[], respond_of_none hasked⟩
  | some operation =>
    obtain ⟨calls, hcalls⟩ := exists_calls_perform now db operation
    exact ⟨calls, (respond_eq hasked).2.trans hcalls⟩

/-- A request that the engine serves leaves a reachable store behind when it finds one. -/
theorem reachable_respondOn (hs : s.Reachable) (h : Serves engine now s request) :
    (respondOn engine now s request).2.Reachable := by
  obtain ⟨calls, hcalls⟩ := exists_calls_respond now ⟨some s⟩ request
  rw [respondOn_eq hs h] at hcalls
  exact hs.after hcalls.symm

/-- A request that does not reach the store is answered with no internal error. -/
theorem route_ne_internal_of_none (h : request.operation? now.date = none) :
    (route now db request).1.status ≠ 500 := by
  unfold route
  split
  · simp [Response.bare]
  · next endpoint hendpoint =>
    split
    · simp [Response.bare]
    · next task htask =>
      match task with
      | .error refusal =>
        change refusal.status ≠ 500
        cases refusal <;> decide
      | .ok .health => simp [carryOut]
      | .ok (.operation asked) =>
        rw [operation?_eq_some_iff.mpr ⟨endpoint, hendpoint, htask⟩] at h
        cases h

/-- An operation that is served is answered with no internal error on a reachable store. -/
theorem perform_ne_internal (hs : s.Reachable) (hserved : isServed operation = true) :
    (perform now ⟨some s⟩ operation).1.status ≠ 500 := by
  rcases perform_cases hs.invariants.1 hs.catalogued hserved with
    ⟨failure, ⟨hwrong, -⟩, hresponse⟩ | ⟨-, hstatus⟩ | ⟨-, hstatus⟩
  · rw [hresponse]
    intro hinternal
    rw [status_ofFailure_eq_internal_iff.mp hinternal] at hwrong
    exact hwrong
  · rw [hstatus]
    decide
  · intro hinternal
    rw [hinternal] at hstatus
    simp at hstatus

/-- A request is answered with no internal error on a reachable store. -/
theorem respond_ne_internal (hs : s.Reachable) (now : Moment) (request : Request) :
    (respond now ⟨some s⟩ request).1.status ≠ 500 := by
  cases hasked : request.operation? now.date with
  | some operation =>
    rw [(respond_eq hasked).1]
    exact perform_ne_internal hs (isServed_of_operation? hasked)
  | none =>
    have hroute : (route now ⟨some s⟩ request).1.status ≠ 500 := route_ne_internal_of_none hasked
    unfold respond
    split
    · simp [Response.bare]
    · exact hroute
    · exact hroute

/-- Where the engine serves them, requests in turn are answered with no internal error. -/
theorem respondAll_ne_internal (hs : s.Reachable) {requests : List (Moment × Request)}
    (h : ServesAll engine s requests) :
    ∀ response ∈ respondAll engine s requests, response.status ≠ 500 := by
  -- each request finds a reachable store, so the invariant is that of the store
  induction requests generalizing s with
  | nil => exact fun response hresponse => absurd hresponse List.not_mem_nil
  | cons entry rest ih =>
    obtain ⟨now, request⟩ := entry
    obtain ⟨hserved, hrest⟩ := h
    have hresponse := respond_ne_internal hs now request
    rw [respondOn_eq hs hserved] at hresponse
    exact List.forall_mem_cons.mpr ⟨hresponse, ih (reachable_respondOn hs hserved) hrest⟩

/-- What stops an operation on a reachable store is a refusal by its own checks, or a statement that
the engine fails. -/
theorem fault_cases (hs : s.Reachable) {fault : Guarded.Fault}
    (h : Guarded.run engine now s operation = .error fault) :
    (∃ failure, fault = .refused failure ∧ failure.kind ≠ .unavailable) ∨
      ∃ message, fault = .engine message ∧ engine.Fails now s operation message := by
  rcases Guarded.Script.on_eq_error h with hengine | houtcome
  · exact .inr hengine
  rw [Guarded.outcome_script hs] at houtcome
  obtain ⟨failure, hfailure, rfl⟩ := mapError_eq_error_iff.mp houtcome
  obtain ⟨hwrong, -⟩ := Store.isRefusal_of_run hs.invariants.1 hfailure
  refine .inl ⟨failure, rfl, fun hkind => ?_⟩
  rw [hkind] at hwrong
  exact hwrong

/-- No internal error is reachable but through the engine that keeps the tables. On a reachable store
no statement of an operation breaks a constraint: where the engine carries out the statements, the
operation comes out as by its own checks. An error is the engine's own, at a statement that it was
sent, or what the checks refuse, and that is criteria that do not compile or has a message with a
word of a status, whatever names, ids and values are registered or stated. And no request in a
sequence, whatever the requests hold, gets a response of status 500. The last assumes of the engine
that it carries out the statements that are sent to answer the requests. -/
theorem no_internal_error (engine : Guarded.Engine) (hs : s.Reachable) :
    (∀ now operation, engine.CarriesOut now s operation →
      Guarded.run engine now s operation = Guarded.checked (s.run now operation)) ∧
    (∀ now operation fault, Guarded.run engine now s operation = .error fault →
      (∃ failure, fault = .refused failure ∧ (Response.ofFault fault).status ≠ 500 ∧
        ((∃ e, failure = .criteria e) ∨
          ∃ word ∈ statusWords, contains failure.message word = true)) ∨
      ∃ message, fault = .engine message ∧ engine.Fails now s operation message) ∧
    ∀ requests, ServesAll engine s requests →
      ∀ response ∈ respondAll engine s requests, response.status ≠ 500 := by
  refine ⟨fun now operation h => Guarded.run_eq hs h, ?_, fun requests h =>
    respondAll_ne_internal hs h⟩
  intro now operation fault h
  rcases fault_cases hs h with ⟨failure, rfl, hkind⟩ | hengine
  · exact .inl ⟨failure, rfl, fun hinternal => hkind (status_ofFailure_eq_internal_iff.mp hinternal),
      exists_statusWord hkind⟩
  · exact .inr hengine

/-- An attribute named `not found` is registered and asked for again, on an engine that holds rows of
up to a billion bytes: the repetition is refused by a check, before the constraint of the table, and
the requests get no internal error. -/
theorem repeated_attribute_refused :
    (attributeStore "not found").Reachable ∧
      Guarded.run (.limited 1000000000) Store.exampleMoment (attributeStore "not found")
          (.createFlexAttribute (Store.idAfter 0) (attributeNamed "not found")) =
        .error (.refused (.fieldNameTaken "not found")) ∧
      (Response.ofFault (.refused (.fieldNameTaken "not found"))).status ≠ 500 ∧
      (Response.ofFault (.duplicate .flexAttributes .name)).status = 500 ∧
      ∀ response ∈ respondAll (.limited 1000000000) (attributeStore "not found")
          [(Store.exampleMoment, attributeRequest "not found"),
            (Store.exampleMoment, attributeRequest "district")],
        response.status ≠ 500 := by
  have hs := attributeStore_reachable "not found"
  obtain ⟨hrun, hfault, hresponses⟩ := no_internal_error (.limited 1000000000) hs
  have hcarried : ∀ name ∈ ["district", "not found"],
      (Guarded.Engine.limited 1000000000).CarriesOut Store.exampleMoment (attributeStore "not found")
        (.createFlexAttribute (Store.idAfter 0) (attributeNamed name)) := by
    unfold Guarded.Engine.CarriesOut
    decide +kernel
  have hserved : ∀ name ∈ ["district", "not found"],
      Serves (.limited 1000000000) Store.exampleMoment (attributeStore "not found")
        (attributeRequest name) := by
    intro name hname operation hoperation asked hasked
    obtain rfl := Option.some.inj ((attributeRequest_operation? hname).symm.trans hoperation)
    obtain rfl := List.mem_singleton.mp hasked
    exact hcarried name hname
  have hrefused : (attributeStore "not found").run Store.exampleMoment
      (.createFlexAttribute (Store.idAfter 0) (attributeNamed "not found")) =
        .error (.fieldNameTaken "not found") := by
    cbv
  have hguarded := hrun Store.exampleMoment _ (hcarried "not found" (by decide))
  rw [hrefused] at hguarded
  have hkept : (respondOn (.limited 1000000000) Store.exampleMoment (attributeStore "not found")
      (attributeRequest "not found")).2 = attributeStore "not found" := by
    simp only [respondOn, attributeRequest_operation? (by decide : "not found" ∈ _), performOn,
      answerOn, hguarded]
    rfl
  refine ⟨hs, hguarded, ?_, by decide, hresponses _ ⟨hserved _ (by decide), ?_⟩⟩
  · rcases hfault _ _ _ hguarded with ⟨failure, -, hstatus, -⟩ | ⟨message, heq, -⟩
    · exact hstatus
    · cases heq
  · rw [hkept]
    exact ⟨hserved _ (by decide), trivial⟩

/-- What no engine assumption covers: on an engine with a limit on the length of a row, a round that
passes its checks is answered with an internal error when the row of the individual grows too long
with it. -/
theorem oversized_round_internal {limit : Nat} {id : Uuid} {input : NewRoundValue}
    {individual : Individual} (hs : s.Reachable)
    (hasked : request.operation? now.date = some (.recordRound id input))
    (hfound : s.individual? id = some individual)
    (hround : s.checkRound individual input.field input.round = .ok ())
    (hsize : limit < Guarded.Row.size
      (.individual { individual with flexFields := input.addTo individual.flexFields })) :
    (respondOn (.limited limit) now s request).1.status = 500 := by
  obtain ⟨hkeyed, hpopulated⟩ := hs.invariants
  have hrun : Guarded.run (.limited limit) now s (.recordRound id input) =
      .error (.engine "string or blob too big") :=
    Guarded.run_limited (Guarded.update_mem_sent hkeyed hpopulated hfound hround)
      (List.mem_singleton_self _) hsize
  have hstatus : (Response.ofFault (.engine "string or blob too big")).status = 500 := by decide
  simp only [respondOn, hasked, performOn, answerOn, hrun]
  split <;> exact hstatus

end Beneficiary.Http
