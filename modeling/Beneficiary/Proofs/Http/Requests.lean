import Beneficiary.Http.Service
import Beneficiary.Proofs.Outcome

/-!
# What requests ask for

A request is refused, asks whether the service is up, or asks the store for one operation. In the
last case the response is the one to the operation, without its body when only the head is asked
for; in the others the database is not reached.
-/

namespace Beneficiary.Http

/-- What a task asks of the store. -/
def Task.operation? : Task → Option Operation
  | .health => none
  | .operation asked => some asked

/-- The operation that a request asks for on a day, none when it does not reach the store. -/
def Request.operation? (request : Request) (today : Date) : Option Operation := do
  let endpoint ← Endpoint.ofSegments? request.segments
  let task ← endpoint.task? request today
  let asked ← task.toOption
  asked.operation?

/-- A request asks for an operation exactly when the endpoint that its path addresses does. -/
theorem operation?_eq_some_iff {request : Request} {today : Date} {operation : Operation} :
    request.operation? today = some operation ↔
      ∃ endpoint, Endpoint.ofSegments? request.segments = some endpoint ∧
        endpoint.task? request today = some (.ok (.operation operation)) := by
  simp only [Request.operation?, Option.bind_eq_bind, Option.bind_eq_some_iff,
    toOption_eq_some_iff]
  constructor
  · rintro ⟨endpoint, hendpoint, task, htask, asked, rfl, hasked⟩
    cases asked with
    | health => cases hasked
    | operation asked =>
      cases hasked
      exact ⟨endpoint, hendpoint, htask⟩
  · rintro ⟨endpoint, hendpoint, htask⟩
    exact ⟨endpoint, hendpoint, _, htask, _, rfl, rfl⟩

namespace Endpoint

variable {segment : List Char} {operation : Operation}

/-- An operation on what the path names is made of the identifier there. -/
theorem onId_eq_some_iff {make : Uuid → Operation} :
    onId segment make = some (.ok (.operation operation)) ↔
      ∃ id, Request.identifier segment = .ok id ∧ make id = operation := by
  simp only [onId, Option.some.injEq, map_eq_ok_iff, Task.operation.injEq]

/-- An operation with a body is made of the identifier in the path and of the body. -/
theorem onIdWith_eq_some_iff {α : Type} {request : Request} {decoder : Json.Decoder α}
    {make : Uuid → α → Operation} :
    onIdWith request segment decoder make = some (.ok (.operation operation)) ↔
      ∃ id input, Request.identifier segment = .ok id ∧ request.read decoder = .ok input ∧
        make id input = operation := by
  simp only [onIdWith, Option.some.injEq, bind_eq_ok_iff, pure, Except.pure, Except.ok.injEq,
    Task.operation.injEq, exists_and_left]

/-- Targeting is made of the identifier in the path, of the reference date, and of the body. -/
theorem onTarget_eq_some_iff {request : Request} {today : Date}
    {make : Uuid → TargetingRequest → Date → Operation} :
    onTarget request today segment make = some (.ok (.operation operation)) ↔
      ∃ id asOf input, Request.identifier segment = .ok id ∧
        request.referenceDate today = .ok asOf ∧
        request.read TargetingRequest.decoder = .ok input ∧
        make id input asOf = operation := by
  simp only [onTarget, Option.some.injEq, bind_eq_ok_iff, pure, Except.pure, Except.ok.injEq,
    Task.operation.injEq, exists_and_left]

/-- An endpoint that is read is asked for what is registered under its path. -/
theorem readTask?_cases {endpoint : Endpoint}
    (h : endpoint.readTask? = some (.ok (.operation operation))) :
    operation = .getPrograms ∨
      ∃ make ∈ [Operation.getProgram, .getFieldDescriptors, .getHouseholds, .getHousehold],
        ∃ id, operation = make id := by
  cases endpoint with
  | programs =>
    cases h
    exact .inl rfl
  | program =>
    obtain ⟨id, -, rfl⟩ := onId_eq_some_iff.mp h
    exact .inr ⟨_, by simp, id, rfl⟩
  | fields =>
    obtain ⟨id, -, rfl⟩ := onId_eq_some_iff.mp h
    exact .inr ⟨_, by simp, id, rfl⟩
  | households =>
    obtain ⟨id, -, rfl⟩ := onId_eq_some_iff.mp h
    exact .inr ⟨_, by simp, id, rfl⟩
  | household =>
    obtain ⟨id, -, rfl⟩ := onId_eq_some_iff.mp h
    exact .inr ⟨_, by simp, id, rfl⟩
  | _ => cases h

end Endpoint

variable {now : Moment} {db : Database} {request : Request} {operation : Operation}

/-- A request for an operation is routed to it. -/
theorem route_eq (h : request.operation? now.date = some operation) :
    route now db request = perform now db operation := by
  obtain ⟨endpoint, hendpoint, htask⟩ := operation?_eq_some_iff.mp h
  simp only [route, hendpoint, htask, carryOut]

/-- A request that does not reach the store is routed past the database. -/
theorem route_of_none (h : request.operation? now.date = none) : (route now db request).2 = db := by
  unfold route
  split
  · rfl
  · next endpoint hendpoint =>
    split
    · rfl
    · next task htask =>
      match task with
      | .error refusal => rfl
      | .ok .health => rfl
      | .ok (.operation asked) =>
        rw [operation?_eq_some_iff.mpr ⟨endpoint, hendpoint, htask⟩] at h
        cases h

/-- Options ask for no operation. -/
theorem operation?_of_options {today : Date} (h : request.method = .options) :
    request.operation? today = none := by
  unfold Request.operation?
  cases Endpoint.ofSegments? request.segments with
  | none => rfl
  | some endpoint => simp [Endpoint.task?, h]

/-- A request for an operation has the status of its response, and leaves the database that the
operation does. -/
theorem respond_eq (h : request.operation? now.date = some operation) :
    (respond now db request).1.status = (perform now db operation).1.status ∧
      (respond now db request).2 = (perform now db operation).2 := by
  unfold respond
  split
  · next hoptions =>
    rw [operation?_of_options hoptions] at h
    cases h
  · rw [route_eq h]
    exact ⟨rfl, rfl⟩
  · rw [route_eq h]
    exact ⟨rfl, rfl⟩

/-- A request that does not reach the store leaves the database. -/
theorem respond_of_none (h : request.operation? now.date = none) :
    (respond now db request).2 = db := by
  unfold respond
  split
  · rfl
  · exact route_of_none h
  · exact route_of_none h

end Beneficiary.Http
