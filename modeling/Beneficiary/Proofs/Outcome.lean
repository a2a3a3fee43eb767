import Mathlib
import Beneficiary.Store.Failure

/-!
# Outcomes

Checks and computations that can fail are run one after the other. How a sequence of them succeeds
or fails is read off its first step.
-/

namespace Beneficiary

variable {ε ε' α β : Type}

/-- Two steps succeed exactly when the first does and the second does on its result. -/
theorem bind_eq_ok_iff {step : Except ε α} {next : α → Except ε β} {b : β} :
    step >>= next = .ok b ↔ ∃ a, step = .ok a ∧ next a = .ok b := by
  cases step with
  | error e => simp [bind, Except.bind]
  | ok a => simp [bind, Except.bind]

/-- Two steps fail exactly when the first does, or the second does on the result of the first. -/
theorem bind_eq_error_iff {step : Except ε α} {next : α → Except ε β} {e : ε} :
    step >>= next = .error e ↔ step = .error e ∨ ∃ a, step = .ok a ∧ next a = .error e := by
  cases step with
  | error e => simp [bind, Except.bind]
  | ok a => simp [bind, Except.bind]

/-- A check and a step after it succeed exactly when both do. -/
theorem check_bind_eq_ok_iff {check : Except ε Unit} {next : Unit → Except ε β} {b : β} :
    check >>= next = .ok b ↔ check = .ok () ∧ next () = .ok b := by
  cases check with
  | error e => simp [bind, Except.bind]
  | ok u => simp [bind, Except.bind]

/-- A check and a step after it fail exactly when the check does, or the step does after it. -/
theorem check_bind_eq_error_iff {check : Except ε Unit} {next : Unit → Except ε β} {e : ε} :
    check >>= next = .error e ↔ check = .error e ∨ check = .ok () ∧ next () = .error e := by
  cases check with
  | error e => simp [bind, Except.bind]
  | ok u => simp [bind, Except.bind]

/-- A mapped step succeeds exactly when the step does. -/
theorem map_eq_ok_iff {step : Except ε α} {f : α → β} {b : β} :
    step.map f = .ok b ↔ ∃ a, step = .ok a ∧ f a = b := by
  cases step <;> simp [Except.map]

/-- A mapped step fails exactly as the step does. -/
theorem map_eq_error_iff {step : Except ε α} {f : α → β} {e : ε} :
    step.map f = .error e ↔ step = .error e := by
  cases step <;> simp [Except.map]

/-- A step with its errors placed succeeds exactly as the step does. -/
theorem mapError_eq_ok_iff {step : Except ε α} {f : ε → ε'} {a : α} :
    step.mapError f = .ok a ↔ step = .ok a := by
  cases step <;> simp [Except.mapError]

/-- A step with its errors placed fails exactly when the step does. -/
theorem mapError_eq_error_iff {step : Except ε α} {f : ε → ε'} {e' : ε'} :
    step.mapError f = .error e' ↔ ∃ e, step = .error e ∧ f e = e' := by
  cases step <;> simp [Except.mapError]

/-- The result of a step is what it succeeds with. -/
theorem toOption_eq_some_iff {step : Except ε α} {a : α} :
    step.toOption = some a ↔ step = .ok a := by
  cases step <;> simp [Except.toOption]

/-- A required condition holds whenever the requirement passes. -/
theorem require_eq_ok_iff {condition : Bool} {failure : Failure} {u : Unit} :
    require condition failure = .ok u ↔ condition = true := by
  cases condition <;> simp [require]

/-- A requirement fails exactly when its condition does not hold, and as it states. -/
theorem require_eq_error_iff {condition : Bool} {failure failure' : Failure} :
    require condition failure = .error failure' ↔ condition = false ∧ failure = failure' := by
  cases condition <;> simp [require]

end Beneficiary
