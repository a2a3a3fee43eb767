import Beneficiary.Calendar.Moment
import Beneficiary.Uuid

/-!
# Programs

A program registers either families or single people. In a program of persons each household wraps
exactly one individual.
-/

namespace Beneficiary

/-- What a program registers and targets. -/
inductive ProgramMode where
  | household
  | person
deriving DecidableEq, Repr

namespace ProgramMode

/-- The written name. -/
def text : ProgramMode → String
  | household => "HOUSEHOLD"
  | person => "PERSON"

/-- The mode of a written name. -/
def ofText? : String → Option ProgramMode
  | "HOUSEHOLD" => some household
  | "PERSON" => some person
  | _ => none

end ProgramMode

/-- A beneficiary program of one business area. -/
structure Program where
  id : Uuid
  name : String
  businessArea : String
  mode : ProgramMode
  createdAt : Moment
deriving DecidableEq, Repr

/-- What is stated to set up a program; it registers households unless stated otherwise. -/
structure NewProgram where
  name : String
  businessArea : String
  mode : Option ProgramMode
deriving DecidableEq, Repr

end Beneficiary
