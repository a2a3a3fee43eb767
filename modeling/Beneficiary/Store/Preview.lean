import Beneficiary.Store.Catalog
import Beneficiary.Store.Population
import Beneficiary.Targeting.Selection

/-!
# Targeting a program

A request is compiled against the schema of a program and run over its population. Exclusions must
be stated for the mode of the program; none stated are none to apply.
-/

namespace Beneficiary

namespace Store

/-- The exclusions of a request to a program. -/
def exclusionsFor (program : Program) : Option ExclusionSpec → Except Failure ExclusionSpec
  | none => .ok { ids := [], mode := program.mode }
  | some spec =>
    if spec.mode = program.mode then .ok spec else .error (.otherExclusionMode program.mode)

/-- The program and the compiled request. -/
def compileTargeting (s : Store) (programId : Uuid) (request : TargetingRequest) (asOf : Date) :
    Except Failure (Program × Targeting) := do
  let program ← s.requireProgram programId
  let exclusions ← exclusionsFor program request.exclusions
  let schema := s.schemaOf programId
  let targeting ← (Targeting.compile schema.resolve request.criteria exclusions asOf).mapError
    Failure.criteria
  return (program, targeting)

/-- The summary of a request that compiles. -/
def validate (s : Store) (programId : Uuid) (request : TargetingRequest) (asOf : Date) :
    Except Failure TargetingSummary := do
  let (_, targeting) ← s.compileTargeting programId request asOf
  return .of request.criteria targeting

/-- The preview of a request that compiles. -/
def preview (s : Store) (programId : Uuid) (request : TargetingRequest) (asOf : Date) :
    Except Failure TargetingPreview := do
  let (program, targeting) ← s.compileTargeting programId request asOf
  return .of program asOf targeting (s.population programId)

end Store

end Beneficiary
