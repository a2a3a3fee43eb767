import Beneficiary.Criteria.Compilation
import Beneficiary.Targeting.Exclusion

/-!
# Targeting

A request states criteria and possibly exclusions. Compiled, it splits the records that its rules
qualify into selected and excluded ones. A summary counts what a request states; a preview lists
the ids that it selects from a population.
-/

namespace Beneficiary

/-- Criteria with the exclusions to apply to their result. -/
structure TargetingRequest where
  criteria : Criteria
  exclusions : Option ExclusionSpec
deriving DecidableEq, Repr

/-- A compiled request. -/
structure Targeting where
  predicate : Predicate
  exclusions : ExclusionFilter

namespace Targeting

/-- Compiles criteria and exclusions, ages counted on a reference date. -/
def compile (resolve : Resolver) (criteria : Criteria) (exclusions : ExclusionSpec)
    (asOf : Date) : Except CompileError Targeting :=
  (criteria.compile resolve asOf).map fun predicate =>
    { predicate, exclusions := .ofSpec exclusions }

/-- Whether the rules qualify a record, exclusions aside. -/
def qualifies (targeting : Targeting) (record : HouseholdRecord) : Bool :=
  targeting.predicate.holds record

/-- Whether a record is selected. -/
def selects (targeting : Targeting) (record : HouseholdRecord) : Bool :=
  targeting.qualifies record && !targeting.exclusions.excludes record

/-- The selected records. -/
def select (targeting : Targeting) (records : List HouseholdRecord) : List HouseholdRecord :=
  records.filter targeting.selects

/-- The qualified records, split into selected and excluded ones. -/
def partition (targeting : Targeting) (records : List HouseholdRecord) :
    List HouseholdRecord × List HouseholdRecord :=
  (records.filter targeting.qualifies).partition fun record =>
    !targeting.exclusions.excludes record

end Targeting

/-- What a request states, in numbers. -/
structure TargetingSummary where
  rules : Nat
  householdFilters : Nat
  blocks : Nat
  excludedIds : Nat
deriving DecidableEq, Repr

/-- The numbers of criteria, and of the distinct ids to exclude. -/
def TargetingSummary.of (criteria : Criteria) (targeting : Targeting) : TargetingSummary :=
  { rules := criteria.rules.length
    householdFilters := (criteria.rules.flatMap Rule.householdFilters).length
    blocks := (criteria.rules.flatMap Rule.blocks).length
    excludedIds := targeting.exclusions.set.size }

/-- The outcome of a request on a population. -/
structure TargetingPreview where
  programId : Uuid
  mode : ProgramMode
  asOf : Date
  totalCandidates : Nat
  matchedIds : List String
  excludedIds : List String
deriving DecidableEq, Repr

/-- The ids by which a record is targeted: the household's, or in programs of persons those of its
current members. -/
def HouseholdRecord.targetIds (record : HouseholdRecord) : ProgramMode → List String
  | .household => [record.household.unicefId]
  | .person =>
    (record.members.filter fun member => !member.withdrawn).map fun member => member.unicefId

/-- The preview of a compiled request on a program's population. -/
def TargetingPreview.of (program : Program) (asOf : Date) (targeting : Targeting)
    (population : List HouseholdRecord) : TargetingPreview :=
  let (selected, excluded) := targeting.partition population
  { programId := program.id
    mode := program.mode
    asOf
    totalCandidates := population.length
    matchedIds := selected.flatMap fun record => record.targetIds program.mode
    excludedIds := excluded.flatMap fun record => record.targetIds program.mode }

end Beneficiary
