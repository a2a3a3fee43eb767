import Beneficiary.Criteria.Error
import Beneficiary.Targeting.Selection
import Beneficiary.Wire.Scalar

/-!
# Criteria on the wire

The JSON form of criteria, exclusions and requests, and of the errors and outcomes that answer
them. Everything but the names of a condition may be left out of a request.
-/

namespace Beneficiary

open Json (Decoder)
open Json.Decoder.Record

namespace Condition

/-- The condition as JSON. -/
def toJson (c : Condition) : Json :=
  .object
    [ ("fieldName", .string c.field),
      ("flexFieldClassification", c.classification.toJson),
      ("roundNumber", .ofOption .ofUInt32 c.round),
      ("comparisonMethod", c.method.toJson),
      ("arguments", .ofStrings c.arguments) ]

/-- Reads a condition. -/
def decoder : Decoder Condition :=
  .record <|
    mk <$> required "fieldName" .string
      <*> required "flexFieldClassification" FieldClassification.decoder
      <*> optional "roundNumber" .uint32
      <*> required "comparisonMethod" ComparisonMethod.decoder
      <*> defaulted "arguments" (.list .string) []

end Condition

namespace Block

/-- The block as JSON. -/
def toJson (b : Block) : Json :=
  .object
    [ ("targetOnlyHeadOfHousehold", .bool b.headOnly),
      ("filters", .ofList Condition.toJson b.filters) ]

/-- Reads a block. -/
def decoder : Decoder Block :=
  .record <|
    mk <$> defaulted "targetOnlyHeadOfHousehold" .bool false
      <*> defaulted "filters" (.list Condition.decoder) []

end Block

namespace Rule

/-- The rule as JSON. -/
def toJson (r : Rule) : Json :=
  .object
    [ ("householdFilters", .ofList Condition.toJson r.householdFilters),
      ("individualsFilterBlocks", .ofList Block.toJson r.blocks) ]

/-- Reads a rule. -/
def decoder : Decoder Rule :=
  .record <|
    mk <$> defaulted "householdFilters" (.list Condition.decoder) []
      <*> defaulted "individualsFilterBlocks" (.list Block.decoder) []

end Rule

namespace Criteria

/-- The criteria as JSON. -/
def toJson (criteria : Criteria) : Json :=
  .object [("rules", .ofList Rule.toJson criteria.rules)]

/-- Reads criteria. -/
def decoder : Decoder Criteria := .record <| mk <$> defaulted "rules" (.list Rule.decoder) []

end Criteria

namespace ExclusionSpec

/-- The exclusions as JSON. -/
def toJson (spec : ExclusionSpec) : Json :=
  .object [("ids", .ofStrings spec.ids), ("programMode", spec.mode.toJson)]

/-- Reads exclusions; they are of households unless stated otherwise. -/
def decoder : Decoder ExclusionSpec :=
  .record <|
    mk <$> defaulted "ids" (.list .string) []
      <*> defaulted "programMode" ProgramMode.decoder .household

end ExclusionSpec

namespace TargetingRequest

/-- The request as JSON. -/
def toJson (request : TargetingRequest) : Json :=
  .object
    [ ("criteria", request.criteria.toJson),
      ("exclusions", .ofOption ExclusionSpec.toJson request.exclusions) ]

/-- Reads a request. -/
def decoder : Decoder TargetingRequest :=
  .record <|
    mk <$> required "criteria" Criteria.decoder
      <*> optional "exclusions" ExclusionSpec.decoder

end TargetingRequest

/-- The place as JSON. -/
def Location.toJson (location : Location) : Json :=
  .object
    [ ("rule", .ofNat location.rule),
      ("block", .ofOption .ofNat location.block),
      ("filter", .ofNat location.filter) ]

/-- The error as JSON, its code, message, place and condition. -/
def CompileError.toJson (e : CompileError) : Json :=
  .object
    [ ("code", .string e.code),
      ("message", .string e.message),
      ("location", e.location.toJson),
      ("condition", e.condition.toJson) ]

/-- The summary as JSON. -/
def TargetingSummary.toJson (summary : TargetingSummary) : Json :=
  .object
    [ ("rules", .ofNat summary.rules),
      ("household_filters", .ofNat summary.householdFilters),
      ("individual_blocks", .ofNat summary.blocks),
      ("excluded_ids", .ofNat summary.excludedIds) ]

/-- The preview as JSON. -/
def TargetingPreview.toJson (preview : TargetingPreview) : Json :=
  .object
    [ ("program_id", preview.programId.toJson),
      ("program_mode", preview.mode.toJson),
      ("as_of", preview.asOf.toJson),
      ("total_candidates", .ofNat preview.totalCandidates),
      ("matched_ids", .ofStrings preview.matchedIds),
      ("excluded_ids", .ofStrings preview.excludedIds) ]

namespace TargetingSummary

/-- Reads a summary. -/
def decoder : Decoder TargetingSummary :=
  .record <|
    mk <$> required "rules" .count
      <*> required "household_filters" .count
      <*> required "individual_blocks" .count
      <*> required "excluded_ids" .count

end TargetingSummary

namespace TargetingPreview

/-- Reads a preview. -/
def decoder : Decoder TargetingPreview :=
  .record <|
    mk <$> required "program_id" Uuid.decoder
      <*> required "program_mode" ProgramMode.decoder
      <*> required "as_of" Date.decoder
      <*> required "total_candidates" .count
      <*> required "matched_ids" (.list .string)
      <*> required "excluded_ids" (.list .string)

end TargetingPreview

end Beneficiary
