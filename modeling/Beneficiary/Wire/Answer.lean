import Beneficiary.Store.Operation
import Beneficiary.Wire.Criteria
import Beneficiary.Wire.Field
import Beneficiary.Wire.Registry

/-!
# Answers on the wire

The JSON form of what a store operation answers; what was not found is `null`.
-/

namespace Beneficiary

/-- The answer as JSON. -/
def Answer.toJson : Answer → Json
  | .program p => .ofOption Program.toJson p
  | .programs ps => .ofList Program.toJson ps
  | .flexAttribute a => a.toJson
  | .flexAttributes as => .ofList FlexAttribute.toJson as
  | .periodicField f => f.toJson
  | .periodicFields fs => .ofList PeriodicField.toJson fs
  | .programFields fields => fields.toJson
  | .descriptors ds => .ofList FieldDescriptor.toJson ds
  | .record r => .ofOption HouseholdRecord.toJson r
  | .records rs => .ofList HouseholdRecord.toJson rs
  | .households hs => .ofList Household.toJson hs
  | .individual i => .ofOption Individual.toJson i
  | .individuals is => .ofList Individual.toJson is
  | .withdrawn found => .bool found
  | .summary s => s.toJson
  | .preview p => p.toJson

end Beneficiary
