import Beneficiary.Store.Basic
import Beneficiary.Wire.Field
import Beneficiary.Wire.Registry

/-!
# Stores on the wire

The JSON form of a whole store, by which it is kept between runs: the number of identifiers that
the usual source has handed out, and the rows of each table in order of creation.
-/

namespace Beneficiary

open Json (Decoder)
open Json.Decoder.Record

namespace Store

/-- The store as JSON. -/
def toJson (s : Store) : Json :=
  .object
    [ ("issued", .ofNat s.issued),
      ("programs", .ofList Program.toJson s.programs),
      ("flex_attributes", .ofList FlexAttribute.toJson s.flexAttributes),
      ("periodic_fields", .ofList PeriodicField.toJson s.periodicFields),
      ("households", .ofList Household.toJson s.households),
      ("individuals", .ofList Individual.toJson s.individuals) ]

/-- Reads a store. -/
def decoder : Decoder Store :=
  .record <|
    mk .counting <$> required "issued" .count
      <*> required "programs" (.list Program.decoder)
      <*> required "flex_attributes" (.list FlexAttribute.decoder)
      <*> required "periodic_fields" (.list PeriodicField.decoder)
      <*> required "households" (.list Household.decoder)
      <*> required "individuals" (.list Individual.decoder)

end Store

end Beneficiary
