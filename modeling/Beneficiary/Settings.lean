import Beneficiary.Text.Blank
import Beneficiary.Text.Numeral

/-!
# Settings

The settings of the service come from named variables. A blank or unusable value counts as absent
and gives way to its default.
-/

namespace Beneficiary

open Text

/-- Where the service keeps its data and how it is reached. -/
structure Settings where
  /-- The database file; the default one of the platform when there is none. -/
  databasePath : Option String
  host : String
  port : UInt16
  /-- The origins that may read answers; any when there is no list. -/
  origins : Option (List String)
deriving DecidableEq, Repr

namespace Settings

/-- The settings when no variable is set. -/
def standard : Settings :=
  { databasePath := none, host := "127.0.0.1", port := 3000, origins := none }

/-- The port that a text denotes, white space at its ends aside. -/
def port? (s : String) : Option UInt16 :=
  ((unsigned? (trim s.toList)).filter (· < 65536)).map UInt16.ofNat

/-- The origins of a list with commas; a list without any counts as absent. -/
def origins? (s : String) : Option (List String) :=
  let listed := ((pieces (· == ',') s.toList).map fun piece => String.ofList (trim piece)).filter
    fun origin => !origin.isEmpty
  if listed.isEmpty then none else some listed

/-- The settings of named variables. -/
def ofLookup (lookup : String → Option String) : Settings :=
  let nonBlank (name : String) := (lookup name).filter fun s => !isBlankText s
  { databasePath := nonBlank "TARGETING_DB_PATH"
    host := (nonBlank "TARGETING_HOST").getD standard.host
    port := ((lookup "TARGETING_PORT").bind port?).getD standard.port
    origins := (lookup "TARGETING_CORS_ORIGINS").bind origins? }

/-- The address at which the service listens. -/
def address (settings : Settings) : String :=
  settings.host ++ ":" ++ decimalText settings.port.toNat

end Settings

end Beneficiary
