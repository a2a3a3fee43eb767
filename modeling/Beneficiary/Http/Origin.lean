import Beneficiary.Text.Blank

/-!
# Origins

Which web origins may read the answers of the service: any, or those of a list. The list names
origins one by one; a wildcard is no origin.
-/

namespace Beneficiary.Http

/-- Which origins may read answers. -/
inductive OriginPolicy where
  | any
  | only (origins : List String)
deriving DecidableEq, Repr

namespace OriginPolicy

/-- Whether a text can stand in a header. -/
def isHeaderText (s : String) : Bool :=
  s.toList.all fun c => (32 ≤ c.toNat && c.toNat != 127) || c = '\t'

/-- The policy of a list of origins, of which those that cannot stand in a header do not count;
any origin when there is no list. A list with a wildcard gives no policy. -/
def ofOrigins? : Option (List String) → Option OriginPolicy
  | none => some any
  | some origins =>
    let usable := origins.filter isHeaderText
    if usable.contains "*" then none else some (only usable)

/-- The origin that an answer to a request from an origin names as allowed. -/
def allowed (policy : OriginPolicy) (origin : Option String) : Option String :=
  match policy with
  | any => some "*"
  | only origins => origin.filter origins.contains

end OriginPolicy

end Beneficiary.Http
