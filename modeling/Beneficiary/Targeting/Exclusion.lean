import Beneficiary.Registry.Household
import Beneficiary.Registry.Program
import Beneficiary.Text.Blank

/-!
# Exclusions

An exclusion list names entities that are never selected: households by their registration id, or
in programs of persons the members by theirs. Lists are typed or pasted as free text, so an entry
may hold several ids between separators; each id counts once, in order of first occurrence.
-/

namespace Beneficiary

open Text

/-- Whether a character separates ids in free text. -/
def separatesIds (c : Char) : Bool := c = ',' || c = ';' || isBlank c

/-- Distinct ids without white space at their ends, in order of first occurrence. -/
structure ExclusionSet where
  ids : List String
deriving DecidableEq, Repr

namespace ExclusionSet

/-- The ids of a list, trimmed; empty ones do not count. -/
def ofList (ids : List String) : ExclusionSet :=
  ⟨((ids.map trimmed).filter fun id => !id.isEmpty).eraseDups⟩

/-- The ids of free text. -/
def parse (text : String) : ExclusionSet :=
  ofList ((pieces separatesIds text.toList).map String.ofList)

/-- The number of ids. -/
def size (set : ExclusionSet) : Nat := set.ids.length

/-- Whether there are no ids. -/
def isEmpty (set : ExclusionSet) : Bool := set.ids.isEmpty

end ExclusionSet

/-- Exclusions as stated in a request: entries, each of which may hold several ids. -/
structure ExclusionSpec where
  ids : List String
  mode : ProgramMode
deriving DecidableEq, Repr

/-- What removes excluded records from a selection. -/
structure ExclusionFilter where
  mode : ProgramMode
  set : ExclusionSet
deriving DecidableEq, Repr

namespace ExclusionFilter

/-- The filter of stated exclusions. -/
def ofSpec (spec : ExclusionSpec) : ExclusionFilter :=
  { mode := spec.mode, set := .parse (joined "," spec.ids) }

/-- Whether the household, or in programs of persons one of its members, is listed. -/
def excludes (filter : ExclusionFilter) (record : HouseholdRecord) : Bool :=
  match filter.mode with
  | .household => filter.set.ids.contains record.household.unicefId
  | .person => record.members.any fun member => filter.set.ids.contains member.unicefId

/-- The records that are not excluded. -/
def apply (filter : ExclusionFilter) (records : List HouseholdRecord) : List HouseholdRecord :=
  records.filter fun record => !filter.excludes record

end ExclusionFilter

/-- The records without those that a set excludes in programs of a mode; a set without ids leaves
them as they are. -/
def ExclusionSet.removeFrom (set : ExclusionSet) (mode : ProgramMode)
    (records : List HouseholdRecord) : List HouseholdRecord :=
  if set.isEmpty then records else ExclusionFilter.apply { mode, set } records

end Beneficiary
