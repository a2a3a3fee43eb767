import Mathlib
import Beneficiary.Proofs.Calendar.Dates
import Beneficiary.Proofs.Json.Decoding
import Beneficiary.Store.Registration

/-!
# Rows of households and individuals

An entity is kept as a row of columns: dates and lists are texts, the attributes are one JSON text,
and identifiers and moments stand for themselves. A row is read back by the places of its columns.
A text that cannot be read gives no date, no items and no attributes, without a word about it; so
what an entity loses in its row is told by the texts alone. Dates and lists of options are read back
whatever they are, and attributes when they fit the depth limit and their numbers are legible.
-/

namespace Beneficiary

namespace Json

/-- What a JSON text holds, or the default when it cannot be read. -/
def readOr {α : Type} (decode : Decoder α) (default : α) (text : String) : α :=
  match decodeText decode text with
  | .ok value => value
  | .error _ => default

/-- A list of options is read back from its text. -/
theorem readOr_ofStrings (items : List String) :
    readOr (Decoder.list Decoder.string) [] (ofStrings items).compact = items := by
  have hfits : (ofStrings items).FitsIn depthLimit := by
    refine fitsIn_array fun item hitem => ?_
    obtain ⟨s, -, rfl⟩ := List.mem_map.mp hitem
    exact fitsIn_string _ s
  have hread : decodeValue (Decoder.list Decoder.string) (ofStrings items) = .ok items :=
    Decoder.reads_list Decoder.reads_string items (ofStrings items) (.inl rfl)
  rw [readOr, decodeText_compact_of_fits _ hfits, hread]

namespace Fields

variable {fields : Fields}

/-- The attributes fit the depth limit and their numbers are legible. -/
def IsLegible (fields : Fields) : Prop := fields.toJson.FitsIn depthLimit

/-- Attributes with legible numbers are read back from their text when they fit the depth limit, and
otherwise all of them are lost. -/
theorem reread_eq (h : fields.toJson.keepsNumbers = true) :
    fields.reread = if fields.toJson.depth ≤ depthLimit then fields else .empty := by
  have hread : decodeText Decoder.fields fields.toJson.compact =
      if fields.toJson.depth ≤ depthLimit then .ok fields else .error .malformed := by
    rw [decodeText_compact Decoder.fields h, toJson, sourceAt, atDepth, if_neg (by decide),
      Decoder.fields, Decoder.valueFields_fieldSourcesAt, depth]
    by_cases hfits : fieldsDepth fields.entries ≤ depthLimit - 1
    · rw [if_pos hfits, if_pos (show _ ≤ depthLimit by unfold depthLimit at *; omega)]
      exact congrArg Except.ok (of_entries fields)
    · rw [if_neg hfits, if_neg (show ¬ _ ≤ depthLimit by unfold depthLimit at *; omega)]
      rfl
  rw [reread, hread]
  by_cases hfits : fields.toJson.depth ≤ depthLimit
  · rw [if_pos hfits, if_pos hfits]
  · rw [if_neg hfits, if_neg hfits]

/-- No attributes are legible. -/
theorem isLegible_empty : IsLegible .empty := ⟨by decide, rfl⟩

/-- Legible attributes are read back from their text. -/
theorem IsLegible.reread_eq_self (h : fields.IsLegible) : fields.reread = fields := by
  rw [reread_eq h.keepsNumbers, if_pos h.depth_le]

/-- Attributes that nest too deep are lost. -/
theorem reread_eq_empty (h : fields.toJson.keepsNumbers = true)
    (hdeep : depthLimit < fields.toJson.depth) : fields.reread = .empty := by
  rw [reread_eq h, if_neg (not_le.mpr hdeep)]

end Fields

end Json

/-- A household with legible attributes is kept as it is. -/
theorem Household.stored_eq_self {household : Household} (h : household.flexFields.IsLegible) :
    household.stored = household := by
  rw [stored, h.reread_eq_self]

/-- An individual is kept as it is exactly when its attributes are read back from their text. -/
theorem Individual.stored_eq_self_iff {individual : Individual} :
    individual.stored = individual ↔ individual.flexFields.reread = individual.flexFields := by
  constructor
  · exact congrArg flexFields
  · intro h
    rw [stored, h]

/-- An individual with legible attributes is kept as it is. -/
theorem Individual.stored_eq_self {individual : Individual} (h : individual.flexFields.IsLegible) :
    individual.stored = individual :=
  stored_eq_self_iff.mpr h.reread_eq_self

/-- A value in a column. -/
inductive Cell where
  | null
  | id (value : Uuid)
  | moment (value : Moment)
  | integer (value : Int64)
  | truth (value : Bool)
  | text (value : String)

namespace Cell

variable {α : Type}

/-- An optional value, which is null when absent. -/
def ofOption (write : α → Cell) : Option α → Cell
  | none => .null
  | some value => write value

/-- The date as its text. -/
def ofDate (date : Date) : Cell := .text date.text

/-- The value as its JSON text. -/
def ofJson (value : Json) : Cell := .text value.compact

/-- The identifier in a column. -/
def id? : Cell → Option Uuid
  | .id value => some value
  | _ => none

/-- The moment in a column. -/
def moment? : Cell → Option Moment
  | .moment value => some value
  | _ => none

/-- The integer in a column. -/
def integer? : Cell → Option Int64
  | .integer value => some value
  | _ => none

/-- The truth value in a column. -/
def truth? : Cell → Option Bool
  | .truth value => some value
  | _ => none

/-- The text in a column. -/
def text? : Cell → Option String
  | .text value => some value
  | _ => none

/-- A column that may be null. -/
def nullable? (read : Cell → Option α) : Cell → Option (Option α)
  | .null => some none
  | cell => (read cell).map some

/-- A column with a date, which is none when its text cannot be read. -/
def date? (cell : Cell) : Option (Option Date) :=
  (nullable? text? cell).map fun text => text.bind fun s => Date.ofPlain? s.toList

/-- A column with a JSON text, and the default when it cannot be read. -/
def json? (decode : Json.Decoder α) (default : α) (cell : Cell) : Option α :=
  cell.text?.map (Json.readOr decode default)

/-- An optional value is read back when its values are. -/
theorem nullable?_ofOption {read : Cell → Option α} {write : α → Cell} (hnull : read .null = none)
    (hread : ∀ value, read (write value) = some value) (value : Option α) :
    nullable? read (ofOption write value) = some value := by
  cases value with
  | none => rfl
  | some a =>
    have ha := hread a
    rw [ofOption]
    unfold nullable?
    split
    · next hcell => rw [hcell, hnull] at ha; cases ha
    · rw [ha, Option.map_some]

/-- An optional identifier is read back from its column. -/
theorem nullable?_id (value : Option Uuid) : nullable? id? (ofOption .id value) = some value :=
  nullable?_ofOption (by rfl) (by exact fun _ => rfl) value

/-- An optional integer is read back from its column. -/
theorem nullable?_integer (value : Option Int64) :
    nullable? integer? (ofOption .integer value) = some value :=
  nullable?_ofOption (by rfl) (by exact fun _ => rfl) value

/-- An optional truth value is read back from its column. -/
theorem nullable?_truth (value : Option Bool) :
    nullable? truth? (ofOption .truth value) = some value :=
  nullable?_ofOption (by rfl) (by exact fun _ => rfl) value

/-- An optional text is read back from its column. -/
theorem nullable?_text (value : Option String) :
    nullable? text? (ofOption .text value) = some value :=
  nullable?_ofOption (by rfl) (by exact fun _ => rfl) value

/-- A date is read back from its column. -/
theorem date?_ofOption (date : Option Date) : date? (ofOption ofDate date) = some date := by
  have htext : ofOption ofDate date = ofOption .text (date.map Date.text) := by
    cases date <;> rfl
  rw [date?, htext, nullable?_text, Option.map_some]
  cases date with
  | none => rfl
  | some d =>
    rw [Option.map_some, Option.bind_some, Date.text, String.toList_ofList, d.ofPlain?_toChars]

/-- A list of options is read back from its column. -/
theorem json?_ofStrings (items : List String) :
    json? (.list .string) [] (ofJson (.ofStrings items)) = some items := by
  rw [ofJson, json?, text?, Option.map_some, Json.readOr_ofStrings]

/-- Attributes are read back from their column as from their text. -/
theorem json?_fields (fields : Json.Fields) :
    json? .fields .empty (ofJson fields.toJson) = some fields.reread := by
  rw [ofJson, json?, text?, Option.map_some, Json.readOr, Json.Fields.reread]
  cases Json.decodeText Json.Decoder.fields fields.toJson.compact <;> rfl

end Cell

namespace Household

open Cell

/-- The columns of a household. -/
def row (household : Household) : List Cell :=
  [ .id household.id,
    .id household.programId,
    .text household.unicefId,
    .ofOption .id household.headId,
    .ofOption .integer household.size,
    .ofOption .text household.residenceStatus,
    .ofOption .text household.admin1,
    .ofOption .text household.admin2,
    .ofOption .text household.village,
    .ofOption .text household.address,
    .ofOption .ofDate household.firstRegistrationDate,
    .ofOption .truth household.returnee,
    .ofJson (.ofStrings household.consentSharing),
    .ofJson household.flexFields.toJson,
    .truth household.withdrawn,
    .moment household.createdAt ]

/-- The household of a row, unless a column is missing or holds a value of another kind. -/
def ofRow? (row : List Cell) : Option Household := do
  return {
    id := ← row[0]?.bind id?
    programId := ← row[1]?.bind id?
    unicefId := ← row[2]?.bind text?
    headId := ← row[3]?.bind (nullable? id?)
    size := ← row[4]?.bind (nullable? integer?)
    residenceStatus := ← row[5]?.bind (nullable? text?)
    admin1 := ← row[6]?.bind (nullable? text?)
    admin2 := ← row[7]?.bind (nullable? text?)
    village := ← row[8]?.bind (nullable? text?)
    address := ← row[9]?.bind (nullable? text?)
    firstRegistrationDate := ← row[10]?.bind date?
    returnee := ← row[11]?.bind (nullable? truth?)
    consentSharing := ← row[12]?.bind (json? (.list .string) [])
    flexFields := ← row[13]?.bind (json? .fields .empty)
    withdrawn := ← row[14]?.bind truth?
    createdAt := ← row[15]?.bind moment? }

/-- A household is read back from its row with its attributes as they are read back from their
text, and with everything else as it was. -/
theorem ofRow?_row (household : Household) : ofRow? household.row = some household.stored := by
  simp only [ofRow?, row, List.getElem?_cons_zero, List.getElem?_cons_succ, Option.bind_some,
    Option.bind_eq_bind, id?, text?, truth?, moment?, nullable?_id, nullable?_integer,
    nullable?_text, nullable?_truth, date?_ofOption, json?_ofStrings, json?_fields]
  rfl

end Household

namespace Individual

open Cell

/-- The columns of an individual. -/
def row (individual : Individual) : List Cell :=
  [ .id individual.id,
    .id individual.householdId,
    .text individual.unicefId,
    .text individual.fullName,
    .ofOption .text individual.sex,
    .ofOption .ofDate individual.birthDate,
    .ofOption .text individual.maritalStatus,
    .ofOption .text individual.relationship,
    .ofOption .truth individual.disability,
    .ofJson (.ofStrings individual.observedDisability),
    .ofOption .truth individual.pregnant,
    .ofOption .text individual.phoneNo,
    .ofJson individual.flexFields.toJson,
    .truth individual.withdrawn ]

/-- The individual of a row, unless a column is missing or holds a value of another kind. -/
def ofRow? (row : List Cell) : Option Individual := do
  return {
    id := ← row[0]?.bind id?
    householdId := ← row[1]?.bind id?
    unicefId := ← row[2]?.bind text?
    fullName := ← row[3]?.bind text?
    sex := ← row[4]?.bind (nullable? text?)
    birthDate := ← row[5]?.bind date?
    maritalStatus := ← row[6]?.bind (nullable? text?)
    relationship := ← row[7]?.bind (nullable? text?)
    disability := ← row[8]?.bind (nullable? truth?)
    observedDisability := ← row[9]?.bind (json? (.list .string) [])
    pregnant := ← row[10]?.bind (nullable? truth?)
    phoneNo := ← row[11]?.bind (nullable? text?)
    flexFields := ← row[12]?.bind (json? .fields .empty)
    withdrawn := ← row[13]?.bind truth? }

/-- An individual is read back from its row with its attributes as they are read back from their
text, and with everything else as it was. -/
theorem ofRow?_row (individual : Individual) : ofRow? individual.row = some individual.stored := by
  simp only [ofRow?, row, List.getElem?_cons_zero, List.getElem?_cons_succ, Option.bind_some,
    Option.bind_eq_bind, id?, text?, truth?, nullable?_text, nullable?_truth, date?_ofOption,
    json?_ofStrings, json?_fields]
  rfl

end Individual

end Beneficiary
