import Mathlib
import Beneficiary.Proofs.Json.Fields
import Beneficiary.Proofs.Json.Text
import Beneficiary.Proofs.Outcome
import Beneficiary.Wire.Registry

/-!
# Decoding what was encoded

A decoder reads back a value when it gives the value from what is encoded for it, as it was written
and in ordered form, and it reads an encoder when it reads back every value. For a record this
follows part by part: of an object with distinct known names each part sees the value of its own
name, wherever the name stands.
-/

namespace Beneficiary.Json

variable {α β : Type}

/-- A value as it was written, or in ordered form. -/
def IsForm (value form : Json) : Prop := form = value ∨ form = value.order

/-- The decoder gives back one value, from either form of what is encoded for it. -/
def Decoder.ReadsBack (decode : Decoder α) (encode : α → Json) (a : α) : Prop :=
  ∀ form : Json, IsForm (encode a) form → decode form.toSource = .ok a

/-- The decoder gives back what the encoder was given, from either form. -/
def Decoder.Reads (decode : Decoder α) (encode : α → Json) : Prop :=
  ∀ (a : α) (form : Json), IsForm (encode a) form → decode form.toSource = .ok a

/-- The fields of an ordered object have ordered values. -/
theorem lookup_orderValues (fields : List (String × Json)) (name : String) :
    (orderValues fields).lookup name = (fields.lookup name).map order := by
  induction fields with
  | nil => rfl
  | cons field rest ih =>
    obtain ⟨other, value⟩ := field
    rw [orderValues, List.lookup_cons, List.lookup_cons, ih]
    cases name == other <;> rfl

/-- Ordering the values of fields keeps their names. -/
theorem map_fst_orderValues (fields : List (String × Json)) :
    (orderValues fields).map Prod.fst = fields.map Prod.fst := by
  induction fields with
  | nil => rfl
  | cons field rest ih => rw [orderValues, List.map_cons, List.map_cons, ih]

private theorem mem_of_lookup {fields : List (String × Json)} {name : String} {value : Json}
    (h : fields.lookup name = some value) : name ∈ fields.map Prod.fst := by
  obtain ⟨before, after, rfl, -⟩ := List.lookup_eq_some_iff.mp h
  simp

private theorem lookup_foldl_insertField {fields : List (String × Json)}
    (h : (fields.map Prod.fst).Nodup) (known : List (String × Json)) (name : String) :
    (fields.foldl (fun known entry => insertField entry.1 entry.2 known) known).lookup name =
      (fields.lookup name).or (known.lookup name) := by
  induction fields generalizing known with
  | nil => rfl
  | cons field rest ih =>
    obtain ⟨other, value⟩ := field
    rw [List.map_cons, List.nodup_cons] at h
    rw [List.foldl_cons, ih h.2, lookup_insertField, List.lookup_cons]
    by_cases hname : name = other
    · subst hname
      have hnone : rest.lookup name = none := by
        rw [List.lookup_eq_none_iff]
        intro entry hentry
        rw [bne_iff_ne]
        rintro rfl
        exact h.1 (List.mem_map.mpr ⟨entry, hentry, rfl⟩)
      rw [hnone, if_pos rfl, beq_self_eq_true]
      rfl
    · rw [if_neg hname, beq_false_of_ne hname]

/-- Under distinct names an ordered object holds the same values. -/
theorem lookup_orderFields {fields : List (String × Json)} (h : (fields.map Prod.fst).Nodup)
    (name : String) : (orderFields fields).lookup name = fields.lookup name := by
  rw [orderFields, lookup_foldl_insertField h, List.lookup_nil, Option.or_none]

namespace Decoder

/-- The fields of a record are forms of the named values, each under its name. -/
def Slots.Hold (slots : Slots) (named : List (String × Json)) : Prop :=
  ∀ name value, named.lookup name = some value →
    ∃ place form, IsForm value form ∧ slots.entries.lookup name = some (place, form.toSource)

/-- The part of a record reads a value off the named values, in whatever order and form they
stand. -/
def Record.Accepts (part : Record α) (named : List (String × Json)) (a : α) : Prop :=
  ∀ slots : Slots, slots.Hold named → part.read slots = .ok a

namespace Record

variable {named : List (String × Json)} {name : String} {decode : Decoder α}
  {encode : α → Json}

/-- A part that reads nothing accepts its value. -/
theorem accepts_pure (a : α) : (Pure.pure a : Record α).Accepts named a := fun _ _ => rfl

/-- Two parts accept what they make together. -/
theorem Accepts.seq {first : Record (α → β)} {second : Record α} {f : α → β} {a : α}
    (hfirst : first.Accepts named f) (hsecond : second.Accepts named a) :
    (first <*> second).Accepts named (f a) := by
  intro slots hslots
  simp only [Seq.seq, Record.seq, hfirst slots hslots, hsecond slots hslots]

/-- A part accepts what a function makes of its value. -/
theorem Accepts.map {part : Record α} {a : α} (f : α → β) (h : part.Accepts named a) :
    (f <$> part).Accepts named (f a) := (accepts_pure f).seq h

/-- A field that must be present accepts a value that is read back from under its name. -/
theorem accepts_required_of {a : α} (hread : ReadsBack decode encode a)
    (h : named.lookup name = some (encode a)) : (required name decode).Accepts named a := by
  intro slots hslots
  obtain ⟨place, form, hform, hlookup⟩ := hslots name _ h
  simp only [required, hlookup, hread form hform]
  rfl

/-- A field that may be absent accepts a value that is read back from under its name. -/
theorem accepts_defaulted_of {a default : α} (hread : ReadsBack decode encode a)
    (h : named.lookup name = some (encode a)) :
    (defaulted name decode default).Accepts named a := by
  intro slots hslots
  obtain ⟨place, form, hform, hlookup⟩ := hslots name _ h
  simp only [defaulted, hlookup, hread form hform]
  rfl

/-- A field that may be `null` accepts a value that is read back from under its name. -/
theorem accepts_nullable_of {a : Option α} (hread : ReadsBack (option decode) (.ofOption encode) a)
    (h : named.lookup name = some (.ofOption encode a)) :
    (nullable name decode).Accepts named a := by
  intro slots hslots
  obtain ⟨place, form, hform, hlookup⟩ := hslots name _ h
  simp only [nullable, hlookup, hread form hform]
  rfl

/-- A field that must be present accepts the value that was encoded under its name. -/
theorem accepts_required (hreads : Reads decode encode) {a : α}
    (h : named.lookup name = some (encode a)) : (required name decode).Accepts named a :=
  accepts_required_of (hreads a) h

/-- A field that may be absent accepts the value that was encoded under its name. -/
theorem accepts_defaulted (hreads : Reads decode encode) {a default : α}
    (h : named.lookup name = some (encode a)) :
    (defaulted name decode default).Accepts named a :=
  accepts_defaulted_of (hreads a) h

/-- A field that may be `null` accepts the value that was encoded under its name. -/
theorem accepts_nullable (hreads : Reads (option decode) (.ofOption encode)) {a : Option α}
    (h : named.lookup name = some (.ofOption encode a)) : (nullable name decode).Accepts named a :=
  accepts_nullable_of (hreads a) h

end Record

/-- The declared fields of an object with distinct known names are its fields. -/
theorem fieldSlots_toFieldSources {names : List String} (skip : Source → Bool)
    {fields : List (String × Json)} (hknown : ∀ field ∈ fields, field.1 ∈ names)
    (hnodup : (fields.map Prod.fst).Nodup) (place : Nat) {seen : List String}
    (hseen : ∀ field ∈ fields, field.1 ∉ seen) :
    ∃ entries, fieldSlots names skip true place seen (toFieldSources fields) = (entries, none) ∧
      ∀ name, (entries.lookup name).map Prod.snd = (fields.lookup name).map toSource := by
  induction fields generalizing place seen with
  | nil => exact ⟨[], rfl, fun _ => rfl⟩
  | cons field rest ih =>
    obtain ⟨name, value⟩ := field
    obtain ⟨hname, hrest⟩ := List.forall_mem_cons.mp hknown
    obtain ⟨hnew, hothers⟩ := List.forall_mem_cons.mp hseen
    rw [List.map_cons, List.nodup_cons] at hnodup
    have hfresh : ∀ field ∈ rest, field.1 ∉ name :: seen := by
      intro field hfield hmem
      obtain heq | hmem := List.mem_cons.mp hmem
      · exact hnodup.1 (List.mem_map.mpr ⟨field, hfield, heq⟩)
      · exact hothers field hfield hmem
    obtain ⟨entries, hslots, hlookup⟩ := ih hrest hnodup.2 (place + 1) hfresh
    refine ⟨(name, place, value.toSource) :: entries, ?_, ?_⟩
    · simp only [toFieldSources, fieldSlots, List.contains_iff_mem.mpr hname, if_true, hslots]
      rw [if_neg (by simpa using hnew)]
    · intro other
      rw [List.lookup_cons, List.lookup_cons]
      cases other == name
      · exact hlookup other
      · rfl

/-- A record reads an object of distinct known names, under which the values stand in some form,
whatever it makes of other names. -/
theorem objectRecord_toSource (skip : Source → Bool) {parts : Record α}
    {named fields : List (String × Json)} {a : α} (h : parts.Accepts named a)
    (hknown : ∀ field ∈ fields, field.1 ∈ parts.names) (hnodup : (fields.map Prod.fst).Nodup)
    (hforms : ∀ name value, named.lookup name = some value →
      ∃ form, IsForm value form ∧ fields.lookup name = some form) :
    objectRecord skip parts (Json.object fields).toSource = .ok a := by
  obtain ⟨entries, hslots, hlookup⟩ := fieldSlots_toFieldSources skip hknown
    hnodup 0 (fun _ _ => List.not_mem_nil)
  have hread : parts.read { entries, size := (toFieldSources fields).length, positional := false }
      = .ok a := by
    apply h
    intro name value hvalue
    obtain ⟨form, hform, hfield⟩ := hforms name value hvalue
    have hentry := hlookup name
    rw [hfield, Option.map_some, Option.map_eq_some_iff] at hentry
    obtain ⟨⟨place, source⟩, hentry, rfl⟩ := hentry
    exact ⟨place, form, hform, hentry⟩
  simp only [toSource, objectRecord, hslots, hread, settle]

/-- A record reads back a value from the object of its names when its parts accept the values. -/
theorem readsBack_objectRecord (skip : Source → Bool) {parts : Record α}
    {named : α → List (String × Json)} {a : α} (hnames : (named a).map Prod.fst = parts.names)
    (hnodup : parts.names.Nodup) (h : parts.Accepts (named a) a) :
    ReadsBack (objectRecord skip parts) (fun a => .object (named a)) a := by
  intro form hform
  have hdistinct : ((named a).map Prod.fst).Nodup := by rwa [hnames]
  obtain rfl | rfl := hform
  · apply objectRecord_toSource skip h _ hdistinct
    · exact fun name value hvalue => ⟨value, .inl rfl, hvalue⟩
    · intro field hfield
      rw [← hnames]
      exact List.mem_map_of_mem hfield
  · have hlookup (name : String) :
        (orderFields (orderValues (named a))).lookup name = ((named a).lookup name).map order := by
      rw [lookup_orderFields (by rwa [map_fst_orderValues]), lookup_orderValues]
    have hascend := (Fields.of (named a)).pairwise
    apply objectRecord_toSource skip h
    · intro field hfield
      have hvalue := (mem_iff_lookup hascend).mp hfield
      rw [Fields.of, hlookup, Option.map_eq_some_iff] at hvalue
      obtain ⟨value, hvalue, -⟩ := hvalue
      rw [← hnames]
      exact mem_of_lookup hvalue
    · exact List.pairwise_map.mpr (hascend.imp fun hlt => ne_of_lt hlt)
    · intro name value hvalue
      exact ⟨value.order, .inr rfl, by rw [hlookup, hvalue, Option.map_some]⟩

/-- A record that may also be written as an array reads back a value from the object of its names
when its parts accept the values. -/
theorem readsBack_record {parts : Record α} {named : α → List (String × Json)} {a : α}
    (hnames : (named a).map Prod.fst = parts.names) (hnodup : parts.names.Nodup)
    (h : parts.Accepts (named a) a) :
    ReadsBack (record parts) (fun a => .object (named a)) a := by
  intro form hform
  have hread := readsBack_objectRecord Source.isWellFormed hnames hnodup h form hform
  obtain rfl | rfl := hform <;> exact hread

/-- A record reads the object of its names when its parts accept the values. -/
theorem reads_record {parts : Record α} {named : α → List (String × Json)}
    (hnames : ∀ a, (named a).map Prod.fst = parts.names) (hnodup : parts.names.Nodup)
    (h : ∀ a, parts.Accepts (named a) a) : Reads (record parts) fun a => .object (named a) :=
  fun a => readsBack_record (hnames a) hnodup (h a)

/-- A decoder reads an encoder whose values have one form when it reads that form. -/
theorem reads_of_ordered {decode : Decoder α} {encode : α → Json}
    (hordered : ∀ a, (encode a).order = encode a)
    (h : ∀ a, decode (encode a).toSource = .ok a) : Reads decode encode := by
  intro a form hform
  obtain rfl | rfl := hform
  · exact h a
  · rw [hordered, h]

/-- Strings are read. -/
theorem reads_string : Reads string .string :=
  reads_of_ordered (fun _ => rfl) (fun _ => rfl)

/-- Truth values are read. -/
theorem reads_bool : Reads bool .bool :=
  reads_of_ordered (fun _ => rfl) (fun _ => rfl)

/-- Natural numbers of thirty-two bits are read. -/
theorem reads_uint32 : Reads uint32 .ofUInt32 := by
  refine reads_of_ordered (fun _ => rfl) fun n => ?_
  have hbound := n.toNat_lt
  have hinteger : integer 0 4294967295 (Json.ofUInt32 n).toSource = .ok (n.toNat : Int) := by
    simp only [Json.ofUInt32, Json.ofNat, Json.ofInt, toSource, integer]
    rw [if_pos (by omega)]
  rw [uint32, hinteger]
  simp [Except.map]

/-- Integers of sixty-four bits are read. -/
theorem reads_int64 : Reads int64 .ofInt64 := by
  refine reads_of_ordered (fun _ => rfl) fun n => ?_
  have hleast := n.le_toInt
  have hgreatest := n.toInt_lt
  have hinteger : integer (-9223372036854775808) 9223372036854775807 (Json.ofInt64 n).toSource =
      .ok n.toInt := by
    simp only [Json.ofInt64, Json.ofInt, toSource, integer]
    rw [if_pos (by omega)]
  rw [int64, hinteger]
  simp [Except.map]

/-- A text is read back when its reader reads it. -/
theorem readsBack_text {read : String → Option α} {text : α → String} {a : α}
    (h : read (text a) = some a) :
    ReadsBack (Decoder.text read) (fun a => .string (text a)) a := by
  have hread : Decoder.text read (Json.string (text a)).toSource = .ok a := by
    simp [Decoder.text, string, toSource, h, bind, Except.bind]
  intro form hform
  obtain rfl | rfl := hform
  · exact hread
  · exact hread

/-- A text is read when its reader reads it. -/
theorem reads_text {read : String → Option α} {text : α → String}
    (h : ∀ a, read (text a) = some a) :
    Reads (Decoder.text read) fun a => .string (text a) :=
  fun a => readsBack_text (h a)

mutual

/-- Any value is read as it was written. -/
theorem value_toSource : ∀ json : Json, value json.toSource = .ok json
  | .null => rfl
  | .bool _ => rfl
  | .number _ => rfl
  | .string _ => rfl
  | .array items => by
    rw [toSource, value, valueItems_toSources items]
    rfl
  | .object fields => by
    rw [toSource, value, valueFields_toFieldSources fields]
    rfl

/-- Any items are read as they were written. -/
theorem valueItems_toSources : ∀ items : List Json, valueItems (toSources items) = .ok items
  | [] => rfl
  | item :: rest => by
    rw [toSources, valueItems, value_toSource item, valueItems_toSources rest]
    rfl

/-- Any fields are read as they were written. -/
theorem valueFields_toFieldSources : ∀ fields : List (String × Json),
    valueFields (toFieldSources fields) = .ok fields
  | [] => rfl
  | (name, json) :: rest => by
    rw [toFieldSources, valueFields, value_toSource json, valueFields_toFieldSources rest]
    rfl

end

/-- Ordered values are read. -/
theorem reads_ordered : Reads ordered Ordered.json := by
  refine reads_of_ordered (fun v => order_eq_self v.isOrdered) fun v => ?_
  obtain ⟨json, hordered⟩ := v
  rw [ordered, value_toSource]
  simp only [Except.map, Ordered.of, order_eq_self hordered]

/-- Objects with ascending names are read. -/
theorem reads_fields : Reads fields Fields.toJson := by
  refine reads_of_ordered (fun f => order_eq_self f.isOrdered) fun f => ?_
  rw [Fields.toJson, toSource, fields, valueFields_toFieldSources]
  simp [bind, Except.bind, Fields.of_entries]

/-- A name is read when its reader reads it. -/
theorem reads_choice {read : String → Option α} {text : α → String}
    (h : ∀ a, read (text a) = some a) : Reads (choice read) fun a => .string (text a) := by
  refine reads_of_ordered (fun _ => rfl) fun a => ?_
  simp only [toSource, choice, h]

private theorem items_toSources {decode : Decoder α} {encode : α → Json} {as : List α}
    (h : ∀ a ∈ as, decode (encode a).toSource = .ok a) :
    items decode true (toSources (as.map encode)) = .ok as := by
  induction as with
  | nil => rfl
  | cons a as ih =>
    obtain ⟨ha, has⟩ := List.forall_mem_cons.mp h
    rw [List.map_cons, toSources, items, ha, ih has]
    rfl

private theorem orderItems_map (encode : α → Json) (as : List α) :
    orderItems (as.map encode) = as.map fun a => (encode a).order := by
  induction as with
  | nil => rfl
  | cons a as ih => rw [List.map_cons, orderItems, ih, List.map_cons]

/-- A list is read back when its items are. -/
theorem readsBack_list {decode : Decoder α} {encode : α → Json} {as : List α}
    (h : ∀ a ∈ as, ReadsBack decode encode a) : ReadsBack (list decode) (.ofList encode) as := by
  intro form hform
  obtain rfl | rfl := hform
  · exact items_toSources fun a ha => h a ha _ (.inl rfl)
  · rw [Json.ofList, order, orderItems_map]
    exact items_toSources fun a ha => h a ha _ (.inr rfl)

/-- A list is read when its items are. -/
theorem reads_list {decode : Decoder α} {encode : α → Json} (h : Reads decode encode) :
    Reads (list decode) (.ofList encode) :=
  fun _ => readsBack_list fun a _ => h a

/-- An optional value is read back when a value is, and is none of `null`. -/
theorem readsBack_option {decode : Decoder α} {encode : α → Json} {value : Option α}
    (h : ∀ a ∈ value, ReadsBack decode encode a) (hnull : ∀ a, decode .null ≠ .ok a) :
    ReadsBack (option decode) (.ofOption encode) value := by
  intro form hform
  cases value with
  | none => obtain rfl | rfl := hform <;> rfl
  | some a =>
    have hread := h a rfl form hform
    unfold option
    split
    · next hsource =>
      rw [hsource] at hread
      exact (hnull a hread).elim
    · rw [hread]
      rfl

/-- An optional value is read when a value is, and is none of `null`. -/
theorem reads_option {decode : Decoder α} {encode : α → Json} (h : Reads decode encode)
    (hnull : ∀ a, decode .null ≠ .ok a) : Reads (option decode) (.ofOption encode) :=
  fun _ => readsBack_option (fun a _ => h a) hnull

end Decoder

end Beneficiary.Json
