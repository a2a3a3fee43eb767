import Mathlib
import Beneficiary.Json.Decoder
import Beneficiary.Proofs.Json.Literals

/-!
# Values in JSON texts

A value whose numbers are legible is read back from its compact text, with the arrays and objects
marked that open below the depth limit. A decoder that takes any value gives the value back when it
fits the limit and refuses the text otherwise; nothing in between happens.
-/

namespace Beneficiary.Json

open Text

mutual

/-- How many arrays and objects are open at once where most of them are. -/
def depth : Json → Nat
  | .array items => itemsDepth items + 1
  | .object fields => fieldsDepth fields + 1
  | .null => 0
  | .bool _ => 0
  | .number _ => 0
  | .string _ => 0

/-- The greatest depth of the items. -/
def itemsDepth : List Json → Nat
  | [] => 0
  | item :: rest => max item.depth (itemsDepth rest)

/-- The greatest depth of the named values. -/
def fieldsDepth : List (String × Json) → Nat
  | [] => 0
  | (_, value) :: rest => max value.depth (fieldsDepth rest)

end

mutual

/-- Whether every number in the value is legible. -/
def keepsNumbers : Json → Bool
  | .array items => itemsKeepNumbers items
  | .object fields => fieldsKeepNumbers fields
  | .number n => n.isLegible
  | .null => true
  | .bool _ => true
  | .string _ => true

/-- Whether every number in the items is legible. -/
def itemsKeepNumbers : List Json → Bool
  | [] => true
  | item :: rest => item.keepsNumbers && itemsKeepNumbers rest

/-- Whether every number in the named values is legible. -/
def fieldsKeepNumbers : List (String × Json) → Bool
  | [] => true
  | (_, value) :: rest => value.keepsNumbers && fieldsKeepNumbers rest

end

/-- A value that fits into so many levels, with legible numbers only. -/
structure FitsIn (levels : Nat) (value : Json) : Prop where
  depth_le : value.depth ≤ levels
  keepsNumbers : value.keepsNumbers = true

/-- What fits into some levels fits into more. -/
theorem FitsIn.mono {levels more : Nat} {value : Json} (h : value.FitsIn levels)
    (hle : levels ≤ more) : value.FitsIn more :=
  ⟨h.depth_le.trans hle, h.keepsNumbers⟩

/-- Null needs no level. -/
theorem fitsIn_null (levels : Nat) : Json.null.FitsIn levels := ⟨Nat.zero_le _, rfl⟩

/-- A truth value needs no level. -/
theorem fitsIn_bool (levels : Nat) (b : Bool) : (Json.bool b).FitsIn levels :=
  ⟨Nat.zero_le _, rfl⟩

/-- A string needs no level. -/
theorem fitsIn_string (levels : Nat) (s : String) : (Json.string s).FitsIn levels :=
  ⟨Nat.zero_le _, rfl⟩

/-- An array fits when its items fit below it. -/
theorem fitsIn_array {items : List Json} {levels : Nat} (h : ∀ item ∈ items, item.FitsIn levels) :
    (Json.array items).FitsIn (levels + 1) := by
  have hitems : itemsDepth items ≤ levels ∧ itemsKeepNumbers items = true := by
    induction items with
    | nil => exact ⟨Nat.zero_le _, rfl⟩
    | cons item rest ih =>
      obtain ⟨hitem, hrest⟩ := List.forall_mem_cons.mp h
      obtain ⟨hdepth, hnumbers⟩ := ih hrest
      rw [itemsDepth, itemsKeepNumbers, hitem.keepsNumbers, hnumbers]
      exact ⟨max_le hitem.depth_le hdepth, rfl⟩
  exact ⟨Nat.succ_le_succ hitems.1, hitems.2⟩

/-- An object fits when its values fit below it. -/
theorem fitsIn_object {fields : List (String × Json)} {levels : Nat}
    (h : ∀ field ∈ fields, field.2.FitsIn levels) : (Json.object fields).FitsIn (levels + 1) := by
  have hfields : fieldsDepth fields ≤ levels ∧ fieldsKeepNumbers fields = true := by
    induction fields with
    | nil => exact ⟨Nat.zero_le _, rfl⟩
    | cons field rest ih =>
      obtain ⟨hfield, hrest⟩ := List.forall_mem_cons.mp h
      obtain ⟨hdepth, hnumbers⟩ := ih hrest
      rw [fieldsDepth, fieldsKeepNumbers, hfield.keepsNumbers, hnumbers]
      exact ⟨max_le hfield.depth_le hdepth, rfl⟩
  exact ⟨Nat.succ_le_succ hfields.1, hfields.2⟩

/-- The values of an object that fits, fit below it. -/
theorem FitsIn.of_mem {levels : Nat} {fields : List (String × Json)}
    (h : (Json.object fields).FitsIn (levels + 1)) :
    ∀ field ∈ fields, field.2.FitsIn levels := by
  have hfields : fieldsDepth fields ≤ levels := Nat.le_of_succ_le_succ h.depth_le
  have hnumbers : fieldsKeepNumbers fields = true := h.keepsNumbers
  clear h
  induction fields with
  | nil => simp
  | cons field rest ih =>
    rw [fieldsDepth, max_le_iff] at hfields
    rw [fieldsKeepNumbers, Bool.and_eq_true] at hnumbers
    exact List.forall_mem_cons.mpr ⟨⟨hfields.1, hnumbers.1⟩, ih hfields.2 hnumbers.2⟩

mutual

/-- The tree of a value's text, arrays and objects marked that open when no level is left. -/
def sourceAt (levels : Nat) : Json → Source
  | .array items => atDepth levels (.array (sourcesAt (levels - 1) items) true)
  | .object fields => atDepth levels (.object (fieldSourcesAt (levels - 1) fields) true)
  | .null => .null
  | .bool b => .bool b
  | .number n => .number (some n)
  | .string s => .string (some s)

/-- The items as trees. -/
def sourcesAt (levels : Nat) : List Json → List Source
  | [] => []
  | item :: rest => sourceAt levels item :: sourcesAt levels rest

/-- The named values as trees. -/
def fieldSourcesAt (levels : Nat) : List (String × Json) → List (Option String × Source)
  | [] => []
  | (name, value) :: rest => (some name, sourceAt levels value) :: fieldSourcesAt levels rest

end

mutual

/-- Nothing is marked in the tree of a value that fits. -/
theorem sourceAt_eq_toSource : ∀ {value : Json} {levels : Nat}, value.depth ≤ levels →
    sourceAt levels value = value.toSource
  | .null, _, _ => rfl
  | .bool _, _, _ => rfl
  | .number _, _, _ => rfl
  | .string _, _, _ => rfl
  | .array items, levels, h => by
    rw [depth] at h
    rw [sourceAt, atDepth, if_neg (by omega), toSource, sourcesAt_eq_toSources (by omega)]
  | .object fields, levels, h => by
    rw [depth] at h
    rw [sourceAt, atDepth, if_neg (by omega), toSource, fieldSourcesAt_eq_toFieldSources (by omega)]

/-- Nothing is marked in the trees of items that fit. -/
theorem sourcesAt_eq_toSources : ∀ {items : List Json} {levels : Nat}, itemsDepth items ≤ levels →
    sourcesAt levels items = toSources items
  | [], _, _ => rfl
  | _ :: _, levels, h => by
    rw [itemsDepth, max_le_iff] at h
    rw [sourcesAt, toSources, sourceAt_eq_toSource h.1, sourcesAt_eq_toSources h.2]

/-- Nothing is marked in the trees of named values that fit. -/
theorem fieldSourcesAt_eq_toFieldSources : ∀ {fields : List (String × Json)} {levels : Nat},
    fieldsDepth fields ≤ levels → fieldSourcesAt levels fields = toFieldSources fields
  | [], _, _ => rfl
  | (_, _) :: _, levels, h => by
    rw [fieldsDepth, max_le_iff] at h
    rw [fieldSourcesAt, toFieldSources, sourceAt_eq_toSource h.1,
      fieldSourcesAt_eq_toFieldSources h.2]

end

private theorem skipSpace_cons {c : Char} (h : isSpace c = false) (cs : List Char) :
    skipSpace (c :: cs) = c :: cs := by
  rw [skipSpace, List.dropWhile_cons, h]
  rfl

private theorem readNumber_of_readSigned {c : Char} {cs after : List Char} {n : Option Number}
    (h : readSigned (c :: cs) = some (n, after)) :
    c = '-' ∧ readNumber true cs = some (n, after) ∨
      isDigit c = true ∧ readNumber false (c :: cs) = some (n, after) := by
  unfold readSigned at h
  split at h
  · next heq =>
    cases heq
    exact .inl ⟨rfl, h⟩
  · obtain ⟨d, ds, heq, hdigit⟩ := isDigit_of_readNumber h
    cases heq
    exact .inr ⟨hdigit, h⟩

private theorem isSpace_of_isDigit {c : Char} (h : isDigit c = true) : isSpace c = false := by
  rw [← Bool.not_eq_true]
  intro hspace
  simp only [isSpace, Bool.or_eq_true, decide_eq_true_eq] at hspace
  rcases hspace with ((rfl | rfl) | rfl) | rfl <;> cases h

private theorem readValue_number {cs after : List Char} {n : Option Number}
    (h : readSigned cs = some (n, after)) (fuel levels : Nat) :
    readValue (fuel + 1) levels cs = (.number n, some after) := by
  cases cs with
  | nil => simp [readSigned, readNumber, takeDigits] at h
  | cons c cs =>
    obtain ⟨rfl, hread⟩ | ⟨hdigit, hread⟩ := readNumber_of_readSigned h
    · rw [readValue, skipSpace_cons (by decide)]
      simp only [hread]
    · rw [readValue, skipSpace_cons (isSpace_of_isDigit hdigit)]
      -- no other kind of value starts with a digit
      split
      case h_8 => simp only [hread]
      all_goals
        next heq =>
          cases heq
          cases hdigit

/-- The text of a value whose numbers are legible starts with a character that is no space and
closes no array. -/
theorem render_head {value : Json} (h : value.keepsNumbers = true) :
    ∃ c cs, value.render = c :: cs ∧ isSpace c = false ∧ c ≠ ']' := by
  cases value with
  | null => exact ⟨_, _, rfl, by decide, by decide⟩
  | bool b => cases b <;> exact ⟨_, _, rfl, by decide, by decide⟩
  | string s => exact ⟨_, _, rfl, by decide, by decide⟩
  | array items => exact ⟨_, _, rfl, by decide, by decide⟩
  | object fields => exact ⟨_, _, rfl, by decide, by decide⟩
  | number n =>
    rw [keepsNumbers, Number.isLegible, beq_iff_eq] at h
    rw [render]
    cases htext : n.text.toList with
    | nil => simp [htext, readSigned, readNumber, takeDigits] at h
    | cons c cs =>
      rw [htext] at h
      obtain ⟨rfl, -⟩ | ⟨hdigit, -⟩ := readNumber_of_readSigned h
      · exact ⟨_, _, rfl, by decide, by decide⟩
      · refine ⟨_, _, rfl, isSpace_of_isDigit hdigit, ?_⟩
        rintro rfl
        cases hdigit

private theorem renderItems_head {item : Json} {items : List Json}
    (h : itemsKeepNumbers (item :: items) = true) :
    ∃ c cs, renderItems (item :: items) = c :: cs ∧ isSpace c = false ∧ c ≠ ']' := by
  rw [itemsKeepNumbers, Bool.and_eq_true] at h
  obtain ⟨c, cs, htext, hc⟩ := render_head h.1
  cases items with
  | nil => exact ⟨c, cs, by rw [renderItems, htext], hc⟩
  | cons next items => exact ⟨c, _, by rw [renderItems, htext, List.cons_append], hc⟩

private theorem renderFields_head (name : String) (value : Json) (fields : List (String × Json)) :
    ∃ cs, renderFields ((name, value) :: fields) = '"' :: cs := by
  cases fields with
  | nil => exact ⟨_, rfl⟩
  | cons next fields => exact ⟨_, rfl⟩

private theorem readValue_array {c : Char} (hspace : isSpace c = false) (hclose : c ≠ ']')
    (fuel levels : Nat) (cs : List Char) :
    readValue (fuel + 1) levels ('[' :: c :: cs) =
      (atDepth levels (.array (readItems fuel (levels - 1) (c :: cs)).1
        (readItems fuel (levels - 1) (c :: cs)).2.isSome),
        (readItems fuel (levels - 1) (c :: cs)).2) := by
  rw [readValue, skipSpace_cons (by decide)]
  simp only [skipSpace_cons hspace]
  split
  · next heq =>
    cases heq
    exact absurd rfl hclose
  · next heq => cases heq
  · rfl

private theorem readValue_object (fuel levels : Nat) (cs : List Char) :
    readValue (fuel + 1) levels ('{' :: '"' :: cs) =
      (atDepth levels (.object (readFields fuel (levels - 1) ('"' :: cs)).1
        (readFields fuel (levels - 1) ('"' :: cs)).2.isSome),
        (readFields fuel (levels - 1) ('"' :: cs)).2) := by
  rw [readValue, skipSpace_cons (by decide)]
  rfl

mutual

/-- The text of a value whose numbers are legible is read as its tree. -/
theorem readValue_render : ∀ {value : Json} {fuel : Nat} (levels : Nat) {rest : List Char},
    2 * value.render.length ≤ fuel → value.keepsNumbers = true → endsNumber rest = true →
      readValue fuel levels (value.render ++ rest) = (sourceAt levels value, some rest)
  | .null, fuel + 1, _, _, _, _, _ => by rw [readValue]; rfl
  | .bool true, fuel + 1, _, _, _, _, _ => by rw [readValue]; rfl
  | .bool false, fuel + 1, _, _, _, _, _ => by rw [readValue]; rfl
  | .number n, fuel + 1, levels, _, _, hnumbers, hrest => by
    rw [keepsNumbers] at hnumbers
    rw [render, sourceAt, readValue_number (readSigned_text hnumbers hrest)]
  | .string s, fuel + 1, _, rest, _, _, _ => by
    obtain ⟨literal, htext, hread⟩ := readString_quoted s rest
    rw [render, htext, readValue, skipSpace_cons (by decide)]
    simp only [hread]
    rfl
  | .array [], fuel + 1, _, _, _, _, _ => by rw [readValue]; rfl
  | .array (item :: items), fuel + 1, levels, rest, hfuel, hnumbers, _ => by
    obtain ⟨c, cs, htext, hspace, hclose⟩ := renderItems_head hnumbers
    have hlength : 2 * (renderItems (item :: items)).length + 1 ≤ fuel := by
      simp only [render, List.length_cons, List.length_append] at hfuel
      omega
    have hitems := readItems_render (levels - 1) rest hlength hnumbers
    have happend : (Json.array (item :: items)).render ++ rest =
        '[' :: (renderItems (item :: items) ++ ']' :: rest) := by
      simp [render]
    rw [happend]
    rw [htext, List.cons_append] at hitems ⊢
    rw [readValue_array hspace hclose, hitems]
    rfl
  | .object [], fuel + 1, _, _, _, _, _ => by rw [readValue]; rfl
  | .object ((name, value) :: fields), fuel + 1, levels, rest, hfuel, hnumbers, _ => by
    obtain ⟨cs, htext⟩ := renderFields_head name value fields
    have hlength : 2 * (renderFields ((name, value) :: fields)).length + 1 ≤ fuel := by
      simp only [render, List.length_cons, List.length_append] at hfuel
      omega
    have hfields := readFields_render (levels - 1) rest hlength hnumbers
    have happend : (Json.object ((name, value) :: fields)).render ++ rest =
        '{' :: (renderFields ((name, value) :: fields) ++ '}' :: rest) := by
      simp [render]
    rw [happend]
    rw [htext, List.cons_append] at hfields ⊢
    rw [readValue_object, hfields]
    rfl
  | value, 0, levels, _, hfuel, hnumbers, _ => by
    obtain ⟨c, cs, htext, -⟩ := render_head hnumbers
    rw [htext, List.length_cons] at hfuel
    omega

/-- The text of items whose numbers are legible is read as their trees. -/
theorem readItems_render : ∀ {item : Json} {items : List Json} {fuel : Nat} (levels : Nat)
    (rest : List Char), 2 * (renderItems (item :: items)).length + 1 ≤ fuel →
      itemsKeepNumbers (item :: items) = true →
      readItems fuel levels (renderItems (item :: items) ++ ']' :: rest) =
        (sourcesAt levels (item :: items), some rest)
  | item, [], fuel + 1, levels, rest, hfuel, hnumbers => by
    rw [itemsKeepNumbers, Bool.and_eq_true] at hnumbers
    rw [renderItems] at hfuel ⊢
    rw [readItems, readValue_render levels (by omega) hnumbers.1 rfl]
    simp only [skipSpace_cons (by decide : isSpace ']' = false)]
    rfl
  | item, next :: items, fuel + 1, levels, rest, hfuel, hnumbers => by
    rw [itemsKeepNumbers, Bool.and_eq_true] at hnumbers
    rw [renderItems, List.length_append, List.length_cons] at hfuel
    rw [renderItems, List.append_assoc, readItems,
      readValue_render levels (by omega) hnumbers.1 rfl, List.cons_append]
    simp only [skipSpace_cons (by decide : isSpace ',' = false),
      readItems_render levels rest (by omega : 2 * (renderItems (next :: items)).length + 1 ≤ fuel)
        hnumbers.2]
    rfl

/-- The text of named values whose numbers are legible is read as their trees. -/
theorem readFields_render : ∀ {name : String} {value : Json} {fields : List (String × Json)}
    {fuel : Nat} (levels : Nat) (rest : List Char),
    2 * (renderFields ((name, value) :: fields)).length + 1 ≤ fuel →
      fieldsKeepNumbers ((name, value) :: fields) = true →
      readFields fuel levels (renderFields ((name, value) :: fields) ++ '}' :: rest) =
        (fieldSourcesAt levels ((name, value) :: fields), some rest)
  | name, value, [], fuel + 1, levels, rest, hfuel, hnumbers => by
    rw [fieldsKeepNumbers, Bool.and_eq_true] at hnumbers
    rw [renderFields, List.length_append, List.length_cons] at hfuel
    obtain ⟨literal, htext, hread⟩ :=
      readString_quoted name (':' :: value.render ++ '}' :: rest)
    rw [renderFields, List.append_assoc, htext, readFields, skipSpace_cons (by decide)]
    simp only [hread, List.cons_append, skipSpace_cons (by decide : isSpace ':' = false),
      readValue_render levels (by omega : 2 * value.render.length ≤ fuel) hnumbers.1
        (rfl : endsNumber ('}' :: rest) = true),
      skipSpace_cons (by decide : isSpace '}' = false)]
    rfl
  | name, value, (next, kept) :: fields, fuel + 1, levels, rest, hfuel, hnumbers => by
    rw [fieldsKeepNumbers, Bool.and_eq_true] at hnumbers
    simp only [renderFields, List.length_append, List.length_cons] at hfuel
    obtain ⟨literal, htext, hread⟩ := readString_quoted name
      (':' :: value.render ++ ',' :: renderFields ((next, kept) :: fields) ++ '}' :: rest)
    rw [renderFields, List.append_assoc (quoted name), List.append_assoc (quoted name), htext,
      readFields, skipSpace_cons (by decide)]
    simp only [hread, List.cons_append, List.append_assoc,
      skipSpace_cons (by decide : isSpace ':' = false),
      readValue_render levels (by omega : 2 * value.render.length ≤ fuel) hnumbers.1
        (rfl : endsNumber (',' :: (renderFields ((next, kept) :: fields) ++ '}' :: rest)) = true),
      skipSpace_cons (by decide : isSpace ',' = false),
      readFields_render levels rest
        (by omega : 2 * (renderFields ((next, kept) :: fields)).length + 1 ≤ fuel) hnumbers.2]
    rfl

end

/-- The compact text of a value whose numbers are legible is its tree and nothing more. -/
theorem document_render {value : Json} (h : value.keepsNumbers = true) :
    Document.ofChars value.render = ⟨sourceAt depthLimit value, true⟩ := by
  have hread := readValue_render depthLimit (by omega : 2 * value.render.length ≤
    2 * value.render.length + 2) h (rfl : endsNumber [] = true)
  rw [List.append_nil] at hread
  rw [Document.ofChars, hread]
  rfl

/-- A compact text decodes as its tree does. -/
theorem decodeText_compact {α : Type} (decode : Decoder α) {value : Json}
    (h : value.keepsNumbers = true) :
    decodeText decode value.compact = decode (sourceAt depthLimit value) := by
  rw [decodeText, compact, String.toList_ofList, document_render h]
  simp only [if_true]
  cases decode (sourceAt depthLimit value) <;> rfl

/-- The compact text of a value that fits decodes as the value does. -/
theorem decodeText_compact_of_fits {α : Type} (decode : Decoder α) {value : Json}
    (h : value.FitsIn depthLimit) : decodeText decode value.compact = decodeValue decode value := by
  rw [decodeText_compact decode h.keepsNumbers, sourceAt_eq_toSource h.depth_le, decodeValue]

namespace Decoder

mutual

/-- A value is decoded from its tree when it fits, and refused otherwise. -/
theorem value_sourceAt : ∀ (v : Json) (levels : Nat),
    value (sourceAt levels v) = if v.depth ≤ levels then .ok v else .error .malformed
  | .null, levels => by simp [sourceAt, value, depth]
  | .bool _, levels => by simp [sourceAt, value, depth]
  | .number _, levels => by simp [sourceAt, value, depth]
  | .string _, levels => by simp [sourceAt, value, depth]
  | .array items, levels => by
    rw [sourceAt, atDepth, depth]
    by_cases hlevels : levels = 0
    · rw [if_pos hlevels, if_neg (by omega), value]
    · rw [if_neg hlevels, value, valueItems_sourcesAt items (levels - 1)]
      by_cases hfits : itemsDepth items ≤ levels - 1
      · rw [if_pos hfits, if_pos (by omega)]
        rfl
      · rw [if_neg hfits, if_neg (by omega)]
        rfl
  | .object fields, levels => by
    rw [sourceAt, atDepth, depth]
    by_cases hlevels : levels = 0
    · rw [if_pos hlevels, if_neg (by omega), value]
    · rw [if_neg hlevels, value, valueFields_fieldSourcesAt fields (levels - 1)]
      by_cases hfits : fieldsDepth fields ≤ levels - 1
      · rw [if_pos hfits, if_pos (by omega)]
        rfl
      · rw [if_neg hfits, if_neg (by omega)]
        rfl

/-- Items are decoded from their trees when they fit, and refused otherwise. -/
theorem valueItems_sourcesAt : ∀ (items : List Json) (levels : Nat),
    valueItems (sourcesAt levels items) =
      if itemsDepth items ≤ levels then .ok items else .error .malformed
  | [], levels => by simp [sourcesAt, valueItems, itemsDepth]
  | item :: rest, levels => by
    rw [sourcesAt, valueItems, value_sourceAt item levels, valueItems_sourcesAt rest levels,
      itemsDepth]
    by_cases hitem : item.depth ≤ levels
    · by_cases hrest : itemsDepth rest ≤ levels
      · rw [if_pos hitem, if_pos hrest, if_pos (max_le hitem hrest)]
        rfl
      · rw [if_pos hitem, if_neg hrest, if_neg (fun h => hrest (max_le_iff.mp h).2)]
        rfl
    · rw [if_neg hitem, if_neg (fun h => hitem (max_le_iff.mp h).1)]
      rfl

/-- Named values are decoded from their trees when they fit, and refused otherwise. -/
theorem valueFields_fieldSourcesAt : ∀ (fields : List (String × Json)) (levels : Nat),
    valueFields (fieldSourcesAt levels fields) =
      if fieldsDepth fields ≤ levels then .ok fields else .error .malformed
  | [], levels => by simp [fieldSourcesAt, valueFields, fieldsDepth]
  | (name, first) :: rest, levels => by
    rw [fieldSourcesAt, valueFields, value_sourceAt first levels,
      valueFields_fieldSourcesAt rest levels, fieldsDepth]
    by_cases hfirst : first.depth ≤ levels
    · by_cases hrest : fieldsDepth rest ≤ levels
      · rw [if_pos hfirst, if_pos hrest, if_pos (max_le hfirst hrest)]
        rfl
      · rw [if_pos hfirst, if_neg hrest, if_neg (fun h => hrest (max_le_iff.mp h).2)]
        rfl
    · rw [if_neg hfirst, if_neg (fun h => hfirst (max_le_iff.mp h).1)]
      rfl

end

end Decoder

/-- The compact text of a value whose numbers are legible is read back as the ordered value when the
value fits, and refused otherwise. -/
theorem parse_compact {value : Json} (h : value.keepsNumbers = true) :
    parse value.compact =
      if value.depth ≤ depthLimit then .ok (Ordered.of value) else .error .malformed := by
  rw [parse, decodeText_compact Decoder.ordered h, Decoder.ordered, Decoder.value_sourceAt]
  split <;> rfl

end Beneficiary.Json
