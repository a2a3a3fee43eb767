import Beneficiary.Field.Value
import Beneficiary.Proofs.Calendar.Timestamps
import Beneficiary.Proofs.Json.Text
import Beneficiary.Proofs.Store.Rows
import Beneficiary.Proofs.Wire.Registry

/-!
# The readers of dates

A date is written in one way and read in several: from a column of the store, from a rule argument or
a stored attribute, where white space may stand around it, and from the wire. Each of them gives back
the date that was written, whatever its year. Arguments and attributes may also be timestamps, and
then the date is the one in the text.
-/

namespace Beneficiary

open Text

private theorem isBlank_of_mem_zeroPadded {width n : Nat} {c : Char}
    (hc : c ∈ zeroPadded width (decimal n)) : isBlank c = false :=
  isBlank_of_isDigit (isDigit_of_mem_zeroPadded hc)

/-- No white space stands in a year. -/
theorem Date.isBlank_of_mem_yearText {year : Int} {c : Char} (hc : c ∈ yearText year) :
    isBlank c = false := by
  unfold yearText at hc
  dsimp only at hc
  split at hc
  · rcases List.mem_cons.mp hc with rfl | hc
    · rfl
    · exact isBlank_of_mem_zeroPadded hc
  split at hc
  · rcases List.mem_cons.mp hc with rfl | hc
    · rfl
    · exact isBlank_of_mem_zeroPadded hc
  · exact isBlank_of_mem_zeroPadded hc

/-- No white space stands in a date. -/
theorem Date.isBlank_of_mem_toChars {d : Date} {c : Char} (hc : c ∈ d.toChars) :
    isBlank c = false := by
  simp only [toChars, List.append_assoc, List.cons_append, List.mem_append, List.mem_cons] at hc
  rcases hc with hc | rfl | hc | rfl | hc
  · exact isBlank_of_mem_yearText hc
  · rfl
  · exact isBlank_of_mem_zeroPadded hc
  · rfl
  · exact isBlank_of_mem_zeroPadded hc

/-- No white space stands in an offset. -/
theorem WrittenOffset.isBlank_of_mem_toChars {offset : WrittenOffset} {c : Char}
    (hc : c ∈ offset.toChars) : isBlank c = false := by
  cases offset with
  | zero letter isLetter =>
    obtain rfl := List.mem_singleton.mp hc
    rcases isLetter with rfl | rfl <;> rfl
  | away sign hours minutes isSign =>
    simp only [toChars, List.mem_append, List.mem_cons] at hc
    rcases hc with rfl | hc | rfl | hc
    · rcases isSign with rfl | rfl | rfl <;> rfl
    · exact isBlank_of_mem_zeroPadded hc
    · rfl
    · exact isBlank_of_mem_zeroPadded hc

/-- A timestamp starts with its date and ends with its offset. -/
theorem Timestamp.exists_toChars_eq (t : Timestamp) :
    ∃ middle, t.toChars = t.date.toChars ++ (middle ++ t.offset.toChars) :=
  ⟨t.mark :: (zeroPadded 2 (decimal t.hour) ++ ':' :: (zeroPadded 2 (decimal t.minute) ++
    ':' :: (zeroPadded 2 (decimal t.second) ++ fractionChars t.fraction))),
    by simp only [toChars, List.append_assoc, List.cons_append]⟩

section

variable {before after : String} (hbefore : isBlankText before = true)
  (hafter : isBlankText after = true)
include hbefore hafter

/-- Trimming takes white space off a date. -/
theorem Date.trim_text (d : Date) : trim (before ++ d.text ++ after).toList = d.toChars := by
  rw [String.toList_append, String.toList_append, text, String.toList_ofList]
  exact trim_surrounded _ _ _ (List.all_eq_true.mp hbefore) (List.all_eq_true.mp hafter)
    (fun _ hc => isBlank_of_mem_toChars (List.mem_of_mem_head? hc))
    fun _ hc => isBlank_of_mem_toChars (List.mem_of_mem_getLast? hc)

/-- Trimming takes white space off a timestamp, and leaves that which may stand for its mark. -/
theorem Timestamp.trim_text (t : Timestamp) :
    trim (before ++ t.text ++ after).toList = t.toChars := by
  obtain ⟨middle, htext⟩ := t.exists_toChars_eq
  have hstart : t.date.toChars ≠ [] := by simp [Date.toChars]
  have hend : t.offset.toChars ≠ [] := by cases t.offset <;> simp [WrittenOffset.toChars]
  rw [String.toList_append, String.toList_append, text, String.toList_ofList, htext]
  refine trim_surrounded _ _ _ (List.all_eq_true.mp hbefore) (List.all_eq_true.mp hafter) ?_ ?_
  · intro c hc
    rw [List.head?_append_of_ne_nil _ hstart] at hc
    exact Date.isBlank_of_mem_toChars (List.mem_of_mem_head? hc)
  · intro c hc
    rw [← List.append_assoc, List.getLast?_append_of_ne_nil _ hend] at hc
    exact WrittenOffset.isBlank_of_mem_toChars (List.mem_of_mem_getLast? hc)

/-- A date is read back from its text with white space around it. -/
theorem Value.readDate?_date (d : Date) : readDate? (before ++ d.text ++ after) = some d := by
  unfold readDate?
  rw [d.trim_text hbefore hafter]
  dsimp only
  rw [d.ofPlain?_toChars]
  rfl

/-- The date of a timestamp is read as it is written, white space around the text aside. The plain
form is tried first and does not take the timestamp for a date. -/
theorem Value.readDate?_timestamp (t : Timestamp) :
    readDate? (before ++ t.text ++ after) = some t.date := by
  unfold readDate?
  rw [t.trim_text hbefore hafter]
  dsimp only
  rw [t.ofPlain?_toChars, t.ofTimestamp?_toChars]
  rfl

end

/-- Different dates have different texts. -/
theorem Date.text_injective : Function.Injective Date.text := by
  intro d e h
  have hchars : d.toChars = e.toChars := String.ofList_injective h
  exact Option.some.inj (by rw [← d.ofPlain?_toChars, hchars, e.ofPlain?_toChars])

/-- Every reader gives back the date whose text it is given: the store from the column that holds the
text, the wire from the JSON string of it, and the readers of rule arguments and of stored attributes,
with any white space around it. Different dates have different texts. The readers of arguments and
attributes give the date that is written in a timestamp, whatever its time and offset. -/
theorem Date.text_read_by_all :
    (∀ d : Date, (Cell.ofDate d).date? = some (some d)) ∧
    (∀ d : Date, Json.decodeText decoder (Json.string d.text).compact = .ok d) ∧
    (∀ (d : Date) (before after : String), isBlankText before = true → isBlankText after = true →
      Value.ofArgument? .date (before ++ d.text ++ after) = some (.date d) ∧
      Value.ofStored? .date (.string (before ++ d.text ++ after)) = some (.date d)) ∧
    (∀ d e : Date, d.text = e.text → d = e) ∧
    ∀ (t : Timestamp) (before after : String),
      isBlankText before = true → isBlankText after = true →
      Value.ofArgument? .date (before ++ t.text ++ after) = some (.date t.date) ∧
      Value.ofStored? .date (.string (before ++ t.text ++ after)) = some (.date t.date) := by
  refine ⟨?_, ?_, ?_, fun d e h => text_injective h, ?_⟩
  · intro d
    exact Cell.date?_ofOption (some d)
  · intro d
    rw [Json.decodeText_compact_of_fits _ (Json.fitsIn_string _ _)]
    exact reads d _ (.inl rfl)
  · intro d before after hbefore hafter
    have hread := congrArg (Option.map Value.date) (Value.readDate?_date hbefore hafter d)
    exact ⟨hread, hread⟩
  · intro t before after hbefore hafter
    have hread := congrArg (Option.map Value.date) (Value.readDate?_timestamp hbefore hafter t)
    exact ⟨hread, hread⟩

/-- A date before the first year. -/
def ancientDate : Date := ⟨-44, 3, 15, by decide⟩

/-- A leap second on 29 February, at which 1 March has begun at the zero offset. -/
def leapTimestamp : Timestamp :=
  { date := ⟨2024, 2, 29, by decide⟩
    mark := ' ', hour := 23, minute := 59, second := 60, fraction := decimal 25
    offset := .away '-' 23 59 (by decide) (by decide) (by decide)
    year_range := by decide, isMark := by decide, hour_lt := by decide, minute_lt := by decide
    second_le := by decide, isDigit_fraction := fun _ => isDigit_of_mem_decimal }

/-- A date with a sign is read from the wire and, with white space around it, from an argument. The
date of the leap second is not that of the moment at the zero offset. -/
theorem ancientDate_read :
    Json.decodeText Date.decoder "\"-0044-03-15\"" = .ok ancientDate ∧
      Value.ofArgument? .date "\t-0044-03-15 " = some (.date ancientDate) ∧
      leapTimestamp.text = "2024-02-29 23:59:60.25-23:59" ∧
      Value.ofArgument? .date " 2024-02-29 23:59:60.25-23:59\n" =
        some (.date ⟨2024, 2, 29, by decide⟩) := by
  obtain ⟨-, hwire, hread, -, htimestamp⟩ := Date.text_read_by_all
  have htext : ancientDate.text = "-0044-03-15" := by decide +kernel
  have hjson : (Json.string ancientDate.text).compact = "\"-0044-03-15\"" := by decide +kernel
  have htimestampText : leapTimestamp.text = "2024-02-29 23:59:60.25-23:59" := by decide +kernel
  have hdate := (hread ancientDate "\t" " " (by decide) (by decide)).1
  have hleap := (htimestamp leapTimestamp " " "\n" (by decide) (by decide)).1
  rw [htext] at hdate
  rw [htimestampText] at hleap
  exact ⟨hjson ▸ hwire ancientDate, hdate, htimestampText, hleap⟩

end Beneficiary
