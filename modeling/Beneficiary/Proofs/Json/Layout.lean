import Mathlib
import Beneficiary.Json.Printer
import Beneficiary.Json.Source
import Beneficiary.Proofs.Json.Numerals
import Beneficiary.Proofs.Uuid

/-!
# Texts up to their layout

White space between the tokens of a JSON text carries no meaning; in a string literal it is part of
the string. A value written over several lines and the same value written compactly differ in such
white space only: the compact text is what is left of the other when its layout is dropped.
-/

namespace Beneficiary.Json

open Text

/-- Where a reader of a JSON text stands. -/
inductive Place where
  /-- Outside of string literals. -/
  | between
  /-- In a string literal. -/
  | literal
  /-- In a string literal after a backslash, where a quote does not close it. -/
  | escape
deriving DecidableEq, Repr

/-- The place after a character that stands for itself. -/
def Place.next : Place → Char → Place
  | between, c => if c = '"' then literal else between
  | literal, c => if c = '"' then between else if c = '\\' then escape else literal
  | escape, _ => literal

/-- A text from a place on, without the white space between tokens. -/
def dropLayout : Place → List Char → List Char
  | _, [] => []
  | place, c :: rest =>
    if place = .between ∧ isSpace c = true then dropLayout place rest
    else c :: dropLayout (place.next c) rest

/-- A text without the white space between tokens. -/
def withoutLayout (text : String) : String := String.ofList (dropLayout .between text.toList)

/-- A character that is no layout is kept. -/
theorem dropLayout_cons {place : Place} {c : Char} (h : ¬ (place = .between ∧ isSpace c = true))
    (rest : List Char) : dropLayout place (c :: rest) = c :: dropLayout (place.next c) rest := by
  rw [dropLayout, if_neg h]

private theorem dropLayout_literal (c : Char) (rest : List Char) :
    dropLayout .literal (c :: rest) = c :: dropLayout (Place.next .literal c) rest :=
  dropLayout_cons (by simp) rest

/-- White space between tokens is dropped. -/
theorem dropLayout_blanks {blanks : List Char} (h : ∀ c ∈ blanks, isSpace c = true)
    (rest : List Char) : dropLayout .between (blanks ++ rest) = dropLayout .between rest := by
  induction blanks with
  | nil => rfl
  | cons c blanks ih =>
    obtain ⟨hc, hblanks⟩ := List.forall_mem_cons.mp h
    rw [List.cons_append, dropLayout, if_pos ⟨rfl, hc⟩, ih hblanks]

/-- A token without white space and quotes is kept. -/
theorem dropLayout_token (token : List Char) (h : ∀ c ∈ token, isSpace c = false ∧ c ≠ '"')
    (rest : List Char) :
    dropLayout .between (token ++ rest) = token ++ dropLayout .between rest := by
  induction token with
  | nil => rfl
  | cons c token ih =>
    obtain ⟨⟨hspace, hquote⟩, htoken⟩ := List.forall_mem_cons.mp h
    have hnext : Place.next .between c = .between := if_neg hquote
    rw [List.cons_append, dropLayout_cons (by simp [hspace]), hnext, ih htoken, List.cons_append]

private theorem dropLayout_lineBreak (level : Nat) (rest : List Char) :
    dropLayout .between (lineBreak level ++ rest) = dropLayout .between rest := by
  apply dropLayout_blanks
  rw [lineBreak, List.forall_mem_cons]
  exact ⟨rfl, fun c hc => (List.eq_of_mem_replicate hc) ▸ rfl⟩

/-- A number is a token. -/
theorem dropLayout_number (n : Number) (rest : List Char) :
    dropLayout .between (n.text.toList ++ rest) = n.text.toList ++ dropLayout .between rest := by
  apply dropLayout_token
  intro c hc
  rcases n.isNumeral_text.mem hc with hdigit | hmark
  · constructor
    · rw [Bool.eq_false_iff]
      intro hspace
      simp only [isSpace, Bool.or_eq_true, decide_eq_true_eq] at hspace
      rcases hspace with ((rfl | rfl) | rfl) | rfl <;> revert hdigit <;> decide
    · rintro rfl
      revert hdigit
      decide
  · simp only [List.mem_cons, List.not_mem_nil, or_false] at hmark
    rcases hmark with rfl | rfl | rfl | rfl <;> decide

/-- In a string literal all characters up to a quote or backslash are kept. -/
theorem dropLayout_plain {cs : List Char} (h : ∀ c ∈ cs, c ≠ '"' ∧ c ≠ '\\') (rest : List Char) :
    dropLayout .literal (cs ++ rest) = cs ++ dropLayout .literal rest := by
  induction cs with
  | nil => rfl
  | cons c cs ih =>
    obtain ⟨⟨hquote, hbackslash⟩, hcs⟩ := List.forall_mem_cons.mp h
    have hnext : Place.next .literal c = .literal := by
      rw [Place.next, if_neg hquote, if_neg hbackslash]
    rw [List.cons_append, dropLayout_literal, hnext, ih hcs, List.cons_append]

private theorem dropLayout_escape (c : Char) (rest : List Char) :
    dropLayout .literal ('\\' :: c :: rest) = '\\' :: c :: dropLayout .literal rest := by
  rw [dropLayout_literal]
  exact congrArg _ (dropLayout_cons (by simp [Place.next]) rest)

/-- A character inside a string literal is kept as it is written. -/
theorem dropLayout_escaped (c : Char) (rest : List Char) :
    dropLayout .literal (escaped c ++ rest) = escaped c ++ dropLayout .literal rest := by
  unfold escaped
  split
  · exact dropLayout_escape _ _
  split
  · exact dropLayout_escape _ _
  iterate 5
    split
    · exact dropLayout_escape _ _
  split
  · have hhexadecimal : ∀ d ∈ hexadecimal 4 c.toNat, d ≠ '"' ∧ d ≠ '\\' := by
      intro d hd
      obtain ⟨n, hn, rfl⟩ := exists_digit_of_mem_hexadecimal hd
      interval_cases n <;> decide
    rw [List.cons_append, List.cons_append, dropLayout_escape, dropLayout_plain hhexadecimal]
    rfl
  · next hquote hbackslash _ _ _ _ _ _ =>
    exact dropLayout_plain (List.forall_mem_singleton.mpr ⟨hquote, hbackslash⟩) rest

/-- A string literal is kept. -/
theorem dropLayout_quoted (s : String) (rest : List Char) :
    dropLayout .between (quoted s ++ rest) = quoted s ++ dropLayout .between rest := by
  have hinside (cs : List Char) : dropLayout .literal (cs.flatMap escaped ++ '"' :: rest) =
      cs.flatMap escaped ++ '"' :: dropLayout .between rest := by
    induction cs with
    | nil => exact dropLayout_literal '"' rest
    | cons c cs ih =>
      rw [List.flatMap_cons, List.append_assoc, dropLayout_escaped, ih, List.append_assoc]
  have hopen (cs : List Char) :
      dropLayout .between ('"' :: cs) = '"' :: dropLayout .literal cs :=
    dropLayout_cons (by decide) cs
  rw [quoted, List.cons_append, List.cons_append, List.append_assoc, hopen, List.singleton_append,
    hinside, List.cons_append, List.append_assoc, List.singleton_append]

/-- The compact items of an array are the first and each further one after a comma. -/
theorem renderItems_cons (item : Json) (items : List Json) :
    renderItems (item :: items) = render item ++ items.flatMap fun next => ',' :: render next := by
  induction items generalizing item with
  | nil => exact (List.append_nil _).symm
  | cons next items ih => rw [renderItems, ih, List.flatMap_cons, List.cons_append]

/-- The compact fields of an object are the first and each further one after a comma. -/
theorem renderFields_cons (name : String) (value : Json) (fields : List (String × Json)) :
    renderFields ((name, value) :: fields) =
      quoted name ++ ':' :: render value ++
        fields.flatMap fun next => ',' :: (quoted next.1 ++ ':' :: render next.2) := by
  induction fields generalizing name value with
  | nil => exact (List.append_nil _).symm
  | cons next fields ih =>
    obtain ⟨nextName, nextValue⟩ := next
    rw [renderFields, ih, List.flatMap_cons]
    simp only [List.append_assoc, List.cons_append]

private theorem dropLayout_space (rest : List Char) :
    dropLayout .between (' ' :: rest) = dropLayout .between rest :=
  dropLayout_blanks (List.forall_mem_singleton.mpr rfl) rest

private theorem dropLayout_mark {c : Char} (hspace : isSpace c = false) (hquote : c ≠ '"')
    (rest : List Char) : dropLayout .between (c :: rest) = c :: dropLayout .between rest :=
  dropLayout_token [c] (List.forall_mem_singleton.mpr ⟨hspace, hquote⟩) rest

mutual

/-- A value over several lines is the compact one once its layout is dropped. -/
theorem dropLayout_renderLines : ∀ (value : Json) (level : Nat) (rest : List Char),
    dropLayout .between (renderLines level value ++ rest) =
      render value ++ dropLayout .between rest
  | .null, _, rest => dropLayout_token ['n', 'u', 'l', 'l'] (by simp [isSpace]) rest
  | .bool true, _, rest => dropLayout_token ['t', 'r', 'u', 'e'] (by simp [isSpace]) rest
  | .bool false, _, rest => dropLayout_token ['f', 'a', 'l', 's', 'e'] (by simp [isSpace]) rest
  | .number n, _, rest => dropLayout_number n rest
  | .string s, _, rest => dropLayout_quoted s rest
  | .array [], _, rest => dropLayout_token ['[', ']'] (by simp [isSpace]) rest
  | .object [], _, rest => dropLayout_token ['{', '}'] (by simp [isSpace]) rest
  | .array (item :: items), level, rest => by
    rw [renderLines, render, renderItems_cons]
    simp only [List.append_assoc, List.cons_append, List.nil_append]
    rw [dropLayout_mark rfl (by decide), dropLayout_lineBreak, dropLayout_renderLines item,
      dropLayout_renderMoreItems items, dropLayout_lineBreak, dropLayout_mark rfl (by decide)]
  | .object ((name, value) :: fields), level, rest => by
    rw [renderLines, render, renderFields_cons]
    simp only [List.append_assoc, List.cons_append, List.nil_append]
    rw [dropLayout_mark rfl (by decide), dropLayout_lineBreak, dropLayout_quoted,
      dropLayout_mark rfl (by decide), dropLayout_space, dropLayout_renderLines value,
      dropLayout_renderMoreFields fields, dropLayout_lineBreak, dropLayout_mark rfl (by decide)]

/-- The further items of an array are the compact ones once their layout is dropped. -/
theorem dropLayout_renderMoreItems : ∀ (items : List Json) (level : Nat) (rest : List Char),
    dropLayout .between (renderMoreItems level items ++ rest) =
      (items.flatMap fun next => ',' :: render next) ++ dropLayout .between rest
  | [], _, _ => rfl
  | item :: items, level, rest => by
    rw [renderMoreItems, List.flatMap_cons]
    simp only [List.append_assoc, List.cons_append]
    rw [dropLayout_mark rfl (by decide), dropLayout_lineBreak, dropLayout_renderLines item,
      dropLayout_renderMoreItems items]

/-- The further fields of an object are the compact ones once their layout is dropped. -/
theorem dropLayout_renderMoreFields : ∀ (fields : List (String × Json)) (level : Nat)
    (rest : List Char),
    dropLayout .between (renderMoreFields level fields ++ rest) =
      (fields.flatMap fun next => ',' :: (quoted next.1 ++ ':' :: render next.2)) ++
        dropLayout .between rest
  | [], _, _ => rfl
  | (name, value) :: fields, level, rest => by
    rw [renderMoreFields, List.flatMap_cons]
    simp only [List.append_assoc, List.cons_append]
    rw [dropLayout_mark rfl (by decide), dropLayout_lineBreak, dropLayout_quoted,
      dropLayout_mark rfl (by decide), dropLayout_space, dropLayout_renderLines value,
      dropLayout_renderMoreFields fields]

end

/-- The compact text of a value is its text over several lines without the layout. -/
theorem withoutLayout_pretty (value : Json) :
    withoutLayout (value.pretty ++ "\n") = value.compact := by
  rw [withoutLayout, pretty, compact, String.toList_append, String.toList_ofList,
    dropLayout_renderLines]
  exact congrArg String.ofList (List.append_nil _)

end Beneficiary.Json
