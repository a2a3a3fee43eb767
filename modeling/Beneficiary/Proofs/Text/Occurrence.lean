import Mathlib
import Beneficiary.Text.Blank
import Beneficiary.Proofs.Text.Numeral

/-!
# Words within texts

A word that occurs in a text made of two stands in one of them or across the place where they meet.
It does not stand across when no beginning of the word ends the first text, or no end of the word
begins the second. So a fixed text around a quoted one adds no occurrence to those in the quotation.
-/

namespace Beneficiary.Text

/-- A word occurs in a text exactly when it is a block of it. -/
theorem occursIn_iff {word text : List Char} : occursIn word text = true ↔ word <:+: text := by
  induction text with
  | nil => simp [occursIn]
  | cons c cs ih => rw [occursIn, Bool.or_eq_true, List.isPrefixOf_iff_prefix, ih, List.infix_cons_iff]

/-- A word in two texts, one after the other, is in one of them or across their meeting. -/
theorem infix_append {word first second : List Char} (h : word <:+: first ++ second) :
    word <:+: first ∨ word <:+: second ∨
      ∃ start rest, word = start ++ rest ∧ start ≠ [] ∧ rest ≠ [] ∧ start <:+ first ∧
        rest <+: second := by
  obtain ⟨before, after, htext⟩ := h
  rw [List.append_assoc] at htext
  rcases List.append_eq_append_iff.mp htext with ⟨overlap, hfirst, hmeet⟩ | ⟨overlap, -, hsecond⟩
  · rcases List.append_eq_append_iff.mp hmeet with ⟨more, hoverlap, -⟩ | ⟨rest, hword, hsecond⟩
    · exact .inl ⟨before, more, by rw [hfirst, hoverlap, List.append_assoc]⟩
    · by_cases hstart : overlap = []
      · refine .inr (.inl ⟨[], after, ?_⟩)
        rw [hsecond, hword, hstart, List.nil_append, List.nil_append]
      by_cases hrest : rest = []
      · refine .inl ⟨before, [], ?_⟩
        rw [hfirst, hword, hrest, List.append_nil, List.append_nil]
      · exact .inr (.inr ⟨overlap, rest, hword, hstart, hrest, ⟨before, hfirst.symm⟩,
          ⟨after, hsecond.symm⟩⟩)
  · exact .inr (.inl ⟨overlap, after, by rw [hsecond, List.append_assoc]⟩)

/-- Whether no beginning of a word ends a text. -/
def endsApart (word text : List Char) : Bool :=
  word.inits.all fun start => start.isEmpty || !start.isSuffixOf text

/-- Whether no end of a word begins a text. -/
def startsApart (word text : List Char) : Bool :=
  word.tails.all fun rest => rest.isEmpty || !rest.isPrefixOf text

variable {word first second text : List Char}

private theorem endsApart_iff :
    endsApart word text = true ↔ ∀ start, start <+: word → start <:+ text → start = [] := by
  simp only [endsApart, List.all_eq_true, List.mem_inits, Bool.or_eq_true, List.isEmpty_iff,
    Bool.not_eq_true', ← Bool.not_eq_true, List.isSuffixOf_iff_suffix, or_iff_not_imp_right,
    not_not]

private theorem startsApart_iff :
    startsApart word text = true ↔ ∀ rest, rest <:+ word → rest <+: text → rest = [] := by
  simp only [startsApart, List.all_eq_true, List.mem_tails, Bool.or_eq_true, List.isEmpty_iff,
    Bool.not_eq_true', ← Bool.not_eq_true, List.isPrefixOf_iff_prefix, or_iff_not_imp_right,
    not_not]

/-- What ends a text decides it, when it is as long as the word. -/
theorem endsApart_append (h : endsApart word second = true) (hlength : word.length ≤ second.length)
    (first : List Char) : endsApart word (first ++ second) = true := by
  rw [endsApart_iff] at h ⊢
  intro start hstart htext
  have hle : start.length ≤ second.length := hstart.length_le.trans hlength
  exact h start hstart (List.suffix_of_suffix_length_le htext (List.suffix_append ..) hle)

/-- A text that begins with a character outside the word cannot continue it. -/
theorem startsApart_cons {c : Char} (h : c ∉ word) (text : List Char) :
    startsApart word (c :: text) = true := by
  rw [startsApart_iff]
  intro rest hrest hprefix
  cases rest with
  | nil => rfl
  | cons d ds =>
    obtain rfl := (List.cons_prefix_cons.mp hprefix).1
    exact absurd (hrest.subset List.mem_cons_self) h

private theorem occursIn_append
    (happart : ∀ start rest, word = start ++ rest → start <:+ first → rest <+: second →
      start = [] ∨ rest = []) :
    occursIn word (first ++ second) = (occursIn word first || occursIn word second) := by
  rw [Bool.eq_iff_iff, Bool.or_eq_true, occursIn_iff, occursIn_iff, occursIn_iff]
  constructor
  · intro h
    rcases infix_append h with hfirst | hsecond | ⟨start, rest, hword, hstart, hrest, hl, hr⟩
    · exact .inl hfirst
    · exact .inr hsecond
    · exact ((happart start rest hword hl hr).elim hstart hrest).elim
  · rintro (h | h)
    · exact h.trans (List.prefix_append ..).isInfix
    · exact h.trans (List.suffix_append ..).isInfix

/-- Nothing is added to a text by one before it that no beginning of the word ends. -/
theorem occursIn_append_of_endsApart (h : endsApart word first = true) (second : List Char) :
    occursIn word (first ++ second) = (occursIn word first || occursIn word second) := by
  apply occursIn_append
  rintro start rest rfl hstart -
  exact .inl (endsApart_iff.mp h start (List.prefix_append ..) hstart)

/-- Nothing is added to a text by one after it that no end of the word begins. -/
theorem occursIn_append_of_startsApart (h : startsApart word second = true) (first : List Char) :
    occursIn word (first ++ second) = (occursIn word first || occursIn word second) := by
  apply occursIn_append
  rintro start rest rfl - hrest
  exact .inr (startsApart_iff.mp h rest (List.suffix_append ..) hrest)

/-- A word is in a quotation and a text before it exactly when it is in one of them. -/
theorem contains_append {before word : String}
    (h : endsApart word.toList before.toList = true) (quoted : String) :
    contains (before ++ quoted) word = (contains before word || contains quoted word) := by
  unfold contains
  rw [String.toList_append, occursIn_append_of_endsApart h]

/-- A word in a text is in every text that goes on after it. -/
theorem contains_append_left {text word : String} (h : contains text word = true)
    (after : String) : contains (text ++ after) word = true := by
  rw [contains, occursIn_iff] at h ⊢
  rw [String.toList_append]
  exact h.trans (List.prefix_append ..).isInfix

/-- A word in a text is in every text that ends with it. -/
theorem contains_append_right {text word : String} (h : contains text word = true)
    (before : String) : contains (before ++ text) word = true := by
  rw [contains, occursIn_iff] at h ⊢
  rw [String.toList_append]
  exact h.trans (List.suffix_append ..).isInfix

/-- A word is in a text around a quotation exactly when it is in one of the three parts. -/
theorem contains_quoting {before after word : String}
    (hbefore : endsApart word.toList before.toList = true)
    (hafter : startsApart word.toList after.toList = true) (quoted : String) :
    contains (before ++ quoted ++ after) word =
      (contains before word || contains quoted word || contains after word) := by
  rw [← contains_append hbefore]
  unfold contains
  rw [String.toList_append, occursIn_append_of_startsApart hafter]

/-- A word that none of some texts holds is not in them joined, when the separator begins with a
character outside the word and ends with no beginning of it. -/
theorem contains_joined {c : Char} {separator word : String} (hfirst : c ∉ word.toList)
    (hseparator : separator.toList.head? = some c)
    (hapart : endsApart word.toList separator.toList = true) (hword : word ≠ "")
    (hfree : contains separator word = false) {texts : List String}
    (h : ∀ text ∈ texts, contains text word = false) :
    contains (joined separator texts) word = false := by
  induction texts with
  | nil => simpa [joined, contains, occursIn] using hword
  | cons text rest ih =>
    obtain ⟨htext, hrest⟩ := List.forall_mem_cons.mp h
    cases rest with
    | nil => exact htext
    | cons next others =>
      obtain ⟨more, hmore⟩ := List.head?_eq_some_iff.mp hseparator
      have hjoined := contains_append hapart (joined separator (next :: others))
      rw [hfree, ih hrest] at hjoined
      unfold contains at htext hjoined ⊢
      rw [joined, String.append_assoc, String.toList_append,
        occursIn_append_of_startsApart, htext, hjoined]
      · rfl
      · rw [String.toList_append, hmore]
        exact startsApart_cons hfirst _
      · simp

/-- The digits of a numeral are digits. -/
theorem isDigit_of_mem_decimal {n : Nat} {c : Char} (h : c ∈ decimal n) : isDigit c = true := by
  induction n using Nat.strong_induction_on with
  | _ n ih =>
    rw [decimal] at h
    have hdigit : ∀ k < 10, isDigit (digit k) = true := by decide
    by_cases hn : n < 10
    · rw [if_pos hn, List.mem_singleton] at h
      exact h ▸ hdigit n hn
    · rw [if_neg hn, List.mem_append, List.mem_singleton] at h
      rcases h with h | rfl
      · exact ih (n / 10) (by omega) h
      · exact hdigit _ (Nat.mod_lt n (by omega))

/-- A word with a character that is no digit is in no numeral. -/
theorem contains_decimalText {word : String} (h : word.toList.any (fun c => !isDigit c) = true)
    (n : Nat) : contains (decimalText n) word = false := by
  obtain ⟨c, hc, hdigit⟩ := List.any_eq_true.mp h
  rw [contains, decimalText, String.toList_ofList, ← Bool.not_eq_true, occursIn_iff]
  intro hword
  rw [isDigit_of_mem_decimal (hword.subset hc)] at hdigit
  cases hdigit

end Beneficiary.Text
