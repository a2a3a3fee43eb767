import Mathlib
import Beneficiary.Json.Printer
import Beneficiary.Json.Source
import Beneficiary.Proofs.Text.Digits

/-!
# Literals in JSON texts

A string is read back from the literal that was written for it, whatever its characters are. A
number literal is read up to the first character that cannot continue it, so what a number is read
back as does not depend on the text after it. Integers of sixty-four bits are read back as
themselves.
-/

namespace Beneficiary

open Text

namespace Json

/-- Four hexadecimal digits denote the number that they were written for. -/
theorem fourDigits?_hexadecimal {n : Nat} (h : n < 65536) :
    ∃ a b c d, hexadecimal 4 n = [a, b, c, d] ∧ fourDigits? a b c d = some n := by
  refine ⟨_, _, _, _, rfl, ?_⟩
  have hlow (m : Nat) : m % 16 < 16 := Nat.mod_lt m (by decide)
  simp only [fourDigits?, hexValue?_digit (hlow _), Option.some.injEq]
  omega

/-- A character inside a literal is read back as its code value. -/
theorem scanString_escaped (c : Char) (rest : List Char) :
    scanString (escaped c ++ rest) =
      (scanString rest).map fun (codes, after) => (c.toNat :: codes, after) := by
  unfold escaped
  split
  · next h => subst h; simp [scanString, escapeValue?]
  split
  · next h => subst h; simp [scanString, escapeValue?]
  split
  · next h => subst h; simp [scanString, escapeValue?]
  split
  · next h => subst h; simp [scanString, escapeValue?]
  split
  · next h => subst h; simp [scanString, escapeValue?]
  split
  · next h =>
    rw [h]
    simp [scanString, escapeValue?]
  split
  · next h =>
    rw [h]
    simp [scanString, escapeValue?]
  split
  · next h =>
    obtain ⟨x, y, z, w, hfour, hvalue⟩ := fourDigits?_hexadecimal (by omega : c.toNat < 65536)
    rw [hfour]
    simp [scanString, hvalue]
  · next hquote hbackslash _ _ _ _ _ hplain =>
    rw [List.singleton_append, scanString, if_neg hplain]
    · exact hquote
    · exact fun _ _ _ _ _ hc _ => hbackslash hc
    · exact fun _ _ hc _ => hbackslash hc

/-- A string inside its literal is read up to the closing quote. -/
theorem scanString_literal (cs rest : List Char) :
    scanString (cs.flatMap escaped ++ '"' :: rest) = some (cs.map Char.toNat, rest) := by
  induction cs with
  | nil => simp [scanString]
  | cons c cs ih =>
    rw [List.flatMap_cons, List.append_assoc, scanString_escaped, ih]
    rfl

/-- No character is half of a surrogate pair. -/
theorem not_isHalf (c : Char) : isHighHalf c.toNat = false ∧ isLowHalf c.toNat = false := by
  have hvalid : c.toNat < 0xD800 ∨ 0xDFFF < c.toNat ∧ c.toNat < 0x110000 := c.valid
  unfold isHighHalf isLowHalf
  constructor
  · rw [Bool.and_eq_false_iff, decide_eq_false_iff_not, decide_eq_false_iff_not]
    omega
  · rw [Bool.and_eq_false_iff, decide_eq_false_iff_not, decide_eq_false_iff_not]
    omega

/-- The code values of characters give the characters. -/
theorem joinHalves_toNat (cs : List Char) : joinHalves (cs.map Char.toNat) = some cs := by
  induction cs with
  | nil => rfl
  | cons c cs ih =>
    obtain ⟨hhigh, hlow⟩ := not_isHalf c
    cases cs with
    | nil => simp [joinHalves, hhigh, hlow, Char.ofNat_toNat]
    | cons d cs =>
      rw [List.map_cons] at ih
      simp only [List.map_cons, joinHalves, hhigh, hlow, ih, Char.ofNat_toNat, Option.map_some,
        Bool.false_eq_true, if_false]

/-- A string is read back from its literal. -/
theorem readString_quoted (s : String) (rest : List Char) :
    ∃ literal, quoted s ++ rest = '"' :: literal ∧ readString literal = some (some s, rest) := by
  refine ⟨s.toList.flatMap escaped ++ '"' :: rest, by simp [quoted], ?_⟩
  simp only [readString, scanString_literal, Option.map_some, joinHalves_toNat,
    String.ofList_toList]

/-- A text that goes on neither with a digit nor with a point nor with an exponent. -/
def endsNumber : List Char → Bool
  | [] => true
  | c :: _ => !isDigit c && c != '.' && c != 'e' && c != 'E'

/-- Before a text that ends numbers no digit is added. -/
theorem endsDigits_of_endsNumber {rest : List Char} (h : endsNumber rest = true) :
    endsDigits rest = true := by
  cases rest with
  | nil => rfl
  | cons c cs =>
    simp only [endsNumber, Bool.and_eq_true] at h
    exact h.1.1.1

/-- No exponent starts a text that ends numbers. -/
theorem startsExponent_of_endsNumber {rest : List Char} (h : endsNumber rest = true) :
    startsExponent rest = false := by
  cases rest with
  | nil => rfl
  | cons c cs =>
    simp only [endsNumber, Bool.and_eq_true, bne_iff_ne] at h
    simp [startsExponent, h.1.2, h.2]

-- Whether a minus sign starts a text, and the text after a sign.
private def afterSign : List Char → Bool × List Char
  | '-' :: ds => (true, ds)
  | '+' :: ds => (false, ds)
  | ds => (false, ds)

private theorem afterSign_append {cs : List Char} (h : cs ≠ []) (rest : List Char) :
    afterSign (cs ++ rest) = ((afterSign cs).1, (afterSign cs).2 ++ rest) := by
  match cs with
  | '-' :: ds => rfl
  | '+' :: ds => rfl
  | d :: ds =>
    unfold afterSign
    split <;> simp_all

private theorem readExponent_cons {c : Char} (hc : c = 'e' ∨ c = 'E') (cs : List Char) :
    readExponent (c :: cs) =
      if (takeDigits none (afterSign cs).2).1.isEmpty then none
      else
        some (if (afterSign cs).1 then -(digitsValue (takeDigits none (afterSign cs).2).1 : Int)
          else digitsValue (takeDigits none (afterSign cs).2).1,
          (takeDigits none (afterSign cs).2).2) := by
  simp only [readExponent, if_pos hc]
  rfl

/-- The exponent that starts a text is the same before a text that ends numbers. -/
theorem readExponent_append {cs after rest : List Char} {e : Int} (hrest : endsNumber rest = true)
    (h : readExponent cs = some (e, after)) :
    readExponent (cs ++ rest) = some (e, after ++ rest) := by
  have hletter := startsExponent_of_endsNumber hrest
  cases cs with
  | nil =>
    cases h
    cases rest with
    | nil => rfl
    | cons c rest =>
      simp only [startsExponent, Bool.or_eq_false_iff, decide_eq_false_iff_not] at hletter
      simp [readExponent, hletter]
  | cons c cs =>
    rw [List.cons_append]
    by_cases hc : c = 'e' ∨ c = 'E'
    · have hne : cs ≠ [] := by
        rintro rfl
        simp [readExponent, hc, takeDigits] at h
      rw [readExponent_cons hc] at h ⊢
      rw [afterSign_append hne, takeDigits_append _ (endsDigits_of_endsNumber hrest)]
      split at h
      · cases h
      · next hdigits =>
        cases h
        rw [if_neg hdigits]
    · simp only [readExponent, if_neg hc] at h ⊢
      cases h
      rfl

private theorem tail_append (tail : List Char) {rest : List Char}
    (hrest : endsNumber rest = true) :
    startsExponent (tail ++ rest) = startsExponent tail ∧
      ∀ more, tail ++ rest = '.' :: more → ∃ fraction, tail = '.' :: fraction := by
  cases tail with
  | nil =>
    rw [List.nil_append]
    refine ⟨startsExponent_of_endsNumber hrest, ?_⟩
    rintro more rfl
    cases hrest
  | cons c tail =>
    refine ⟨rfl, ?_⟩
    rintro more h
    cases h
    exact ⟨tail, rfl⟩

/-- The number that starts a text is the same before a text that ends numbers. -/
theorem readNumber_append {negative : Bool} {cs after rest : List Char} {n : Option Number}
    (hrest : endsNumber rest = true) (h : readNumber negative cs = some (n, after)) :
    readNumber negative (cs ++ rest) = some (n, after ++ rest) := by
  have hdigits := endsDigits_of_endsNumber hrest
  unfold readNumber at h ⊢
  rw [takeDigits_append cs hdigits]
  generalize takeDigits none cs = parts at h ⊢
  obtain ⟨whole, tail⟩ := parts
  simp only [Option.ite_none_left_eq_some] at h ⊢
  refine ⟨h.1, ?_⟩
  replace h := h.2
  split at h
  · next fraction =>
    simp only [List.cons_append, takeDigits_append fraction hdigits,
      Option.ite_none_left_eq_some, Option.map_eq_some_iff] at h ⊢
    obtain ⟨hfraction, ⟨e, left⟩, hexponent, hnumber⟩ := h
    cases hnumber
    exact ⟨hfraction, _, readExponent_append hrest hexponent, rfl⟩
  · next hpoint =>
    obtain ⟨hexponent, hnopoint⟩ := tail_append tail hrest
    split
    · next more heq =>
      obtain ⟨fraction, htail⟩ := hnopoint more heq
      exact (hpoint fraction htail).elim
    · rw [hexponent]
      split at h
      · next hstarts =>
        rw [if_pos hstarts]
        simp only [Option.map_eq_some_iff] at h ⊢
        obtain ⟨⟨e, left⟩, hread, hnumber⟩ := h
        cases hnumber
        exact ⟨_, readExponent_append hrest hread, rfl⟩
      · next hstarts =>
        rw [if_neg hstarts]
        rw [ite_eq_iff] at h ⊢
        obtain ⟨hinteger, h⟩ | ⟨hinteger, h⟩ := h
        · cases h
          exact .inl ⟨hinteger, rfl⟩
        · cases h
          exact .inr ⟨hinteger, rfl⟩

/-- The numeral of a natural number is read as an integer with the sign before it, unless it is a
negative zero or the integer takes more than sixty-four bits. -/
theorem readNumber_decimal {negative : Bool} {n : Nat} {z : Int}
    (hz : z = if negative then -(n : Int) else n) (hzero : ¬(negative ∧ n = 0))
    (hleast : leastInteger ≤ z) (hgreatest : z ≤ greatestInteger) :
    readNumber negative (decimal n) = some (some (.integer z), []) := by
  have hleading : ∀ c more, decimal n ≠ '0' :: c :: more := by
    intro c more h
    by_cases hn : n = 0
    · subst hn
      simp [decimal, digit] at h
    · exact decimal_head_ne_zero hn (by rw [h]; rfl)
  unfold readNumber
  rw [takeDigits_decimal]
  simp only [Option.ite_none_left_eq_some, digitsValue_decimal, ← hz, startsExponent]
  constructor
  · simp [decimal_ne_nil]
  · rw [if_neg Bool.false_ne_true, if_pos ⟨hleast, hgreatest, hzero⟩]

/-- A number with its sign. -/
def readSigned : List Char → Option (Option Number × List Char)
  | '-' :: rest => readNumber true rest
  | rest => readNumber false rest

/-- A number without its sign starts with a digit. -/
theorem isDigit_of_readNumber {negative : Bool} {cs after : List Char} {n : Option Number}
    (h : readNumber negative cs = some (n, after)) :
    ∃ c rest, cs = c :: rest ∧ isDigit c = true := by
  unfold readNumber at h
  simp only [Option.ite_none_left_eq_some, Bool.or_eq_true, not_or] at h
  have hwhole := h.1.1
  cases cs with
  | nil => simp [takeDigits] at hwhole
  | cons c rest =>
    refine ⟨c, rest, rfl, ?_⟩
    by_contra hdigit
    simp [takeDigits, hdigit] at hwhole

private theorem readSigned_of_digit {c : Char} (h : isDigit c = true) (cs : List Char) :
    readSigned (c :: cs) = readNumber false (c :: cs) := by
  unfold readSigned
  split
  · next heq =>
    cases heq
    cases h
  · rfl

/-- Whether the text of a number is read back as the number. -/
def Number.isLegible (n : Number) : Bool := readSigned n.text.toList == some (some n, [])

/-- The text of a legible number is read back as the number before a text that ends numbers. -/
theorem readSigned_text {n : Number} (h : n.isLegible = true) {rest : List Char}
    (hrest : endsNumber rest = true) :
    readSigned (n.text.toList ++ rest) = some (some n, rest) := by
  rw [Number.isLegible, beq_iff_eq] at h
  unfold readSigned at h
  split at h
  · next ds htext =>
    rw [htext]
    exact readNumber_append hrest h
  · obtain ⟨c, ds, htext, hdigit⟩ := isDigit_of_readNumber h
    have happend := readNumber_append hrest h
    rw [htext, List.cons_append] at happend ⊢
    rw [readSigned_of_digit hdigit]
    exact happend

/-- Integers of sixty-four bits are legible. -/
theorem Number.isLegible_integer {z : Int} (hleast : leastInteger ≤ z)
    (hgreatest : z ≤ greatestInteger) : (Number.integer z).isLegible = true := by
  rw [Number.isLegible, beq_iff_eq, Number.text, integerText]
  split
  · next hneg =>
    rw [String.toList_ofList]
    refine readNumber_decimal ?_ ?_ hleast hgreatest
    · rw [if_pos rfl]
      omega
    · omega
  · next hneg =>
    rw [decimalText, String.toList_ofList]
    have hread : readNumber false (decimal z.natAbs) = some (some (.integer z), []) := by
      refine readNumber_decimal ?_ (by simp) hleast hgreatest
      rw [if_neg Bool.false_ne_true]
      omega
    obtain ⟨c, ds, htext, hdigit⟩ := isDigit_of_readNumber hread
    rw [htext] at hread ⊢
    rw [readSigned_of_digit hdigit]
    exact hread

end Json

end Beneficiary
