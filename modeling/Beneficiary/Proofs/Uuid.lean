import Mathlib
import Beneficiary.Proofs.Text.Digits
import Beneficiary.Proofs.Text.Pieces
import Beneficiary.Uuid

/-!
# Identifiers read back

The hyphenated form shows the lowest 128 bits of an identifier. An identifier of no more bits is
read back from it, and whatever form a text has, an identifier that it denotes has no more.
-/

namespace Beneficiary

open Text

namespace Text

/-- As many hexadecimal digits are written as are asked for. -/
@[simp]
theorem length_hexadecimal (width n : Nat) : (hexadecimal width n).length = width := by
  induction width generalizing n with
  | zero => rfl
  | succ width ih => rw [hexadecimal, List.length_append, ih, List.length_singleton]

/-- Hexadecimal digits are written for values below sixteen. -/
theorem exists_digit_of_mem_hexadecimal {width n : Nat} {c : Char} (h : c ∈ hexadecimal width n) :
    ∃ v < 16, c = digit v := by
  induction width generalizing n with
  | zero => cases h
  | succ width ih =>
    rw [hexadecimal, List.mem_append, List.mem_singleton] at h
    rcases h with h | rfl
    · exact ih h
    · exact ⟨n % 16, Nat.mod_lt n (by decide), rfl⟩

/-- The number that hexadecimal digits of given values denote. -/
def hexNumber (values : List Nat) : Nat := values.foldl (fun n v => 16 * n + v) 0

/-- The lowest hexadecimal digits of a number denote its remainder. -/
theorem exists_values_hexadecimal (width n : Nat) :
    ∃ values, (hexadecimal width n).mapM hexValue? = some values ∧
      hexNumber values = n % 16 ^ width := by
  induction width generalizing n with
  | zero => exact ⟨[], rfl, (Nat.mod_one n).symm⟩
  | succ width ih =>
    obtain ⟨values, hvalues, hnumber⟩ := ih (n / 16)
    have hlast : hexValue? (digit (n % 16)) = some (n % 16) :=
      hexValue?_digit (Nat.mod_lt n (by decide))
    refine ⟨values ++ [n % 16], ?_, ?_⟩
    · simp [hexadecimal, List.mapM_append, hvalues, hlast]
    · have hconcat : hexNumber (values ++ [n % 16]) = 16 * hexNumber values + n % 16 := by
        simp [hexNumber]
      rw [hconcat, hnumber, pow_succ', Nat.mod_mul, Nat.add_comm]

/-- A hexadecimal digit has a value below sixteen. -/
theorem hexValue?_lt {c : Char} {v : Nat} (h : hexValue? c = some v) : v < 16 := by
  unfold hexValue? at h
  split at h
  · next hc =>
    have hlast : c.toNat ≤ 57 := hc.2
    obtain rfl := Option.some.inj h
    omega
  · split at h
    · next hc =>
      have hlast : c.toNat ≤ 102 := hc.2
      obtain rfl := Option.some.inj h
      omega
    · split at h
      · next hc =>
        have hlast : c.toNat ≤ 70 := hc.2
        obtain rfl := Option.some.inj h
        omega
      · cases h

private theorem foldl_hex_lt {cs : List Char} {values : List Nat} (start : Nat)
    (h : cs.mapM hexValue? = some values) :
    values.foldl (fun n v => 16 * n + v) start < (start + 1) * 16 ^ cs.length := by
  induction cs generalizing values start with
  | nil =>
    obtain rfl : [] = values := by simpa using h
    simp
  | cons c cs ih =>
    simp only [List.mapM_cons, Option.bind_eq_bind, Option.bind_eq_some_iff] at h
    obtain ⟨v, hv, others, hothers, h⟩ := h
    obtain rfl : v :: others = values := by simpa using h
    have hlt := hexValue?_lt hv
    calc
      (v :: others).foldl (fun n v => 16 * n + v) start
          = others.foldl (fun n v => 16 * n + v) (16 * start + v) := rfl
      _ < (16 * start + v + 1) * 16 ^ cs.length := ih _ hothers
      _ ≤ ((start + 1) * 16) * 16 ^ cs.length := Nat.mul_le_mul_right _ (by omega)
      _ = (start + 1) * 16 ^ (c :: cs).length := by rw [List.length_cons, pow_succ']; ring

/-- Hexadecimal digits denote a number below the power of sixteen that they are. -/
theorem hexNumber_lt {cs : List Char} {values : List Nat} (h : cs.mapM hexValue? = some values) :
    hexNumber values < 16 ^ cs.length := by
  simpa [hexNumber] using foldl_hex_lt 0 h

end Text

namespace Uuid

/-- The identifier has 128 bits at most. -/
def IsProper (id : Uuid) : Prop := id.value < 2 ^ 128

/-- Thirty-two digits are read as the number of an identifier of 128 bits. -/
theorem isProper_of_ofDigits? {cs : List Char} {id : Uuid} (h : ofDigits? cs = some id) :
    id.IsProper := by
  unfold ofDigits? at h
  split at h
  · next hlength =>
    obtain ⟨values, hvalues, rfl⟩ := Option.map_eq_some_iff.mp h
    have hlt := hexNumber_lt hvalues
    rwa [hlength, show 16 ^ 32 = 2 ^ 128 by norm_num] at hlt
  · cases h

private theorem isProper_of_ofHyphenated? {cs : List Char} {id : Uuid}
    (h : ofHyphenated? cs = some id) : id.IsProper := by
  unfold ofHyphenated? at h
  split at h
  · split at h
    · exact isProper_of_ofDigits? h
    · cases h
  · cases h

/-- An identifier that a text denotes has 128 bits at most. -/
theorem isProper_of_ofText? {s : String} {id : Uuid} (h : ofText? s = some id) :
    id.IsProper := by
  simp only [ofText?] at h
  split at h
  · exact isProper_of_ofHyphenated? h
  · split at h
    · exact isProper_of_ofHyphenated? h
    · split at h
      · exact isProper_of_ofDigits? h
      · exact isProper_of_ofHyphenated? h

private theorem ofDigits?_hexadecimal {id : Uuid} (h : id.IsProper) :
    ofDigits? (hexadecimal 32 id.value) = some id := by
  obtain ⟨values, hvalues, hnumber⟩ := exists_values_hexadecimal 32 id.value
  have hvalue : id.value % 16 ^ 32 = id.value :=
    Nat.mod_eq_of_lt (by rwa [show 16 ^ 32 = 2 ^ 128 by norm_num])
  rw [ofDigits?, if_pos (length_hexadecimal 32 id.value), hvalues, Option.map_some]
  exact congrArg (some ∘ mk) (hnumber.trans hvalue)

private theorem digit_ne {v : Nat} (h : v < 16) :
    digit v ≠ '-' ∧ digit v ≠ '{' ∧ (digit v).toLower ≠ 'u' := by
  revert v
  decide

-- Five groups of hexadecimal digits are cut at the hyphens between them.
private theorem ofHyphenated?_groups {a b c d e : List Char}
    (hfree : ∀ x ∈ a ++ b ++ c ++ d ++ e, (x == '-') = false)
    (hlengths : a.length = 8 ∧ b.length = 4 ∧ c.length = 4 ∧ d.length = 4 ∧ e.length = 12) :
    ofHyphenated? (a ++ '-' :: b ++ '-' :: c ++ '-' :: d ++ '-' :: e) =
      ofDigits? (a ++ b ++ c ++ d ++ e) := by
  simp only [List.forall_mem_append] at hfree
  obtain ⟨⟨⟨⟨ha, hb⟩, hc⟩, hd⟩, he⟩ := hfree
  have hpieces : pieces (· == '-') (a ++ '-' :: b ++ '-' :: c ++ '-' :: d ++ '-' :: e) =
      [a, b, c, d, e] := by
    simp only [List.append_assoc, List.cons_append]
    rw [pieces_append_cons rfl, pieces_append_cons rfl, pieces_append_cons rfl,
      pieces_append_cons rfl, pieces_of_free ha, pieces_of_free hb, pieces_of_free hc,
      pieces_of_free hd, pieces_of_free he]
    rfl
  simp only [ofHyphenated?, hpieces]
  rw [if_pos hlengths]

-- A text that starts with a hexadecimal digit is neither a resource name nor in braces.
private theorem ofText?_of_digit {v : Nat} (hv : v < 16) {s : String} {rest : List Char}
    (hs : s.toList = digit v :: rest) (hlength : s.toList.length ≠ 32) :
    ofText? s = ofHyphenated? s.toList := by
  obtain ⟨-, hbrace, hu⟩ := digit_ne hv
  have hname : afterResourceName? s.toList = none := by
    rw [afterResourceName?, if_neg]
    intro h
    rw [beq_iff_eq, hs] at h
    exact hu (List.cons.inj h).1
  have hbraces : withinBraces? s.toList = none := by
    rw [hs]
    unfold withinBraces?
    split
    · next heq => exact absurd (List.cons.inj heq).1 hbrace
    · rfl
  simp only [ofText?, hname, hbraces]
  rw [if_neg hlength]

private theorem groups_append (ds : List Char) :
    ds.take 8 ++ (ds.drop 8).take 4 ++ (ds.drop 12).take 4 ++ (ds.drop 16).take 4 ++ ds.drop 20 =
      ds := by
  have hgroup (n k : Nat) : (ds.drop n).take k ++ ds.drop (n + k) = ds.drop n := by
    rw [← List.drop_drop, List.take_append_drop]
  simp only [List.append_assoc]
  rw [hgroup 16 4, hgroup 12 4, hgroup 8 4, List.take_append_drop]

/-- An identifier of 128 bits is read back from its text. -/
theorem ofText?_text {id : Uuid} (h : id.IsProper) : ofText? id.text = some id := by
  have hlength := length_hexadecimal 32 id.value
  obtain ⟨c, rest, hdigits⟩ := List.exists_cons_of_length_eq_add_one hlength
  obtain ⟨v, hv, rfl⟩ := exists_digit_of_mem_hexadecimal (hdigits ▸ List.mem_cons_self)
  have hfree : ∀ x ∈ hexadecimal 32 id.value, (x == '-') = false := by
    intro x hx
    obtain ⟨v, hv, rfl⟩ := exists_digit_of_mem_hexadecimal hx
    exact beq_false_of_ne (digit_ne hv).1
  have htext : id.text.toList = digit v :: id.text.toList.tail := by
    simp [text, hdigits]
  have hlong : id.text.toList.length ≠ 32 := by
    simp [text, hlength]
  rw [ofText?_of_digit hv htext hlong, text, String.toList_ofList, ofHyphenated?_groups,
    groups_append, ofDigits?_hexadecimal h]
  · rwa [groups_append]
  · simp [hlength]

end Uuid

end Beneficiary
