import Beneficiary.Proofs.Criteria.Arguments
import Beneficiary.Proofs.Criteria.Condition
import Beneficiary.Proofs.Criteria.Typing
import Beneficiary.Proofs.Json.Integers

/-!
# Stored values and arguments

Stored values are JSON and arguments are texts, and each is read by a reader of its own. On the text
of a stored scalar the two agree for every type but selections, so an entity that stores a scalar
satisfies the equality with its text. Numbers are the point of it: an integer is converted by one
reader and read from its decimals by the other, zero and one are truth values for both, and the text
of a number is never a date.
-/

namespace Beneficiary

open Text

namespace Json

/-- A number as documents hold it: an integer of sixty-four bits, or a finite number that is the one
nearest to its text. -/
def Number.IsExact : Number → Prop
  | .integer z => leastInteger ≤ z ∧ z ≤ greatestInteger
  | .float x => x.isFinite = true ∧ Binary64.numeral? (Binary64.render numberLayout x) = some x

/-- A value that is exact if it is a number. -/
def IsExact : Json → Prop
  | .number n => n.IsExact
  | _ => True

end Json

namespace Value

variable {n : Json.Number} {stored : Json} {text : String}

/-- The text of an exact number is read as the number. -/
theorem readNumber?_text (h : n.IsExact) : readNumber? n.text = some n.toBinary64 := by
  have hread : Binary64.numeral? n.text.toList = some n.toBinary64 ∧
      n.toBinary64.isFinite = true := by
    cases n with
    | integer z =>
      obtain ⟨hleast, hgreatest⟩ := h
      refine ⟨Binary64.numeral?_integerText z, Binary64.isFinite_ofInt ?_⟩
      unfold Json.leastInteger at hleast
      unfold Json.greatestInteger at hgreatest
      omega
    | float x =>
      obtain ⟨hfinite, hnearest⟩ := h
      rw [Json.Number.text, String.toList_ofList]
      exact ⟨hnearest, hfinite⟩
  rw [readNumber?, trim_of_free n.isNumeral_text.isBlank_eq_false, hread.1, Option.filter_some,
    if_pos hread.2]

/-- The text of a number denotes no date. -/
theorem readDate?_text (n : Json.Number) : readDate? n.text = none := by
  have hhyphens := n.isNumeral_text.noHyphenAfterDigit
  unfold readDate?
  rw [trim_of_free n.isNumeral_text.isBlank_eq_false]
  dsimp only
  rw [Date.ofPlain?_eq_none hhyphens, Date.ofTimestamp?_eq_none hhyphens]
  rfl

/-- A numeral other than the digits zero and one denotes no truth value. -/
theorem readBool?_eq_none (h : IsNumeral text.toList) (hzero : text ≠ "0") (hone : text ≠ "1") :
    readBool? text = none := by
  unfold readBool?
  rw [trimmed_of_free h.isBlank_eq_false, lowerAscii_of_free h.toLower_eq]
  split
  · exact absurd rfl (h.ne_word (by simp; decide))
  · exact absurd rfl (h.ne_word (by simp; decide))
  · exact absurd rfl (h.ne_word (by simp; decide))
  · exact absurd rfl hone
  · exact absurd rfl (h.ne_word (by simp; decide))
  · exact absurd rfl (h.ne_word (by simp; decide))
  · exact absurd rfl (h.ne_word (by simp; decide))
  · exact absurd rfl hzero
  · rfl

/-- A number is a truth value exactly where its text denotes one. -/
theorem storedBool?_number (n : Json.Number) :
    storedBool? (.number n) = (readBool? n.text).map bool := by
  cases n with
  | integer z =>
    have hzero : "0" = decimalText 0 := by decide +kernel
    have hone : "1" = decimalText 1 := by decide +kernel
    rw [Json.Number.text, storedBool?]
    split
    · next h =>
      subst h
      decide +kernel
    split
    · next h =>
      subst h
      decide +kernel
    · next hz hz' =>
      rw [readBool?_eq_none (isNumeral_integerText z), Option.map_none]
      · rwa [hzero, Ne, integerText_eq_decimalText_iff]
      · rwa [hone, Ne, integerText_eq_decimalText_iff]
  | float x =>
    obtain ⟨hnumeral, hmarked⟩ := Binary64.isNumeral_render x
    have hne {word : String} (h : '.' ∉ word.toList ∧ 'e' ∉ word.toList) :
        String.ofList (Binary64.render Json.numberLayout x) ≠ word := by
      rintro rfl
      rw [String.toList_ofList] at h
      exact hmarked.elim h.1 h.2
    rw [← String.toList_ofList (l := Binary64.render _ _)] at hnumeral
    rw [Json.Number.text, readBool?_eq_none hnumeral (hne (by simp)) (hne (by simp))]
    rfl

/-- Of a stored scalar and its text one reader makes what the other makes. -/
theorem ofStored?_eq_ofArgument? {type : ValueType} (hscalar : type ≠ .list)
    (htext : scalarText? stored = some text) (hexact : stored.IsExact) :
    ofStored? type stored = ofArgument? type text := by
  cases stored with
  | null | array | object => cases htext
  | string s =>
    obtain rfl : s = text := Option.some.inj htext
    cases type with
    | list => exact absurd rfl hscalar
    | _ => rfl
  | bool b =>
    obtain rfl : (if b then "true" else "false") = text := Option.some.inj htext
    cases type with
    | list => exact absurd rfl hscalar
    | _ => cases b <;> decide +kernel
  | number n =>
    obtain rfl : n.text = text := Option.some.inj htext
    cases type with
    | number => rw [ofStored?, storedNumber?, ofArgument?, readNumber?_text hexact, Option.map_some]
    | boolean => exact storedBool?_number n
    | date =>
      change none = (readDate? n.text).map date
      rw [readDate?_text, Option.map_none]
    | string => rfl
    | enum => rfl
    | list => exact absurd rfl hscalar

/-- A value of a type equals itself. -/
theorem HasType.equal_self {v : Value} {type : ValueType} (h : v.HasType type) :
    v.equal v = true := by
  cases h with
  | number valued => simp [equal, Binary64.equal, valued]
  | _ => simp [equal]

end Value

namespace FieldDescriptor

variable {d : FieldDescriptor} {text : String}

/-- An equality that is accepted is one with a value that the argument is read as. -/
theorem exists_of_comparison_equals (hscalar : d.valueType ≠ .list) {comparison : Comparison}
    (h : d.comparison .equals [text] = .ok comparison) :
    ∃ value, Value.ofArgument? d.valueType text = some value ∧ comparison = .equals value := by
  obtain ⟨hdefined, hcount, -⟩ := exists_comparison_eq_ok_iff.mp ⟨comparison, h⟩
  rw [comparison_eq_comparisonOf hdefined hcount, comparisonOf_equals hscalar] at h
  obtain ⟨value, hvalue, rfl⟩ := map_eq_ok_iff.mp h
  refine ⟨value, ?_, rfl⟩
  unfold argument at hvalue
  split at hvalue
  · next read hread =>
    split at hvalue
    · cases hvalue
    · rwa [Except.ok.inj hvalue] at hread
  · cases hvalue

end FieldDescriptor

/-- Stored values and arguments are read alike. A stored scalar is read as a value of a type, or as
none, just as its text is, and an entity that stores it under the name of a flex attribute satisfies
every equality with this text that compiles for the attribute. -/
theorem Value.stored_read_as_argument (type : ValueType) (stored : Json) (text : String)
    (hscalar : type ≠ .list) (htext : scalarText? stored = some text) (hexact : stored.IsExact) :
    ofStored? type stored = ofArgument? type text ∧
    ∀ {α : Type} [FieldSubject α] (resolve : Resolver) (asOf : Date) (context : EntityKind)
      (condition : Condition) (atom : Atom) (d : FieldDescriptor) (subject : α),
      condition.method = .equals → condition.arguments = [text] →
      resolve condition.field condition.classification = .ok d →
      d.classification = .flex → d.valueType = type →
      condition.compile resolve asOf context = .ok atom →
      (FieldSubject.flexFields subject).get? d.name = some stored →
      atom.holds subject = true := by
  refine ⟨ofStored?_eq_ofArgument? hscalar htext hexact, ?_⟩
  intro α _ resolve asOf context condition atom d subject hmethod harguments hd hflex htype hatom
    hstored
  subst htype
  have hholds := Condition.holds_flex hatom hd hflex subject
  rw [hmethod, harguments, hstored, Option.bind_some,
    ofStored?_eq_ofArgument? hscalar htext hexact] at hholds
  obtain ⟨comparison, hcomparison, hholds⟩ := map_eq_ok_iff.mp hholds
  obtain ⟨value, hvalue, rfl⟩ := FieldDescriptor.exists_of_comparison_equals hscalar hcomparison
  rw [hvalue] at hholds
  exact hholds.symm.trans (hasType_of_ofArgument? hvalue hscalar).1.equal_self

/-- The income of a household, a flex attribute. -/
def exampleIncome : FieldDescriptor :=
  { name := "income", owner := .household, valueType := .number, classification := .flex
    label := none, choices := [], periodic := none }

/-- The household of the example, storing an income. -/
def incomeHousehold (stored : Json) : Household :=
  { exampleRecord.household with flexFields := .of [("income", stored)] }

/-- An integer that no binary64 number is equal to, and two and a half. The integer is rounded alike
where it is stored and where it is an argument, so a household that stores it satisfies the equality
with its text. -/
theorem Value.incomes_read_as_arguments :
    ∃ atom,
      (Condition.flex "income" .equals ["9007199254740993"]).compile
        (resolveByName [exampleIncome]) exampleDate .household = .ok atom ∧
      scalarText? (.ofInt 9007199254740993) = some "9007199254740993" ∧
      ofStored? .number (.ofInt 9007199254740993) = ofArgument? .number "9007199254740993" ∧
      ofArgument? .number "9007199254740993" =
        some (.number ⟨false, 0x4340000000000000, by decide⟩) ∧
      atom.holds (incomeHousehold (.ofInt 9007199254740993)) = true ∧
      scalarText? (.number (.float ⟨false, 0x4004000000000000, by decide⟩)) = some "2.5" ∧
      ofStored? .number (.number (.float ⟨false, 0x4004000000000000, by decide⟩)) =
        ofArgument? .number "2.5" := by
  have hrun : ((Condition.flex "income" .equals ["9007199254740993"]).compile
      (resolveByName [exampleIncome]) exampleDate .household).toOption.isSome = true := by
    decide +kernel
  obtain ⟨atom, hatom⟩ := Option.isSome_iff_exists.mp hrun
  replace hatom := toOption_eq_some_iff.mp hatom
  have htext : scalarText? (.ofInt 9007199254740993) = some "9007199254740993" := by decide +kernel
  have hinteger : (Json.ofInt 9007199254740993).IsExact := by
    constructor <;> decide
  have hread : ofArgument? .number "9007199254740993" =
      some (.number ⟨false, 0x4340000000000000, by decide⟩) := by
    decide +kernel
  have hfractionText : scalarText? (.number (.float ⟨false, 0x4004000000000000, by decide⟩)) =
      some "2.5" := by
    decide +kernel
  have hfraction : (Json.number (.float ⟨false, 0x4004000000000000, by decide⟩)).IsExact := by
    constructor <;> decide +kernel
  obtain ⟨hsame, hholds⟩ := stored_read_as_argument .number _ _ (by decide) htext hinteger
  obtain ⟨hsameFraction, -⟩ :=
    stored_read_as_argument .number _ _ (by decide) hfractionText hfraction
  exact ⟨atom, hatom, htext, hsame, hread,
    hholds _ _ _ _ atom exampleIncome (incomeHousehold (.ofInt 9007199254740993)) rfl rfl rfl rfl
      rfl hatom rfl, hfractionText, hsameFraction⟩

end Beneficiary
