import Mathlib
import Beneficiary.Calendar.Date

/-!
# The order of dates

Dates stand in a line by year, month and day. The day after a date is the first date past it: within
the month, at the start of the next month, or at the start of the next year. Only the last supported
date has no day after it, and only the first has none before it.
-/

namespace Beneficiary

/-- A month has at most 31 days. -/
theorem daysInMonth_le (year : Int) (month : Nat) : daysInMonth year month ≤ 31 := by
  unfold daysInMonth
  split
  case h_2 => split <;> decide
  all_goals decide

/-- The months that have days are the first to the twelfth. -/
theorem daysInMonth_pos_iff {year : Int} {month : Nat} :
    0 < daysInMonth year month ↔ 1 ≤ month ∧ month ≤ 12 := by
  constructor
  · intro h
    unfold daysInMonth at h
    split at h
    all_goals omega
  · rintro ⟨hfirst, hlast⟩
    interval_cases month
    case «2» =>
      rw [daysInMonth]
      split <;> decide
    all_goals exact Nat.zero_lt_succ _

namespace Date

variable {d e : Date} {year : Int} {month day : Nat}

/-- A date is given by its year, month and day. -/
theorem eq_of_parts (hyear : d.year = e.year) (hmonth : d.month = e.month) (hday : d.day = e.day) :
    d = e := by
  cases d
  cases e
  simp only at hyear hmonth hday
  subst hyear hmonth hday
  rfl

/-- Where the parts of a date lie. -/
theorem bounds (d : Date) :
    (firstYear ≤ d.year ∧ d.year ≤ lastYear) ∧ (1 ≤ d.month ∧ d.month ≤ 12) ∧
      1 ≤ d.day ∧ d.day ≤ daysInMonth d.year d.month ∧ d.day ≤ 31 := by
  have hvalid := d.valid
  simp only [isDate, Bool.and_eq_true, decide_eq_true_eq] at hvalid
  obtain ⟨⟨hyear, hfirst⟩, hlast⟩ := hvalid
  have hmonth := daysInMonth_pos_iff.mp (Nat.lt_of_lt_of_le hfirst hlast)
  exact ⟨hyear, hmonth, hfirst, hlast, hlast.trans (daysInMonth_le d.year d.month)⟩

/-- Year, month and day give the date that has them. -/
theorem of?_eq_some_iff :
    of? year month day = some d ↔ d.year = year ∧ d.month = month ∧ d.day = day := by
  unfold of?
  split
  · next hvalid =>
    rw [Option.some.injEq]
    constructor
    · rintro rfl
      exact ⟨rfl, rfl, rfl⟩
    · rintro ⟨hyear, hmonth, hday⟩
      exact eq_of_parts hyear.symm hmonth.symm hday.symm
  · next hvalid =>
    refine ⟨nofun, ?_⟩
    rintro ⟨rfl, rfl, rfl⟩
    exact absurd d.valid hvalid

/-- Year, month and day within their bounds give a date. -/
theorem exists_of? (hyear : firstYear ≤ year ∧ year ≤ lastYear) (hfirst : 1 ≤ day)
    (hlast : day ≤ daysInMonth year month) : ∃ d, of? year month day = some d := by
  have hvalid : isDate year month day = true := by
    simp only [isDate, Bool.and_eq_true, decide_eq_true_eq]
    exact ⟨⟨hyear, hfirst⟩, hlast⟩
  exact ⟨⟨year, month, day, hvalid⟩, dif_pos hvalid⟩

/-- The place of a date in the order of dates. -/
def place (d : Date) : ℤ ×ₗ ℕ ×ₗ ℕ := toLex (d.year, toLex (d.month, d.day))

/-- A place comes first by its year, then by its month and day. -/
theorem lt_place_iff {year' : Int} {month' day' : Nat} :
    toLex (year, toLex (month, day)) < toLex (year', toLex (month', day')) ↔
      year < year' ∨ year = year' ∧ (month < month' ∨ month = month' ∧ day < day') := by
  simp only [Prod.Lex.toLex_lt_toLex]

/-- Different dates stand at different places. -/
theorem place_injective : Function.Injective place := by
  intro d e h
  simp only [place, toLex_inj, Prod.mk.injEq] at h
  exact eq_of_parts h.1 h.2.1 h.2.2

/-- Dates are compared as their places are. -/
theorem isBefore_iff : d.isBefore e = true ↔ d.place < e.place := by
  have hcompare : d.compare e = Ord.compare d.place e.place := rfl
  rw [isBefore, hcompare, beq_iff_eq, compare_lt_iff_lt]

/-- A date is the day after another: the first date past it. -/
def IsDayAfter (e d : Date) : Prop :=
  d.place < e.place ∧ ∀ f : Date, d.place < f.place → e.place ≤ f.place

/-- A date is followed by the day after it. -/
theorem isDayAfter_of_next? (h : d.next? = some e) : e.IsDayAfter d := by
  have hd := d.bounds
  -- A date in the same month stands within its days.
  have hwithin (f : Date) (hyear : f.year = d.year) (hmonth : f.month = d.month) :
      f.day ≤ daysInMonth d.year d.month := by
    rw [← hyear, ← hmonth]
    exact f.bounds.2.2.2.1
  simp only [IsDayAfter, place, ← not_lt (b := toLex (e.year, _)), lt_place_iff]
  unfold next? at h
  split at h
  · obtain ⟨hyear, hmonth, hday⟩ := of?_eq_some_iff.mp h
    exact ⟨by omega, fun f hf => by omega⟩
  -- The month is over, so no later date is in it, be it the last of the year or not.
  split at h
  all_goals
    obtain ⟨hyear, hmonth, hday⟩ := of?_eq_some_iff.mp h
    refine ⟨by omega, fun f hf => ?_⟩
    have hf' := f.bounds
    have hday' := hwithin f
    omega

/-- All dates but the last have a day after them. -/
theorem exists_next? (h : d.year < lastYear ∨ d.month < 12 ∨ d.day < 31) :
    ∃ e, d.next? = some e := by
  obtain ⟨hyear, hmonth, hfirst, hlast, -⟩ := d.bounds
  unfold next?
  split
  · next hwithin => exact exists_of? hyear (by omega) hwithin
  split
  · exact exists_of? hyear le_rfl (daysInMonth_pos_iff.mpr ⟨by omega, by omega⟩)
  · next hend hdecember =>
    have hmonth' : d.month = 12 := by omega
    rw [hmonth'] at hend
    have hday : ¬ d.day < 31 := hend
    exact exists_of? ⟨by omega, by omega⟩ le_rfl (daysInMonth_pos_iff.mpr (by decide))

/-- All dates but the first have a day before them. -/
theorem exists_previous? (h : firstYear < d.year ∨ 1 < d.month ∨ 1 < d.day) :
    ∃ e, d.previous? = some e := by
  obtain ⟨hyear, hmonth, hfirst, hlast, -⟩ := d.bounds
  unfold previous?
  split
  · exact exists_of? hyear (by omega) (by omega)
  split
  · exact exists_of? hyear (daysInMonth_pos_iff.mpr ⟨by omega, by omega⟩) le_rfl
  · exact exists_of? ⟨by omega, by omega⟩ (by decide) le_rfl

/-- The date that follows is the day after, and it is there unless no date comes later. -/
theorem next?_eq_some_iff : d.next? = some e ↔ e.IsDayAfter d := by
  refine ⟨isDayAfter_of_next?, ?_⟩
  rintro ⟨hlater, hfirst⟩
  have hnotLast : d.year < lastYear ∨ d.month < 12 ∨ d.day < 31 := by
    have he := e.bounds
    simp only [place, lt_place_iff] at hlater
    omega
  obtain ⟨f, hf⟩ := exists_next? hnotLast
  obtain ⟨hlater', hfirst'⟩ := isDayAfter_of_next? hf
  rw [hf, place_injective (le_antisymm (hfirst' e hlater) (hfirst f hlater'))]

/-- The day after is in the same year, save for that after 31 December. -/
theorem IsDayAfter.year_eq (h : e.IsDayAfter d) :
    e.year = d.year ∨ e.year = d.year + 1 ∧ d.month = 12 ∧ d.day = 31 := by
  obtain ⟨-, ⟨-, hmonth⟩, -, -, hday⟩ := d.bounds
  have hnext := next?_eq_some_iff.mpr h
  unfold next? at hnext
  split at hnext
  · exact .inl (of?_eq_some_iff.mp hnext).1
  split at hnext
  · exact .inl (of?_eq_some_iff.mp hnext).1
  · next hend hdecember =>
    have hmonth' : d.month = 12 := by omega
    rw [hmonth'] at hend
    have hday' : ¬ d.day < 31 := hend
    exact .inr ⟨(of?_eq_some_iff.mp hnext).1, hmonth', by omega⟩

end Date

end Beneficiary
