import Beneficiary.Proofs.Calendar.Order

/-!
# Ages in full years

An age counts the anniversaries of the birth date that a day has reached. These stand in the order of
dates at the month and day of birth, one in each year, whether or not that year has the day; the
anniversary of 29 February in a common year comes after 28 February and no later than 1 March. So the
age is told by the two anniversaries around the day, and everything else follows from their order.
-/

namespace Beneficiary

namespace Date

/-- The place of the anniversary of a birth date after some years. -/
def anniversary (birth : Date) (years : ℤ) : ℤ ×ₗ ℕ ×ₗ ℕ :=
  toLex (birth.year + years, toLex (birth.month, birth.day))

variable {birth younger day later : Date} {m n : ℤ}

/-- The birth itself is the anniversary after no years. -/
theorem anniversary_zero (birth : Date) : birth.anniversary 0 = birth.place := by
  rw [anniversary, add_zero, place]

/-- Anniversaries follow one another. -/
theorem anniversary_lt_iff : birth.anniversary m < birth.anniversary n ↔ m < n := by
  simp only [anniversary, lt_place_iff]
  omega

/-- The anniversaries of a later birth come later. -/
theorem anniversary_le_of_place_le (h : birth.place ≤ younger.place) (years : ℤ) :
    birth.anniversary years ≤ younger.anniversary years := by
  rw [← not_lt] at h ⊢
  simp only [anniversary, place, lt_place_iff] at h ⊢
  omega

/-- In a common year the anniversary of 29 February is reached on 1 March. -/
theorem anniversary_le_iff_of_leap (hmonth : birth.month = 2) (hday : birth.day = 29)
    (hcommon : isLeapYear (birth.year + n) = false) :
    birth.anniversary n ≤ day.place ↔ toLex (birth.year + n, toLex (3, 1)) ≤ day.place := by
  -- The day itself is not between 28 February and 1 March.
  have hlast (hyear : day.year = birth.year + n) (hfebruary : day.month = 2) : day.day ≤ 28 := by
    have hdays := day.bounds.2.2.2.1
    rwa [hyear, hfebruary, daysInMonth, hcommon] at hdays
  have hfirst := day.bounds.2.2.1
  rw [← not_lt, ← not_lt, anniversary, place, hmonth, hday, lt_place_iff, lt_place_iff]
  omega

/-- A day comes earlier in its year than another by month, then by day. -/
theorem isEarlierInYear_iff {d e : Date} :
    d.isEarlierInYear e = true ↔ d.month < e.month ∨ d.month = e.month ∧ d.day < e.day := by
  simp [isEarlierInYear]

/-- There is no age before the birth. -/
theorem ageOn_eq_none_iff : birth.ageOn day = none ↔ day.place < birth.place := by
  rw [← isBefore_iff]
  unfold ageOn
  split
  · next hbefore => exact iff_of_true rfl hbefore
  · next hbefore =>
    refine iff_of_false ?_ hbefore
    split <;> exact Option.some_ne_none _

/-- The age is the number of the anniversary that was reached, when the next is not reached yet. -/
theorem ageOn_eq_some_iff :
    birth.ageOn day = some n ↔
      0 ≤ n ∧ birth.anniversary n ≤ day.place ∧ day.place < birth.anniversary (n + 1) := by
  have hbefore := isBefore_iff (d := day) (e := birth)
  have hearlier := isEarlierInYear_iff (d := day) (e := birth)
  rw [← not_lt (b := birth.anniversary n)]
  simp only [place, anniversary, lt_place_iff] at hbefore ⊢
  unfold ageOn
  split
  · next h =>
    rw [hbefore] at h
    refine iff_of_false (Option.some_ne_none n).symm ?_
    omega
  split
  · next h h' =>
    rw [hbefore] at h
    rw [hearlier] at h'
    rw [Option.some.injEq]
    omega
  · next h h' =>
    rw [hbefore] at h
    rw [hearlier] at h'
    rw [Option.some.injEq]
    omega

/-- From the birth on there is an age. -/
theorem exists_ageOn (h : birth.place ≤ day.place) : ∃ n, birth.ageOn day = some n := by
  refine Option.ne_none_iff_exists'.mp fun hnone => ?_
  exact absurd (ageOn_eq_none_iff.mp hnone) h.not_gt

/-- The day stands between two neighbouring anniversaries for one number of years only. -/
theorem eq_of_ageOn (hn : birth.ageOn day = some n) :
    birth.anniversary m ≤ day.place ∧ day.place < birth.anniversary (m + 1) ↔ m = n := by
  obtain ⟨-, hreached, hnext⟩ := ageOn_eq_some_iff.mp hn
  constructor
  · rintro ⟨hreached', hnext'⟩
    have hle : m < n + 1 := anniversary_lt_iff.mp (hreached'.trans_lt hnext)
    have hge : n < m + 1 := anniversary_lt_iff.mp (hreached.trans_lt hnext')
    omega
  · rintro rfl
    exact ⟨hreached, hnext⟩

/-- An age has reached some years exactly from their anniversary on. -/
theorem le_ageOn_iff (hn : 0 ≤ n) :
    (∃ m, birth.ageOn day = some m ∧ n ≤ m) ↔ birth.anniversary n ≤ day.place := by
  constructor
  · rintro ⟨m, hm, hle⟩
    obtain ⟨-, hreached, -⟩ := ageOn_eq_some_iff.mp hm
    refine le_trans ?_ hreached
    rwa [← not_lt, anniversary_lt_iff, not_lt]
  · intro hreached
    have hborn : birth.place ≤ day.place := by
      refine le_trans ?_ hreached
      rwa [← anniversary_zero, ← not_lt, anniversary_lt_iff, not_lt]
    obtain ⟨m, hm⟩ := exists_ageOn hborn
    obtain ⟨-, -, hnext⟩ := ageOn_eq_some_iff.mp hm
    have hlt : n < m + 1 := anniversary_lt_iff.mp (hreached.trans_lt hnext)
    exact ⟨m, hm, by omega⟩

/-- On a later day the age is no less. -/
theorem ageOn_mono (h : day.place ≤ later.place) (hn : birth.ageOn day = some n) :
    ∃ m, birth.ageOn later = some m ∧ n ≤ m := by
  obtain ⟨hnonneg, hreached, -⟩ := ageOn_eq_some_iff.mp hn
  exact (le_ageOn_iff hnonneg).mpr (hreached.trans h)

/-- The age of who was born later is no greater. -/
theorem ageOn_anti (h : birth.place ≤ younger.place) (hn : birth.ageOn day = some n)
    (hm : younger.ageOn day = some m) : m ≤ n := by
  obtain ⟨-, -, hnext⟩ := ageOn_eq_some_iff.mp hn
  obtain ⟨-, hreached, -⟩ := ageOn_eq_some_iff.mp hm
  have hlt := (hreached.trans_lt hnext).trans_le (anniversary_le_of_place_le h (n + 1))
  have := anniversary_lt_iff.mp hlt
  omega

/-- From a day to the next no two anniversaries are reached. -/
theorem IsDayAfter.place_lt_anniversary (h : later.IsDayAfter day)
    (hnext : day.place < birth.anniversary n) : later.place < birth.anniversary (n + 1) := by
  have hyear := h.year_eq
  have hday := day.bounds
  have hlater := later.bounds
  have hbirth := birth.bounds
  simp only [place, anniversary, lt_place_iff] at hnext ⊢
  omega

/-- From a day to the next the age grows by one at most. -/
theorem IsDayAfter.ageOn_le (h : later.IsDayAfter day) (hn : birth.ageOn day = some n)
    (hm : birth.ageOn later = some m) : m ≤ n + 1 := by
  obtain ⟨-, -, hnext⟩ := ageOn_eq_some_iff.mp hn
  obtain ⟨-, hreached, -⟩ := ageOn_eq_some_iff.mp hm
  have hlt := anniversary_lt_iff.mp (hreached.trans_lt (h.place_lt_anniversary hnext))
  omega

/-- An age counts the anniversaries reached. There is none before the birth; from then on it is the
one number of years, never negative, such that the day stands between the anniversary after that many
years and the next, and 29 February is reached on 1 March of a common year. It never falls as the day
moves on, nor grows as the birth does, and from a day to the next it grows by one at most. -/
theorem ageOn_counts_anniversaries (birth day : Date) :
    (birth.ageOn day = none ↔ day.place < birth.place) ∧
    (birth.place ≤ day.place → ∃ n, birth.ageOn day = some n ∧ 0 ≤ n ∧
      ∀ m, birth.anniversary m ≤ day.place ∧ day.place < birth.anniversary (m + 1) ↔ m = n) ∧
    (∀ n, 0 ≤ n → birth.month = 2 → birth.day = 29 → isLeapYear (birth.year + n) = false →
      ((∃ m, birth.ageOn day = some m ∧ n ≤ m) ↔
        toLex (birth.year + n, toLex (3, 1)) ≤ day.place)) ∧
    (∀ n, birth.ageOn day = some n →
      (∀ later : Date, day.place ≤ later.place → ∃ m, birth.ageOn later = some m ∧ n ≤ m) ∧
      (∀ (younger : Date) (m : ℤ), birth.place ≤ younger.place → younger.ageOn day = some m →
        m ≤ n) ∧
      ∀ tomorrow : Date, tomorrow.IsDayAfter day →
        ∃ m, birth.ageOn tomorrow = some m ∧ (m = n ∨ m = n + 1)) := by
  refine ⟨ageOn_eq_none_iff, ?_, ?_, ?_⟩
  · intro hborn
    obtain ⟨n, hn⟩ := exists_ageOn hborn
    exact ⟨n, hn, (ageOn_eq_some_iff.mp hn).1, fun m => eq_of_ageOn hn⟩
  · intro n hnonneg hmonth hday hcommon
    rw [le_ageOn_iff hnonneg, anniversary_le_iff_of_leap hmonth hday hcommon]
  · intro n hn
    refine ⟨fun later h => ageOn_mono h hn, fun younger m h hm => ageOn_anti h hn hm, ?_⟩
    intro tomorrow h
    obtain ⟨m, hm, hle⟩ := ageOn_mono h.1.le hn
    have hgrowth := h.ageOn_le hn hm
    exact ⟨m, hm, by omega⟩

/-- A birth on 29 February. -/
def leapBirth : Date := ⟨2000, 2, 29, by decide⟩

/-- On 28 February of the next year the first anniversary is not reached, and a day later it is. A
day before the birth has no age, and who was born a year and a day later has a smaller one. -/
theorem leapBirth_ages :
    let eve : Date := ⟨2001, 2, 28, by decide⟩
    let march : Date := ⟨2001, 3, 1, by decide⟩
    march.IsDayAfter eve ∧ leapBirth.ageOn eve = some 0 ∧
    (∀ m, leapBirth.anniversary m ≤ eve.place ∧ eve.place < leapBirth.anniversary (m + 1) ↔
      m = 0) ∧
    (∃ m, leapBirth.ageOn march = some m ∧ 1 ≤ m) ∧
    (∃ m, leapBirth.ageOn march = some m ∧ (m = 0 ∨ m = 0 + 1)) ∧
    (∀ m, march.ageOn march = some m → ∀ n, leapBirth.ageOn march = some n → m ≤ n) ∧
    leapBirth.ageOn ⟨1999, 12, 31, by decide⟩ = none := by
  intro eve march
  have hafter : march.IsDayAfter eve := next?_eq_some_iff.mp (by decide)
  have heve : leapBirth.ageOn eve = some 0 := by decide
  obtain ⟨-, hwindow, -, hmoves⟩ := ageOn_counts_anniversaries leapBirth eve
  obtain ⟨-, -, hleap, hmoves'⟩ := ageOn_counts_anniversaries leapBirth march
  obtain ⟨hnone, -, -, -⟩ := ageOn_counts_anniversaries leapBirth ⟨1999, 12, 31, by decide⟩
  obtain ⟨n, hn, -, hunique⟩ := hwindow (by decide)
  obtain rfl : n = 0 := Option.some.inj (hn.symm.trans heve)
  obtain ⟨-, -, htomorrow⟩ := hmoves 0 heve
  refine ⟨hafter, heve, hunique, (hleap 1 (by decide) rfl rfl (by decide)).mpr (by decide),
    htomorrow march hafter, ?_, hnone.mpr (by decide)⟩
  intro m hm n hn
  exact (hmoves' n hn).2.1 march m (by decide) hm

end Date

end Beneficiary
