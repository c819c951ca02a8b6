import Mathlib.Tactic.IntervalCases
import Switchyard.Calendar.Instant

/-! Dates and day counts. Years are counted from March, in eras of 400 years and 146097 days;
within an era the year of a day is found by one division. `dateOf` gives a date of the
calendar, and `dayCount` leads back from it. -/
namespace Switchyard.Calendar

/-- The year of an era in which a day of it lies. -/
def yearOfEra (day : Int) : Int := (day - day / 1460 + day / 36524 - day / 146096) / 365

/-- The day of an era on which one of its years begins. -/
def firstDay (year : Int) : Int := 365 * year + year / 4 - year / 100

/-- A day of an era by century, leap cycle, year of the cycle and day of the year. Only a leap
year has a day 365: the last of a cycle that is not the last of its century, or of the era. -/
theorem exists_cycles {day : Int} (low : 0 ≤ day) (high : day < 146097) :
    ∃ c q s r : Int, day = 36524 * c + 1461 * q + 365 * s + r ∧ (0 ≤ c ∧ c ≤ 3) ∧
      (0 ≤ q ∧ q ≤ 24) ∧ (0 ≤ s ∧ s ≤ 3) ∧ (0 ≤ r ∧ r ≤ 365) ∧
      (r = 365 → s = 3 ∧ (q = 24 → c = 3)) := by
  obtain ⟨c, hc, hcentury⟩ : ∃ c : Int, (0 ≤ c ∧ c ≤ 3) ∧ 36524 * c ≤ day ∧
      (day < 36524 * c + 36524 ∨ c = 3 ∧ day = 146096) := by
    by_cases hlast : day = 146096
    · exact ⟨3, by omega⟩
    · exact ⟨day / 36524, by omega⟩
  obtain ⟨q, hq, hcycle⟩ : ∃ q : Int, (0 ≤ q ∧ q ≤ 24) ∧ 36524 * c + 1461 * q ≤ day ∧
      day < 36524 * c + 1461 * q + 1461 ∧
      (q = 24 → c < 3 → day < 36524 * c + 1461 * q + 1460) :=
    ⟨(day - 36524 * c) / 1461, by omega⟩
  obtain ⟨s, hs, hyear⟩ : ∃ s : Int, (0 ≤ s ∧ s ≤ 3) ∧ 36524 * c + 1461 * q + 365 * s ≤ day ∧
      (day < 36524 * c + 1461 * q + 365 * s + 365 ∨
        s = 3 ∧ day = 36524 * c + 1461 * q + 1460) := by
    by_cases hlast : day = 36524 * c + 1461 * q + 1460
    · exact ⟨3, by omega⟩
    · exact ⟨(day - 36524 * c - 1461 * q) / 365, by omega⟩
  exact ⟨c, q, s, day - 36524 * c - 1461 * q - 365 * s, by omega⟩

theorem yearOfEra_eq {c q s r : Int} (hc : 0 ≤ c ∧ c ≤ 3) (hq : 0 ≤ q ∧ q ≤ 24)
    (hs : 0 ≤ s ∧ s ≤ 3) (hr : 0 ≤ r ∧ r ≤ 365) (leap : r = 365 → s = 3 ∧ (q = 24 → c = 3)) :
    yearOfEra (36524 * c + 1461 * q + 365 * s + r) = 100 * c + 4 * q + s := by
  obtain ⟨day, hday⟩ : ∃ day, day = 36524 * c + 1461 * q + 365 * s + r := ⟨_, rfl⟩
  have hcentury : day / 36524 - day / 146096 = c := by
    by_cases hlast : day = 146096
    · omega
    · have hwithin : day < 36524 * c + 36524 := by omega
      have hquotient : day / 36524 = c := by omega
      omega
  -- the days that leap cycles have beyond 1460 make the quotient one larger late in a year
  obtain ⟨late, hlate, hcycle⟩ : ∃ late : Int,
      (late = 0 ∧ r < 365 ∨ late = 1 ∧ 0 < r) ∧ day / 1460 = 25 * c + q + late := by
    by_cases hover : 24 * c + q + 365 * s + r < 1460
    · exact ⟨0, by omega⟩
    · exact ⟨1, by omega⟩
  rw [yearOfEra, ← hday]
  omega

/-- The year and the day of the year of a day of an era. -/
theorem exists_year {day : Int} (low : 0 ≤ day) (high : day < 146097) :
    ∃ r : Int, (0 ≤ yearOfEra day ∧ yearOfEra day < 400) ∧ (0 ≤ r ∧ r ≤ 365) ∧
      day = firstDay (yearOfEra day) + r ∧
      (r = 365 → (yearOfEra day + 1) % 4 = 0 ∧
        ((yearOfEra day + 1) % 100 = 0 → (yearOfEra day + 1) % 400 = 0)) := by
  obtain ⟨c, q, s, r, rfl, hc, hq, hs, hr, leap⟩ := exists_cycles low high
  rw [yearOfEra_eq hc hq hs hr leap]
  refine ⟨r, by omega, hr, ?_, ?_⟩
  · have hleaps : (100 * c + 4 * q + s) / 4 = 25 * c + q := by omega
    have hcenturies : (100 * c + 4 * q + s) / 100 = c := by omega
    rw [firstDay, hleaps, hcenturies]
    omega
  · omega

/-- The months from March: the months before month `m` have `(153 * m + 2) / 5` days. -/
theorem exists_month {day : Int} (low : 0 ≤ day) (high : day ≤ 365) :
    ∃ m : Int, m = (5 * day + 2) / 153 ∧ (0 ≤ m ∧ m ≤ 11) ∧ (153 * m + 2) / 5 ≤ day ∧
      (m < 11 → day < (153 * (m + 1) + 2) / 5) :=
  ⟨(5 * day + 2) / 153, by omega⟩

/-- A date of the calendar. -/
structure Date.IsReal (d : Date) : Prop where
  month : 1 ≤ d.month ∧ d.month ≤ 12
  day : 1 ≤ d.day ∧ d.day ≤ daysInMonth d.year d.month

/-- What `dateOf` finds: the year from March with its era, and the month with the days of the
year before it. -/
theorem dateOf_spec (days : Int) :
    ∃ era y day m : Int, days = era * 146097 + firstDay y + day - 719468 ∧
      (0 ≤ y ∧ y < 400) ∧ (0 ≤ day ∧ day ≤ 365) ∧
      (day = 365 → (y + 1) % 4 = 0 ∧ ((y + 1) % 100 = 0 → (y + 1) % 400 = 0)) ∧
      (0 ≤ m ∧ m ≤ 11) ∧ (153 * m + 2) / 5 ≤ day ∧ (m < 11 → day < (153 * (m + 1) + 2) / 5) ∧
      dateOf days = ⟨y + era * 400 + (if m < 10 then 0 else 1),
        (if m < 10 then m + 3 else m - 9).toNat, (day - (153 * m + 2) / 5 + 1).toNat⟩ := by
  obtain ⟨era, hera⟩ : ∃ era, era = (days + 719468) / 146097 := ⟨_, rfl⟩
  obtain ⟨doe, hdoe⟩ : ∃ doe, doe = days + 719468 - era * 146097 := ⟨_, rfl⟩
  have hlow : 0 ≤ doe := by omega
  have hhigh : doe < 146097 := by omega
  obtain ⟨day, hy, hday, hsum, hleap⟩ := exists_year hlow hhigh
  obtain ⟨m, hm, hrange, hbefore, hwithin⟩ := exists_month hday.1 hday.2
  refine ⟨era, yearOfEra doe, day, m, by omega, hy, hday, hleap, hrange, hbefore, hwithin, ?_⟩
  have hdayOf : doe - (365 * yearOfEra doe + yearOfEra doe / 4 - yearOfEra doe / 100) = day := by
    unfold firstDay at hsum
    omega
  have hyear : (doe - doe / 1460 + doe / 36524 - doe / 146096) / 365 = yearOfEra doe := rfl
  simp (disch := decide) only [dateOf, Int.fdiv_eq_ediv_of_nonneg, ← hera, ← hdoe, hyear, hdayOf,
    ← hm]
  have hlate : (if m < 10 then m + 3 else m - 9) ≤ 2 ↔ ¬ m < 10 := by
    split <;> omega
  rw [Date.mk.injEq]
  refine ⟨?_, rfl, rfl⟩
  by_cases hten : m < 10
  · rw [if_neg (mt hlate.1 (not_not.2 hten)), if_pos hten]
  · rw [if_pos (hlate.2 hten), if_neg hten]

/-- The day count of a date in the year from March, its month counted from March too. -/
theorem dayCount_march {era y m : Int} (hy : 0 ≤ y ∧ y < 400) (hm : 0 ≤ m ∧ m ≤ 11) (day : Nat) :
    dayCount ⟨y + era * 400 + (if m < 10 then 0 else 1),
        (if m < 10 then m + 3 else m - 9).toNat, day⟩ =
      era * 146097 + firstDay y + ((153 * m + 2) / 5 + day - 1) - 719468 := by
  have hmonth : (((if m < 10 then m + 3 else m - 9).toNat + 9) % 12 : Nat) = m := by
    split <;> omega
  have hyear : (if (if m < 10 then m + 3 else m - 9).toNat ≤ 2 then
      y + era * 400 + (if m < 10 then 0 else 1) - 1
      else y + era * 400 + (if m < 10 then 0 else 1)) = y + era * 400 := by
    by_cases hten : m < 10
    · simp only [if_pos hten]
      rw [if_neg (by omega), Int.add_zero]
    · simp only [if_neg hten]
      rw [if_pos (by omega), Int.add_sub_cancel]
  have hera : (y + era * 400) / 400 = era := by omega
  simp (disch := decide) only [dayCount, Int.fdiv_eq_ediv_of_nonneg, hyear, hera, hmonth]
  unfold firstDay
  omega

theorem dayCount_dateOf (days : Int) : dayCount (dateOf days) = days := by
  obtain ⟨era, y, day, m, hdays, hy, hday, -, hm, hlow, -, heq⟩ := dateOf_spec days
  rw [heq, dayCount_march hy hm]
  omega

/-- The days of a month but February, which stand between those of the months from March. -/
theorem daysInMonth_march (year : Int) {m : Int} (low : 0 ≤ m) (high : m < 11) :
    (daysInMonth year (if m < 10 then m + 3 else m - 9).toNat : Int) =
      (153 * (m + 1) + 2) / 5 - (153 * m + 2) / 5 := by
  interval_cases m <;> rfl

theorem isLeap_of_last {year : Int} (four : year % 4 = 0)
    (hundred : year % 100 = 0 → year % 400 = 0) : isLeap year = true := by
  by_cases h : year % 100 = 0
  · simp [isLeap, hundred h]
  · simp [isLeap, four, h]

theorem isReal_dateOf (days : Int) : (dateOf days).IsReal := by
  obtain ⟨era, y, day, m, -, hy, hday, hleap, hm, hlow, hhigh, heq⟩ := dateOf_spec days
  rw [heq]
  refine ⟨?_, ?_⟩
  · dsimp only
    split <;> omega
  · dsimp only
    refine ⟨by omega, ?_⟩
    by_cases hlast : m < 11
    · have hmonth := daysInMonth_march (y + era * 400 + (if m < 10 then 0 else 1)) hm.1 hlast
      have hbefore := hhigh hlast
      omega
    · obtain rfl : m = 11 := by omega
      have hfebruary (year : Int) : daysInMonth year 2 = if isLeap year then 29 else 28 := rfl
      -- only a leap year has a day 365, the twenty-ninth of its February
      by_cases hfull : day = 365
      · obtain ⟨hfour, hhundred⟩ := hleap hfull
        have hyear : isLeap (y + era * 400 + 1) = true :=
          isLeap_of_last (by omega) (by omega)
        simp only [Int.reduceLT, ↓reduceIte, Int.reduceSub, Int.reduceToNat, hfebruary, hyear]
        omega
      · simp only [Int.reduceLT, ↓reduceIte, Int.reduceSub, Int.reduceToNat, hfebruary]
        split <;> omega

end Switchyard.Calendar
