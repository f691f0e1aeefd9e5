import AuthCore.Time.Timestamp
import Mathlib.Tactic.IntervalCases

/-!
# Days and their numbers

Every number is that of one day (`Day.number_ofNumber`), and the calendar has that day
(`Day.isValid_ofNumber`). An era of 400 years is taken apart into centuries, cycles of four years,
years and days, as years begin in March; a year that ends with a leap day is the last of its cycle,
and the last cycle of a century has none unless the century is the last of the era.
-/

namespace AuthCore.Day

/-! ### Eras -/

/-- The parts of a day of an era. -/
structure EraDay where
  /-- The century. -/
  century : Nat
  /-- The cycle of four years in the century. -/
  cycle : Nat
  /-- The year in the cycle. -/
  yearOfCycle : Nat
  /-- The day of the year. -/
  dayOfYear : Nat
  century_le : century ≤ 3
  cycle_le : cycle ≤ 24
  yearOfCycle_le : yearOfCycle ≤ 3
  dayOfYear_le : dayOfYear ≤ 365
  /-- Only some years have a day more. -/
  leap : dayOfYear = 365 → yearOfCycle = 3 ∧ (cycle < 24 ∨ century = 3)

namespace EraDay

/-- The number of a day in its era. -/
def index (p : EraDay) : Nat :=
  36524 * p.century + 1461 * p.cycle + 365 * p.yearOfCycle + p.dayOfYear

/-- The year of a day in its era. -/
def year (p : EraDay) : Nat := 100 * p.century + 4 * p.cycle + p.yearOfCycle

theorem exists_index_eq {n : Nat} (h : n < 146097) : ∃ p : EraDay, p.index = n := by
  have hc : min (n / 36524) 3 ≤ 3 := Nat.min_le_right _ _
  let rest := n - 36524 * min (n / 36524) 3
  have hrest : rest = n - 36524 * min (n / 36524) 3 := rfl
  let year := min (rest % 1461 / 365) 3
  have hyear : year = min (rest % 1461 / 365) 3 := rfl
  refine ⟨⟨min (n / 36524) 3, rest / 1461, year, rest % 1461 - 365 * year, hc, ?_, ?_, ?_, ?_⟩, ?_⟩
  · omega
  · omega
  · omega
  · omega
  · show 36524 * min (n / 36524) 3 + 1461 * (rest / 1461) + 365 * year +
      (rest % 1461 - 365 * year) = n
    omega

variable {p : EraDay}

theorem year_lt : p.year < 400 := by
  have := p.century_le
  have := p.cycle_le
  have := p.yearOfCycle_le
  unfold year
  omega

theorem index_lt : p.index < 146097 := by
  have := p.century_le
  have := p.cycle_le
  have := p.yearOfCycle_le
  have := p.dayOfYear_le
  have := p.leap
  unfold index
  omega

/-- The days of the years before that of a day. -/
theorem index_eq : p.index = 365 * p.year + p.year / 4 - p.year / 100 + p.dayOfYear := by
  have := p.cycle_le
  have := p.yearOfCycle_le
  unfold index year
  omega

/-- The year is read off the number of the day. -/
theorem year_eq :
    (p.index - p.index / 1460 + p.index / 36524 - p.index / 146096) / 365 = p.year := by
  obtain ⟨c, q, k, d, hc, hq, hk, hd, hl⟩ := p
  unfold index year
  dsimp only
  generalize hn : 36524 * c + 1461 * q + 365 * k + d = n
  have hcentury : 1461 * q + 365 * k + d < 36524 ∨ n = 146096 ∧ c = 3 := by omega
  have hb : n / 36524 = c + n / 146096 := by
    rcases hcentury with hr | ⟨rfl, rfl⟩
    · have h0 : n / 146096 = 0 := by omega
      omega
    · rfl
  -- the days left over in the count of 1460 make a difference only in the last year of a cycle
  have he : n / 1460 = 25 * c + q + (24 * c + q + 365 * k + d) / 1460 := by omega
  have hfew : 365 * k + d < 1460 → d - (24 * c + q + 365 * k + d) / 1460 < 365 ∧
      (24 * c + q + 365 * k + d) / 1460 ≤ d := by
    omega
  have hmany : 1460 ≤ 365 * k + d → (24 * c + q + 365 * k + d) / 1460 = 1 := by omega
  rw [hb, he]
  omega

/-- The number of the month in a year that begins in March, from 0. -/
def monthIndex (p : EraDay) : Nat := (5 * p.dayOfYear + 2) / 153

/-- The month. -/
def month (p : EraDay) : Nat := if p.monthIndex < 10 then p.monthIndex + 3 else p.monthIndex - 9

theorem monthIndex_le : p.monthIndex ≤ 11 := by
  have := p.dayOfYear_le
  unfold monthIndex
  omega

theorem month_eq : (p.month + 9) % 12 = p.monthIndex ∧ 1 ≤ p.month ∧ p.month ≤ 12 := by
  have := p.monthIndex_le
  unfold month
  split <;> omega

theorem month_start_le : (153 * p.monthIndex + 2) / 5 ≤ p.dayOfYear := by
  have := p.dayOfYear_le
  unfold monthIndex
  omega

/-- The day of the calendar. -/
def toDay (era : Int) (p : EraDay) : Day :=
  ⟨if p.month ≤ 2 then p.year + era * 400 + 1 else p.year + era * 400, p.month,
    p.dayOfYear - (153 * p.monthIndex + 2) / 5 + 1⟩

end EraDay

/-! ### Numbers -/

theorem exists_number_eq (n : Int) :
    ∃ (era : Int) (p : EraDay), n = era * 146097 + p.index - 719468 := by
  obtain ⟨p, hp⟩ := EraDay.exists_index_eq (n := ((n + 719468) % 146097).toNat) (by omega)
  exact ⟨(n + 719468) / 146097, p, by omega⟩

theorem ofNumber_eq (era : Int) (p : EraDay) :
    ofNumber (era * 146097 + p.index - 719468) = p.toDay era := by
  have hlt := p.index_lt
  have hz : era * 146097 + (p.index : Int) - 719468 + 719468 = era * 146097 + p.index := by omega
  have hera : (era * 146097 + (p.index : Int)).fdiv 146097 = era := by
    rw [Int.fdiv_eq_ediv_of_nonneg _ (by decide)]
    omega
  have hdoe : (era * 146097 + (p.index : Int) - era * 146097).toNat = p.index := by omega
  have hdoy : p.index - (365 * p.year + p.year / 4 - p.year / 100) = p.dayOfYear := by
    have := p.index_eq
    omega
  simp only [ofNumber, hz, hera, hdoe, p.year_eq, hdoy]
  rfl

theorem number_toDay (era : Int) (p : EraDay) :
    (p.toDay era).number = era * 146097 + p.index - 719468 := by
  have hy := p.year_lt
  have hyear : (if p.month ≤ 2 then (p.toDay era).year - 1 else (p.toDay era).year) =
      p.year + era * 400 := by
    simp only [EraDay.toDay]
    split <;> omega
  have hera : ((p.year : Int) + era * 400).fdiv 400 = era := by
    rw [Int.fdiv_eq_ediv_of_nonneg _ (by decide)]
    omega
  have hyoe : ((p.year : Int) + era * 400 - era * 400).toNat = p.year := by omega
  have hmonth : (p.month + 9) % 12 = p.monthIndex := p.month_eq.1
  have hday : (153 * p.monthIndex + 2) / 5 + (p.toDay era).day - 1 = p.dayOfYear := by
    have := p.month_start_le
    simp only [EraDay.toDay]
    omega
  have hx := p.index_eq
  have hm : (p.toDay era).month = p.month := rfl
  simp only [number, hm, hyear, hera, hyoe, hmonth, hday]
  omega

/-- Every number is that of its day. -/
theorem number_ofNumber (n : Int) : (ofNumber n).number = n := by
  obtain ⟨era, p, rfl⟩ := exists_number_eq n
  rw [ofNumber_eq, number_toDay]

/-! ### Validity -/

theorem isLeap_iff {year : Int} :
    isLeap year = true ↔ year % 4 = 0 ∧ (year % 100 ≠ 0 ∨ year % 400 = 0) := by
  simp [isLeap]

/-- A year that has a day more ends with a leap day. -/
theorem isLeap_of_dayOfYear (era : Int) {p : EraDay} (h : p.dayOfYear = 365) :
    isLeap (p.year + era * 400 + 1) = true := by
  obtain ⟨hk, hc⟩ := p.leap h
  have := p.cycle_le
  rw [isLeap_iff]
  unfold EraDay.year
  omega

theorem day_le_of_ne_february {i d : Nat} (hi : i ≤ 10) (hd : 5 * d + 2 < 153 * i + 153)
    (year : Int) :
    d - (153 * i + 2) / 5 + 1 ≤ monthLength year (if i < 10 then i + 3 else i - 9) := by
  interval_cases i <;> simp [monthLength] <;> omega

/-- No day is beyond the end of its month. -/
theorem day_le_monthLength (era : Int) (p : EraDay) :
    (p.toDay era).day ≤ monthLength (p.toDay era).year (p.toDay era).month := by
  have hd := p.dayOfYear_le
  by_cases hfeb : p.monthIndex = 11
  · have hmonth : p.month = 2 := by
      unfold EraDay.month
      rw [hfeb]
      rfl
    have hday : (p.toDay era).day = p.dayOfYear - 336 := by
      have := p.month_start_le
      simp only [EraDay.toDay, hfeb] at *
      omega
    have hlen : monthLength (p.toDay era).year (p.toDay era).month =
        if isLeap (p.year + era * 400 + 1) then 29 else 28 := by
      simp only [EraDay.toDay, hmonth, monthLength, le_refl, if_true]
    rw [hday, hlen]
    by_cases hl : p.dayOfYear = 365
    · rw [if_pos (isLeap_of_dayOfYear era hl)]
      omega
    · split <;> omega
  · have hi : p.monthIndex ≤ 10 := by
      have := p.monthIndex_le
      omega
    refine day_le_of_ne_february hi ?_ _
    unfold EraDay.monthIndex
    omega

/-- Month and day of every date have two digits at most. -/
theorem month_day_ofNumber_le (n : Int) : (ofNumber n).month ≤ 12 ∧ (ofNumber n).day ≤ 31 := by
  obtain ⟨era, p, rfl⟩ := exists_number_eq n
  rw [ofNumber_eq]
  refine ⟨p.month_eq.2.2, (day_le_monthLength era p).trans ?_⟩
  unfold monthLength
  split
  · split <;> decide
  · split <;> decide

/-- The calendar has the day with a number, unless it is beyond the years of a point in time. -/
theorem isValid_ofNumber {n : Int} (h : -262143 ≤ (ofNumber n).year)
    (h' : (ofNumber n).year ≤ 262142) : (ofNumber n).isValid = true := by
  obtain ⟨era, p, rfl⟩ := exists_number_eq n
  rw [ofNumber_eq] at *
  obtain ⟨-, hm, hm'⟩ := p.month_eq
  simp only [isValid, Bool.and_eq_true, decide_eq_true_eq]
  exact ⟨⟨⟨⟨⟨h, h'⟩, hm⟩, hm'⟩, Nat.succ_le_succ (Nat.zero_le _)⟩, day_le_monthLength era p⟩

end AuthCore.Day
