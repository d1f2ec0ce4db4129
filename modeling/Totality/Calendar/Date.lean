/-!
# Days of the calendar

The proleptic Gregorian calendar from the year -262143 to the year 262142. A day has a number, counted from
1970/01/01; naming a day by its number and numbering it by its name are inverse to each other.
-/

namespace Totality.Calendar

/-! ### Years and months -/

def isLeap (year : Int) : Bool :=
  decide (year % 4 = 0 ∧ (year % 100 ≠ 0 ∨ year % 400 = 0))

def leapDay (year : Int) : Nat := if isLeap year then 1 else 0

/-- The number of days of a month, zero for a month that does not exist. -/
def monthLength (year : Int) : Nat → Nat
  | 1 | 3 | 5 | 7 | 8 | 10 | 12 => 31
  | 4 | 6 | 9 | 11 => 30
  | 2 => 28 + leapDay year
  | _ => 0

/-- The days from 0001/01/01 to the first day of a year. -/
def daysBeforeYear (year : Int) : Int :=
  365 * (year - 1) + (year - 1) / 4 - (year - 1) / 100 + (year - 1) / 400

/-- The days of a year before the first day of a month. -/
def daysBeforeMonth (year : Int) : Nat → Nat
  | 0 => 0
  | m + 1 => daysBeforeMonth year m + monthLength year m

def firstYear : Int := -262143

def lastYear : Int := 262142

end Totality.Calendar

namespace Totality

open Calendar

/-- A day that exists, in a year that the calendar covers. -/
structure Date where
  year : Int
  month : Nat
  day : Nat
  year_mem : firstYear ≤ year ∧ year ≤ lastYear
  month_mem : 1 ≤ month ∧ month ≤ 12
  day_mem : 1 ≤ day ∧ day ≤ monthLength year month
  deriving DecidableEq

namespace Date

def ofYearMonthDay? (year : Int) (month day : Nat) : Option Date :=
  if h : (firstYear ≤ year ∧ year ≤ lastYear) ∧ (1 ≤ month ∧ month ≤ 12) ∧
      1 ≤ day ∧ day ≤ monthLength year month then
    some ⟨year, month, day, h.1, h.2.1, h.2.2⟩
  else none

/-- The number of a day, zero for 1970/01/01. -/
def number (d : Date) : Int :=
  daysBeforeYear d.year + daysBeforeMonth d.year d.month + d.day - 1 - 719162

end Date

namespace Calendar

/-- The numbers of the first and the last day that the calendar covers. -/
def firstDay : Int := -96465292

def lastDay : Int := 95026236

/-- The year of the day that is `n` days after 0001/01/01: an estimate from the mean length of a year,
which is wrong by one year at most. -/
def yearOfDay (n : Int) : Int :=
  let y := n * 400 / 146097 + 1
  if n < daysBeforeYear y then y - 1
  else if daysBeforeYear (y + 1) ≤ n then y + 1
  else y

/-- The month and the day of the month, for the day that is `k` days after the first of `month`. -/
def monthOfDay (year : Int) (month k : Nat) : Nat → Nat × Nat
  | 0 => (month, k + 1)
  | left + 1 =>
    if k < monthLength year month then (month, k + 1)
    else monthOfDay year (month + 1) (k - monthLength year month) left

theorem daysBeforeYear_succ (y : Int) :
    daysBeforeYear (y + 1) = daysBeforeYear y + 365 + leapDay y := by
  simp only [daysBeforeYear, leapDay, isLeap, decide_eq_true_eq]
  split <;> omega

theorem yearOfDay_spec (n : Int) :
    daysBeforeYear (yearOfDay n) ≤ n ∧ n < daysBeforeYear (yearOfDay n + 1) := by
  simp only [yearOfDay]
  split
  · simp only [daysBeforeYear] at *; omega
  · split
    · simp only [daysBeforeYear] at *; omega
    · simp only [daysBeforeYear] at *; omega

/-- Later years begin later. -/
theorem daysBeforeYear_mono {y z : Int} (h : y ≤ z) : daysBeforeYear y ≤ daysBeforeYear z := by
  simp only [daysBeforeYear]; omega

/-- The search for a month keeps count of the days it passes. -/
theorem monthOfDay_spec (y : Int) (left m k : Nat) :
    m ≤ (monthOfDay y m k left).1 ∧ (monthOfDay y m k left).1 ≤ m + left ∧
      1 ≤ (monthOfDay y m k left).2 ∧
      daysBeforeMonth y (monthOfDay y m k left).1 + (monthOfDay y m k left).2 =
        daysBeforeMonth y m + k + 1 ∧
      ((monthOfDay y m k left).1 < m + left →
        (monthOfDay y m k left).2 ≤ monthLength y (monthOfDay y m k left).1) := by
  induction left generalizing m k with
  | zero => simp [monthOfDay]; omega
  | succ left ih =>
    simp only [monthOfDay]
    split
    · simp; omega
    · have := ih (m + 1) (k - monthLength y m)
      simp only [daysBeforeMonth] at this
      omega

/-- The numbered days lie in the years of the calendar. -/
theorem year_mem_of_day_mem {n : Int} (h : firstDay ≤ n ∧ n ≤ lastDay) :
    firstYear ≤ yearOfDay (n + 719162) ∧ yearOfDay (n + 719162) ≤ lastYear := by
  have hy := yearOfDay_spec (n + 719162)
  have hlo : daysBeforeYear (firstYear - 1 + 1) = firstDay + 719162 := by decide
  have hhi : daysBeforeYear (lastYear + 1) = lastDay + 1 + 719162 := by decide
  constructor
  · have := @daysBeforeYear_mono (yearOfDay (n + 719162) + 1) (firstYear - 1 + 1)
    omega
  · have := @daysBeforeYear_mono (lastYear + 1) (yearOfDay (n + 719162))
    omega

theorem daysBeforeMonth_twelve (y : Int) : daysBeforeMonth y 12 = 334 + leapDay y := by
  simp only [daysBeforeMonth, monthLength]; omega

/-- A day of the year falls into a month, and onto a day of that month. -/
theorem monthOfDay_mem (y : Int) {k : Nat} (h : k < 365 + leapDay y) :
    (1 ≤ (monthOfDay y 1 k 11).1 ∧ (monthOfDay y 1 k 11).1 ≤ 12) ∧
      1 ≤ (monthOfDay y 1 k 11).2 ∧
      (monthOfDay y 1 k 11).2 ≤ monthLength y (monthOfDay y 1 k 11).1 := by
  have hs := monthOfDay_spec y 11 1 k
  have h12 := daysBeforeMonth_twelve y
  have h1 : daysBeforeMonth y 1 = 0 := rfl
  generalize monthOfDay y 1 k 11 = r at hs
  obtain ⟨m, d⟩ := r
  refine ⟨⟨hs.1, hs.2.1⟩, hs.2.2.1, ?_⟩
  rcases Nat.lt_or_ge m 12 with hm | hm
  · exact hs.2.2.2.2 hm
  · obtain rfl : m = 12 := by simp only at hs; omega
    simp only [monthLength] at *
    omega

end Calendar

namespace Date

/-- The day with a given number. -/
def ofNumber (n : Int) (h : firstDay ≤ n ∧ n ≤ lastDay) : Date :=
  let y := yearOfDay (n + 719162)
  let k := (n + 719162 - daysBeforeYear y).toNat
  have hy := yearOfDay_spec (n + 719162)
  have hk : k < 365 + leapDay y := by
    have := daysBeforeYear_succ y
    simp only [k, y] at *
    omega
  have hm := monthOfDay_mem y hk
  have hf : firstYear ≤ y ∧ y ≤ lastYear := year_mem_of_day_mem h
  ⟨y, (monthOfDay y 1 k 11).1, (monthOfDay y 1 k 11).2, hf, hm.1, hm.2⟩

theorem number_mem (d : Date) : firstDay ≤ d.number ∧ d.number ≤ lastDay := by
  obtain ⟨y, m, d, hf, hm, hd⟩ := d
  have hb := daysBeforeYear_succ y
  have hlo : daysBeforeYear firstYear = firstDay + 719162 := by decide
  have hhi : daysBeforeYear (lastYear + 1) = lastDay + 1 + 719162 := by decide
  have hl := daysBeforeYear_mono hf.1
  have hh := @daysBeforeYear_mono (y + 1) (lastYear + 1) (by omega)
  have hsum : 1 ≤ daysBeforeMonth y m + d ∧ daysBeforeMonth y m + d ≤ 365 + leapDay y := by
    obtain rfl | rfl | rfl | rfl | rfl | rfl | rfl | rfl | rfl | rfl | rfl | rfl :
        m = 1 ∨ m = 2 ∨ m = 3 ∨ m = 4 ∨ m = 5 ∨ m = 6 ∨ m = 7 ∨ m = 8 ∨ m = 9 ∨ m = 10 ∨ m = 11 ∨
          m = 12 := by omega
    all_goals simp only [daysBeforeMonth, monthLength] at *; omega
  simp only [number]
  omega

end Date

end Totality
