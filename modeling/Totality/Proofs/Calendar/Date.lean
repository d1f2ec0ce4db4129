import Mathlib.Order.Monotone.Basic
import Mathlib.Tactic.Lemma
import Mathlib.Tactic.SplitIfs
import Totality.Proofs.Calendar.Instant

/-!
# A day is known by its number

No two days have the same number, so the day of an instant is the day it was put on.
-/

namespace Totality

open Calendar

namespace Date

lemma leapDay_le (year : Int) : leapDay year ≤ 1 := by
  rw [leapDay]
  split <;> omega

lemma daysBeforeMonth_mono (year : Int) : Monotone (daysBeforeMonth year) :=
  monotone_nat_of_le_succ fun _ => Nat.le_add_right _ _

lemma day_le (d : Date) : d.day ≤ 31 := by
  have hleap := leapDay_le d.year
  have hlength : monthLength d.year d.month ≤ 31 := by
    unfold monthLength
    split <;> omega
  exact Nat.le_trans d.day_mem.2 hlength

/-- The days up to a day of a year, that day included, are those of the year at most. -/
lemma dayOfYear_le (d : Date) : daysBeforeMonth d.year d.month + d.day ≤ 365 + leapDay d.year := by
  have hmonth : daysBeforeMonth d.year (d.month + 1) ≤ daysBeforeMonth d.year 13 :=
    daysBeforeMonth_mono d.year (Nat.succ_le_succ d.month_mem.2)
  have hyear : daysBeforeMonth d.year 13 = 365 + leapDay d.year := by
    rw [daysBeforeMonth, daysBeforeMonth_twelve, monthLength]
    omega
  have hday : daysBeforeMonth d.year d.month + d.day ≤ daysBeforeMonth d.year (d.month + 1) :=
    Nat.add_le_add_left d.day_mem.2 _
  omega

/-- A day of an earlier year has a smaller number. -/
lemma number_lt_of_year_lt {d d' : Date} (h : d.year < d'.year) : d.number < d'.number := by
  have hyear := daysBeforeYear_mono (Int.add_one_le_of_lt h)
  rw [daysBeforeYear_succ] at hyear
  have hle := d.dayOfYear_le
  have hday := d'.day_mem.1
  rw [number, number]
  omega

/-- So has a day of an earlier month of the same year. -/
lemma number_lt_of_month_lt {d d' : Date} (hyear : d.year = d'.year) (h : d.month < d'.month) :
    d.number < d'.number := by
  have hmonth : daysBeforeMonth d.year (d.month + 1) ≤ daysBeforeMonth d.year d'.month :=
    daysBeforeMonth_mono d.year h
  rw [daysBeforeMonth] at hmonth
  have hle := d.day_mem.2
  have hday := d'.day_mem.1
  rw [number, number, ← hyear]
  omega

lemma number_injective {d d' : Date} (h : d.number = d'.number) : d = d' := by
  have hyear : d.year = d'.year := by
    rcases lt_trichotomy d.year d'.year with hlt | heq | hlt
    · exact absurd h (Int.ne_of_lt (number_lt_of_year_lt hlt))
    · exact heq
    · exact absurd h (Int.ne_of_gt (number_lt_of_year_lt hlt))
  have hmonth : d.month = d'.month := by
    rcases lt_trichotomy d.month d'.month with hlt | heq | hlt
    · exact absurd h (Int.ne_of_lt (number_lt_of_month_lt hyear hlt))
    · exact heq
    · exact absurd h (Int.ne_of_gt (number_lt_of_month_lt hyear.symm hlt))
  have hday : d.day = d'.day := by
    rw [number, number, hyear, hmonth] at h
    omega
  cases d
  cases d'
  simp_all

@[simp] lemma number_ofNumber (n : Int) (h : firstDay ≤ n ∧ n ≤ lastDay) : (ofNumber n h).number = n := by
  have hyear := yearOfDay_spec (n + 719162)
  have hmonth := (monthOfDay_spec (yearOfDay (n + 719162)) 11 1
    (n + 719162 - daysBeforeYear (yearOfDay (n + 719162))).toNat).2.2.2.1
  have hfirst : daysBeforeMonth (yearOfDay (n + 719162)) 1 = 0 := rfl
  simp only [number, ofNumber]
  omega

@[simp] lemma ofNumber_number (d : Date) (h : firstDay ≤ d.number ∧ d.number ≤ lastDay) : ofNumber d.number h = d :=
  number_injective (number_ofNumber d.number h)

end Date

namespace Instant

/-- An instant falls on the day it was put on. -/
@[simp] lemma date_on (d : Date) (t : DayTime) : (on d t).date = d := by
  have ht := t.lt
  have hday : (on d t).nanos / dayNanos = d.number := by
    rw [on]
    simp only [dayNanos] at *
    omega
  apply Date.number_injective
  rw [date, Date.number_ofNumber, hday]

lemma number_date (t : Instant) : t.date.number = t.nanos / dayNanos := Date.number_ofNumber _ _

/-- What has passed of the day of an instant. -/
def timeOfDay (t : Instant) : DayTime :=
  ⟨(t.nanos % dayNanos).toNat, by
    rw [dayNanos]
    omega⟩

@[simp] lemma on_timeOfDay (t : Instant) : on t.date t.timeOfDay = t := by
  apply ext_nanos
  rw [on, timeOfDay]
  dsimp only
  rw [number_date, dayNanos]
  omega

/-- The time of day of an instant within the next 24 hours, on the day these begin, is the instant itself if that is its
day, and otherwise 24 hours before it. -/
lemma nanos_on_timeOfDay {first t : Instant} (h : first ≤ t) (h' : t.nanos < first.nanos + dayNanos) :
    (on first.date t.timeOfDay).nanos = if t.date = first.date then t.nanos else t.nanos - dayNanos := by
  have hle : first.nanos ≤ t.nanos := h
  split_ifs with hday
  · rw [← hday, on_timeOfDay]
  · have hnumber : t.date.number ≠ first.date.number := fun heq => hday (Date.number_injective heq)
    rw [number_date, number_date, dayNanos] at hnumber
    rw [on, timeOfDay]
    dsimp only
    rw [number_date, dayNanos] at *
    omega

end Instant

end Totality
