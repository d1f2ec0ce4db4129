import Mathlib.Tactic.Lemma
import Totality.Proofs.Calendar.TimeScale

/-!
# Leap seconds are written but not read

What a clock shows is read back as the start of its tenth of a second, in every year of the calendar, unless it
shows a leap second. The second of a leap second is written as 60, which no time of day has, and all of its tenths are
written as nine. The main statement is `readsBack_iff`.
-/

namespace Totality

open Text Calendar

namespace Stamp

/-- What the clock shows at the start of a tenth of a second; a leap second has its tenths as well. -/
def floorTenth (s : Stamp) : Stamp :=
  ⟨s.seconds, s.nanos / 100000000 * 100000000, s.day_mem, by
    have := s.nanos_mem
    omega⟩

/-- What is read is what the clock shows, cut off to the tenth of a second, and so not later. -/
def ReadsBack (s : Stamp) (read : Option Instant) : Prop :=
  ∃ t, read = some t ∧ t.stamp = s.floorTenth ∧ t.stamp.NotAfter s

variable {s : Stamp}

@[simp] lemma seconds_floorTenth (s : Stamp) : s.floorTenth.seconds = s.seconds := rfl

@[simp] lemma nanos_floorTenth (s : Stamp) : s.floorTenth.nanos = s.nanos / 100000000 * 100000000 := rfl

lemma floorTenth_notAfter (s : Stamp) : s.floorTenth.NotAfter s := Or.inr ⟨rfl, Nat.div_mul_le_self ..⟩

/-- The start of the tenth is the same for an instant and for what a clock shows then. -/
lemma stamp_floorTenth (t : Instant) : t.floorTenth.stamp = t.stamp.floorTenth := by
  apply eq_of_seconds_of_nanos
  · simp only [Instant.seconds_stamp, Instant.nanos_floorTenth, seconds_floorTenth]
    omega
  · simp only [Instant.nanos_stamp, Instant.nanos_floorTenth, nanos_floorTenth]
    omega

/-- Nothing that is read is within a leap second. -/
lemma not_readsBack_of_leap (h : 1000000000 ≤ s.nanos) (read : Option Instant) : ¬s.ReadsBack read := by
  rintro ⟨t, -, hstamp, -⟩
  have hlt := t.stamp_nanos_lt
  rw [hstamp, nanos_floorTenth] at hlt
  omega

/-! ### Reading -/

/-- There is no time of day with sixty seconds. -/
lemma read?_timeText_of_leap (h : 1000000000 ≤ s.nanos) : DayTime.read? s.timeText.toList = none := by
  have hlt := s.nanos_lt
  have hsecond : s.secondOfDay % 60 = 59 := by
    have hmem := s.nanos_mem
    rw [secondOfDay]
    omega
  rw [read?_timeText, DayTime.ofParts?, dif_neg (by omega)]

lemma readParts?_of_leap (h : 1000000000 ≤ s.nanos) :
    Instant.readParts? s.dateText.toList s.timeText.toList = none := by
  rw [Instant.readParts?, dateText_toList, Date.read?_write, read?_timeText_of_leap h]
  rfl

/-- With a space between them, date and time of day are found again. -/
lemma read?_joined (s : Stamp) : Instant.read? (s.dateText ++ " " ++ s.timeText).toList =
    Instant.readParts? s.dateText.toList s.timeText.toList := by
  have hdate : Solid s.dateText.toList := s.dateText_toList ▸ s.date.solid_write
  have htime := s.solid_timeText
  have hjoined : (s.dateText ++ " " ++ s.timeText).toList = s.dateText.toList ++ ' ' :: s.timeText.toList := by
    rw [String.toList_append, String.toList_append, List.append_assoc]
    rfl
  have hdateNe : s.dateText.toList ≠ [] := by
    rw [dateText_toList, Date.write]
    simp
  have htimeNe : s.timeText.toList ≠ [] := by
    rw [timeText_toList]
    simp
  rw [Instant.read?, hjoined, trim_solid_append hdate hdateNe htime htimeNe, cut?_append hdate (by decide),
    Option.bind_eq_bind, Option.bind_some]

/-- What a clock shows is read back from its date and its time of day, and from both with a space between them, if and
only if it does not show a leap second. Within a leap second there is no result at all. -/
theorem readsBack_iff (s : Stamp) :
    (s.ReadsBack (Instant.readParts? s.dateText.toList s.timeText.toList) ↔ s.nanos < 1000000000) ∧
      (s.ReadsBack (Instant.read? (s.dateText ++ " " ++ s.timeText).toList) ↔ s.nanos < 1000000000) ∧
      (1000000000 ≤ s.nanos → Instant.readParts? s.dateText.toList s.timeText.toList = none ∧
        Instant.read? (s.dateText ++ " " ++ s.timeText).toList = none) := by
  have hparts : s.ReadsBack (Instant.readParts? s.dateText.toList s.timeText.toList) ↔ s.nanos < 1000000000 := by
    constructor
    · intro hreads
      by_contra hleap
      exact not_readsBack_of_leap (Nat.not_lt.mp hleap) _ hreads
    · intro hlt
      obtain ⟨t, rfl⟩ := exists_stamp_eq hlt
      exact ⟨t.floorTenth, t.readParts?_text, stamp_floorTenth t, stamp_floorTenth t ▸ floorTenth_notAfter _⟩
  rw [read?_joined]
  exact ⟨hparts, hparts, fun hleap => ⟨readParts?_of_leap hleap, readParts?_of_leap hleap⟩⟩

/-- The last tenth of the leap second at the end of 2016. -/
def endOf2016 : Stamp := ⟨1483228799, 1900000000, by decide, by decide⟩

/-- Its texts are those of its own tenth, and are refused. -/
theorem endOf2016_not_readsBack : endOf2016.dateText = "2016/12/31" ∧ endOf2016.timeText = "23:59:60.9" ∧
    Instant.readParts? "2016/12/31".toList "23:59:60.9".toList = none ∧
    ¬endOf2016.ReadsBack (Instant.readParts? endOf2016.dateText.toList endOf2016.timeText.toList) := by
  have hnone : Instant.readParts? "2016/12/31".toList "23:59:60.9".toList = none := by decide +kernel
  have hdate : endOf2016.dateText = "2016/12/31" := by decide +kernel
  have htime : endOf2016.timeText = "23:59:60.9" := by decide +kernel
  refine ⟨hdate, htime, hnone, ?_⟩
  rw [hdate, htime, hnone]
  rintro ⟨t, ht, -⟩
  cases ht

end Stamp

end Totality
