import Mathlib.Data.Nat.Digits.Defs
import Mathlib.Tactic.Lemma
import Mathlib.Tactic.SplitIfs
import Totality.Calendar.Notation
import Totality.Proofs.Calendar.Date
import Totality.Proofs.Number.Digits

/-!
# Written dates and times are read back

A date is read back as itself, in all years of the calendar, and a time of day up to a tenth of a second. The
main statement is `readParts?_text`.
-/

namespace Totality

open Text Calendar

/-! ### Numbers with leading zeros -/

lemma allDigits_writePadded (width n : Nat) : AllDigits (writePadded width n) := (allDigits_digitsOf n).padZeros width

lemma writePadded_ne_nil (width n : Nat) : writePadded width n ≠ [] := padZeros_ne_nil (digitsOf_ne_nil n) width

@[simp] lemma digitsValue_writePadded (width n : Nat) : digitsValue (writePadded width n) = n := by
  rw [writePadded, digitsValue_padZeros, digitsValue_digitsOf]

lemma length_writePadded {width n : Nat} (h : n < 10 ^ width) (hwidth : 0 < width) :
    (writePadded width n).length = width := by
  rw [writePadded, length_padZeros]
  exact Nat.max_eq_left (Nat.toDigits_length 10 n width hwidth h)

lemma readNat?_writePadded {n : Nat} (h : n < 4294967296) (width : Nat) :
    readNat? 32 (writePadded width n) = some n := by
  have hvalue := digitsValue_writePadded width n
  rw [readNat?_allDigits (allDigits_writePadded width n) (writePadded_ne_nil width n) (by rw [hvalue]; exact h),
    hvalue]

/-! ### Dates -/

/-- The characters of a written year. -/
lemma mem_writeYear {year : Int} {c : Char} (h : c ∈ writeYear year) : c.isDigit ∨ c = '-' ∨ c = '+' := by
  have hdigits := allDigits_writePadded 4 year.natAbs
  rw [writeYear] at h
  split_ifs at h
  · rcases List.mem_cons.mp h with h | h
    · exact Or.inr (Or.inl h)
    · exact Or.inl (hdigits c h)
  · rcases List.mem_cons.mp h with h | h
    · exact Or.inr (Or.inr h)
    · exact Or.inl (hdigits c h)
  · exact Or.inl (hdigits c h)

lemma solid_writeYear (year : Int) : Solid (writeYear year) := by
  intro c hc
  rcases mem_writeYear hc with hdigit | rfl | rfl
  · exact isBlank_of_isDigit hdigit
  · decide
  · decide

lemma slash_not_mem_writeYear (year : Int) : '/' ∉ writeYear year := by
  intro hmem
  rcases mem_writeYear hmem with h | h | h
  · exact absurd h (by decide)
  · cases h
  · cases h

/-- The sign of a year is read back, whether it is shown or not. -/
lemma read?_writeYear {year : Int} (h : firstYear ≤ year ∧ year ≤ lastYear) :
    (IntegerRange.signed 32).read? (writeYear year) = some year := by
  have hdigits := allDigits_writePadded 4 year.natAbs
  have hne := writePadded_ne_nil 4 year.natAbs
  have hvalue := digitsValue_writePadded 4 year.natAbs
  have hlo : (IntegerRange.signed 32).lo = -2147483648 := by decide
  have hhi : (IntegerRange.signed 32).hi = 2147483647 := by decide
  simp only [firstYear, lastYear] at h
  rw [IntegerRange.read?, writeYear]
  generalize writePadded 4 year.natAbs = ds at *
  split_ifs
  · rw [IntegerRange.read_minus hdigits hne (by omega) (by omega)]
    exact congrArg some (by omega)
  · rw [IntegerRange.read_plus hdigits hne (by omega)]
    exact congrArg some (by omega)
  · rw [IntegerRange.read_allDigits hdigits hne (by omega)]
    exact congrArg some (by omega)

namespace Date

lemma ofYearMonthDay?_self (d : Date) : ofYearMonthDay? d.year d.month d.day = some d := by
  rw [ofYearMonthDay?, dif_pos ⟨d.year_mem, d.month_mem, d.day_mem⟩]

lemma solid_write (d : Date) : Solid (d.write '/') := by
  have hmonth := (allDigits_writePadded 2 d.month).solid
  have hday := (allDigits_writePadded 2 d.day).solid
  exact (solid_writeYear d.year).append (solid_cons (by decide) (hmonth.append (solid_cons (by decide) hday)))

/-- A date is read back as it was written. -/
lemma read?_write (d : Date) : read? (d.write '/') = some d := by
  have hyear := solid_writeYear d.year
  have hmonth := allDigits_writePadded 2 d.month
  have hday := allDigits_writePadded 2 d.day
  have hpieces : splitAt '/' (d.write '/') = [writeYear d.year, writePadded 2 d.month, writePadded 2 d.day] := by
    rw [write, splitAt_append (slash_not_mem_writeYear _), splitAt_append (hmonth.not_mem (by decide)),
      splitAt_of_not_mem (hday.not_mem (by decide))]
  have hmonthMem := d.month_mem
  have hdayLe := d.day_le
  rw [read?, d.solid_write.trim, hpieces]
  dsimp only
  rw [hyear.trim, hmonth.solid.trim, hday.solid.trim, read?_writeYear d.year_mem,
    readNat?_writePadded (by omega), readNat?_writePadded (by omega)]
  exact d.ofYearMonthDay?_self

end Date

/-! ### Times of day -/

/-- A digit behind the point counts tenths of a second. -/
lemma readFraction?_tenth {tenth : Nat} (h : tenth < 10) : readFraction? (digitsOf tenth) = some (tenth * 100000) := by
  have hlength := length_digitsOf_of_lt_ten h
  have htake : (digitsOf tenth ++ List.replicate 6 '0').take 6 = digitsOf tenth ++ List.replicate 5 '0' := by
    rw [List.take_append, hlength, List.take_of_length_le (by omega), List.take_replicate]
    rfl
  have hall : (digitsOf tenth).all Char.isDigit := List.all_eq_true.mpr (allDigits_digitsOf tenth)
  rw [readFraction?, if_pos hall, htake, digitsValue_append_zeros, digitsValue_digitsOf]

namespace Stamp

variable (s : Stamp)

lemma secondOfDay_lt : s.secondOfDay < 86400 := by
  rw [secondOfDay]
  omega

lemma nanos_lt : s.nanos < 2000000000 := by
  have := s.nanos_mem
  omega

lemma dateText_toList : s.dateText.toList = s.date.write '/' := String.toList_ofList

/-- A time of day is two digits three times, and a digit behind the point. -/
lemma timeText_toList : s.timeText.toList =
    writePadded 2 (s.secondOfDay / 3600) ++ ':' :: (writePadded 2 (s.secondOfDay / 60 % 60) ++
      ':' :: (writePadded 2 (s.secondOfDay % 60 + s.nanos / 1000000000) ++
        '.' :: digitsOf (min 9 (s.nanos / 100000000)))) := by
  rw [timeText, String.toList_ofList, writeClock]
  simp

lemma solid_timeText : Solid s.timeText.toList := by
  have hpadded := fun n => (allDigits_writePadded 2 n).solid
  have htenth := (allDigits_digitsOf (min 9 (s.nanos / 100000000))).solid
  rw [timeText_toList]
  exact (hpadded _).append (solid_cons (by decide) ((hpadded _).append
    (solid_cons (by decide) ((hpadded _).append (solid_cons (by decide) htenth)))))

/-- The numbers of a time of day are read as they were written, and make a time of day if they may. -/
lemma read?_timeText : DayTime.read? s.timeText.toList =
    DayTime.ofParts? (s.secondOfDay / 3600) (s.secondOfDay / 60 % 60) (s.secondOfDay % 60 + s.nanos / 1000000000)
      (min 9 (s.nanos / 100000000) * 100000) := by
  have hlt := s.nanos_lt
  have hday := s.secondOfDay_lt
  have hsolid := s.solid_timeText
  rw [timeText_toList] at *
  generalize s.secondOfDay = n at *
  generalize s.nanos = nanos at *
  have htenth : min 9 (nanos / 100000000) < 10 := by omega
  have hhour := allDigits_writePadded 2 (n / 3600)
  have hminute := allDigits_writePadded 2 (n / 60 % 60)
  have hsecond := allDigits_writePadded 2 (n % 60 + nanos / 1000000000)
  have hfraction := allDigits_digitsOf (min 9 (nanos / 100000000))
  have hlast : ':' ∉ writePadded 2 (n % 60 + nanos / 1000000000) ++ '.' :: digitsOf (min 9 (nanos / 100000000)) := by
    rw [List.mem_append, List.mem_cons, not_or, not_or]
    exact ⟨hsecond.not_mem (by decide), by decide, hfraction.not_mem (by decide)⟩
  have hpoint : ∀ c ∈ writePadded 2 (n % 60 + nanos / 1000000000), (c == '.') = false := fun c hc =>
    beq_eq_false_iff_ne.mpr (ne_of_isDigit (hsecond c hc) (by decide))
  rw [DayTime.read?, hsolid.trim, splitAt_append (hhour.not_mem (by decide)),
    splitAt_append (hminute.not_mem (by decide)), splitAt_of_not_mem hlast]
  dsimp only
  rw [readNat?_writePadded (by omega), readNat?_writePadded (by omega), cut?_append hpoint (by decide)]
  simp only [Option.getD_some, Option.bind_eq_bind, Option.bind_some]
  rw [readNat?_writePadded (by omega), readFraction?_tenth htenth]
  rfl

end Stamp

namespace Instant

/-- The instant at the start of its tenth of a second. -/
def floorTenth (t : Instant) : Instant :=
  ⟨t.nanos / 100000000 * 100000000, by
    have := t.mem
    simp only [firstNano, lastNano, firstDay, lastDay, dayNanos] at *
    omega⟩

@[simp] lemma nanos_floorTenth (t : Instant) : t.floorTenth.nanos = t.nanos / 100000000 * 100000000 := rfl

@[simp] lemma seconds_stamp (t : Instant) : t.stamp.seconds = t.nanos / 1000000000 := rfl

@[simp] lemma nanos_stamp (t : Instant) : t.stamp.nanos = (t.nanos % 1000000000).toNat := rfl

lemma stamp_nanos_lt (t : Instant) : t.stamp.nanos < 1000000000 := by
  rw [nanos_stamp]
  omega

/-- Outside of a leap second there are less than sixty seconds, and the tenths are what they are. -/
lemma timeText_toList (t : Instant) : t.timeText.toList =
    writePadded 2 (t.stamp.secondOfDay / 3600) ++ ':' :: (writePadded 2 (t.stamp.secondOfDay / 60 % 60) ++
      ':' :: (writePadded 2 (t.stamp.secondOfDay % 60) ++ '.' :: digitsOf (t.stamp.nanos / 100000000))) := by
  have hlt := t.stamp_nanos_lt
  have hleap : t.stamp.nanos / 1000000000 = 0 := by omega
  have htenth : min 9 (t.stamp.nanos / 100000000) = t.stamp.nanos / 100000000 := by omega
  rw [timeText, Stamp.timeText_toList, hleap, htenth, Nat.add_zero]

lemma solid_timeText (t : Instant) : Solid t.timeText.toList := t.stamp.solid_timeText

/-- A time of day is read back up to the tenth of a second. -/
lemma read?_timeText (t : Instant) : ∃ time : DayTime, DayTime.read? t.timeText.toList = some time ∧
    time.nanos = t.stamp.secondOfDay * 1000000000 + t.stamp.nanos / 100000000 * 100000000 := by
  have hlt := t.stamp_nanos_lt
  have hday := t.stamp.secondOfDay_lt
  rw [timeText, Stamp.read?_timeText, DayTime.ofParts?, dif_pos (by omega)]
  refine ⟨_, rfl, ?_⟩
  dsimp only
  omega

/-- Whole tenths of a second are read back. -/
lemma read?_timeText_of_dvd {t : Instant} (h : 100000000 ∣ t.nanos) :
    DayTime.read? t.timeText.toList = some t.timeOfDay := by
  obtain ⟨⟨nanos, hlt⟩, htime, hnanos⟩ := t.read?_timeText
  obtain rfl : nanos = t.timeOfDay.nanos := by
    rw [timeOfDay]
    dsimp only at *
    rw [hnanos, Stamp.secondOfDay, stamp, dayNanos]
    dsimp only
    omega
  exact htime

lemma stamp_date (t : Instant) : t.stamp.date = t.date := by
  apply Date.number_injective
  rw [number_date, Stamp.date, Date.number_ofNumber, stamp, dayNanos]
  dsimp only
  omega

lemma dateText_toList (t : Instant) : t.dateText.toList = t.date.write '/' := by
  rw [dateText, Stamp.dateText_toList, stamp_date]

/-- An instant is read back as the start of its tenth of a second. -/
lemma readParts?_text (t : Instant) : readParts? t.dateText.toList t.timeText.toList = some t.floorTenth := by
  obtain ⟨time, htime, hnanos⟩ := t.read?_timeText
  rw [readParts?, dateText_toList, Date.read?_write, htime]
  refine congrArg some (ext_nanos ?_)
  rw [on]
  dsimp only
  rw [number_date, hnanos, floorTenth, Stamp.secondOfDay, stamp, dayNanos]
  dsimp only
  omega

lemma readParts?_text_of_dvd {t : Instant} (h : 100000000 ∣ t.nanos) :
    readParts? t.dateText.toList t.timeText.toList = some t := by
  rw [readParts?, dateText_toList, Date.read?_write, read?_timeText_of_dvd h]
  exact congrArg some t.on_timeOfDay

end Instant

end Totality
