import Totality.Calendar.Notation
import Totality.Proofs.Calendar.Notation
import Totality.Proofs.Number.WholeNumeral
import Totality.Proofs.Text.Blanks

/-!
# Texts of dates and times

The texts that are read as an instant are those of a date, a blank and a time of day, each made of three numerals.
Behind the seconds may stand a point and digits, of which the first six count. The main statement is `read?_iff_says`.
-/

namespace Totality

open Text Calendar

variable {cs ds : List Char}

/-! ### Fractions of a second -/

/-- The microseconds in the fraction of a second with these digits behind the point, rounded down. -/
def fractionMicros (fraction : List Char) : Nat := digitsValue fraction * 1000000 / 10 ^ fraction.length

lemma digitsValue_append (cs ds : List Char) :
    digitsValue (cs ++ ds) = digitsValue cs * 10 ^ ds.length + digitsValue ds := by
  rw [digitsValue_eq, digitsValue_eq, digitsValue_eq, Nat.ofDigitChars_append, Nat.ofDigitChars_eq_ofDigitChars_zero,
    Nat.mul_comm]

lemma AllDigits.digitsValue_lt (h : AllDigits ds) : digitsValue ds < 10 ^ ds.length := by
  induction ds with
  | nil => decide
  | cons c ds ih =>
    obtain ⟨hc, hds⟩ := List.forall_mem_cons.mp h
    have hrange := toNat_of_isDigit hc
    have hone : digitsValue [c] ≤ 9 := by
      change 0 * 10 + (c.toNat - 48) ≤ 9
      omega
    have hmul := Nat.mul_le_mul_right (10 ^ ds.length) hone
    have hlt := ih hds
    rw [← List.singleton_append, digitsValue_append, List.length_append, List.length_singleton, Nat.pow_add,
      Nat.pow_one]
    omega

/-- Digits behind the first ones are cut off. -/
lemma AllDigits.digitsValue_take (h : AllDigits ds) (k : Nat) :
    digitsValue (ds.take k) = digitsValue ds / 10 ^ (ds.length - k) := by
  have hdrop : AllDigits (ds.drop k) := fun c hc => h c (List.mem_of_mem_drop hc)
  have hlt := hdrop.digitsValue_lt
  have hsplit := digitsValue_append (ds.take k) (ds.drop k)
  rw [List.take_append_drop] at hsplit
  rw [List.length_drop] at hsplit hlt
  rw [hsplit, Nat.add_comm, Nat.add_mul_div_right _ _ (Nat.pow_pos (by decide)), Nat.div_eq_of_lt hlt, Nat.zero_add]

/-- Six digits are kept, and zeros stand in for those that are missing. -/
lemma AllDigits.fractionMicros_eq (h : AllDigits ds) :
    fractionMicros ds = digitsValue ((ds ++ List.replicate 6 '0').take 6) := by
  have hzeros := (h.append (allDigits_replicate_zero 6)).digitsValue_take 6
  have hpow : Nat.pow 10 6 = 1000000 := rfl
  rw [digitsValue_append_zeros, List.length_append, List.length_replicate, Nat.add_sub_cancel, hpow] at hzeros
  rw [hzeros, fractionMicros]

lemma readFraction?_eq_some_iff {micros : Nat} :
    readFraction? ds = some micros ↔ AllDigits ds ∧ micros = fractionMicros ds := by
  have hall : ds.all Char.isDigit = true ↔ AllDigits ds := List.all_eq_true
  rw [readFraction?]
  split
  · next h =>
    rw [hall] at h
    rw [Option.some.injEq, ← h.fractionMicros_eq, eq_comm]
    exact (and_iff_right h).symm
  · next h =>
    rw [hall] at h
    exact iff_of_false (by simp) fun hdigits => h hdigits.1

lemma AllDigits.fractionMicros_lt (h : AllDigits ds) : fractionMicros ds < 1000000 := by
  have hlt := h.digitsValue_lt
  rw [fractionMicros, Nat.div_lt_iff_lt_mul (Nat.pow_pos (by decide)), Nat.mul_comm]
  exact Nat.mul_lt_mul_of_pos_left hlt (by decide)

/-- Zeros at the end of a fraction do not count. -/
lemma fractionMicros_append_zeros (ds : List Char) (k : Nat) :
    fractionMicros (ds ++ List.replicate k '0') = fractionMicros ds := by
  have hpow : Nat.pow 10 k = 10 ^ k := Nat.pow_eq
  rw [fractionMicros, digitsValue_append_zeros, List.length_append, List.length_replicate, Nat.pow_add, hpow,
    Nat.mul_right_comm, Nat.mul_div_mul_right _ _ (Nat.pow_pos (by decide)), fractionMicros]

/-- Digits beyond the sixth do not count. -/
lemma fractionMicros_append (hcs : AllDigits cs) (hds : AllDigits ds) (hlength : 6 ≤ cs.length) :
    fractionMicros (cs ++ ds) = fractionMicros cs := by
  rw [(hcs.append hds).fractionMicros_eq, hcs.fractionMicros_eq, List.append_assoc,
    List.take_append_of_le_length hlength, List.take_append_of_le_length hlength]

/-! ### Dates -/

/-- A date is written as the numerals of its year, its month and its day, with slashes between them. -/
def Date.WrittenAs (d : Date) (cs : List Char) : Prop :=
  ∃ year month day, SignedNumeral d.year year ∧ Numeral d.month month ∧ Numeral d.day day ∧
    cs = year ++ '/' :: (month ++ '/' :: day)

namespace Date

variable {d : Date}

lemma WrittenAs.mem (h : d.WrittenAs cs) : ∀ c ∈ cs, c.isDigit ∨ c = '+' ∨ c = '-' ∨ c = '/' := by
  obtain ⟨year, month, day, hyear, hmonth, hday, rfl⟩ := h
  have hsigned : ∀ {z : Int} {cs : List Char}, SignedNumeral z cs →
      ∀ c ∈ cs, c.isDigit ∨ c = '+' ∨ c = '-' ∨ c = '/' := by
    intro z cs hz c hc
    rcases hz.mem c hc with hdigit | rfl | rfl <;> simp [*]
  intro c hc
  simp only [List.mem_append, List.mem_cons] at hc
  rcases hc with hc | rfl | hc | rfl | hc
  · exact hsigned hyear c hc
  · simp
  · exact hsigned hmonth.signed c hc
  · simp
  · exact hsigned hday.signed c hc

lemma WrittenAs.solid (h : d.WrittenAs cs) : Solid cs := by
  intro c hc
  rcases h.mem c hc with hdigit | rfl | rfl | rfl
  · exact isBlank_of_isDigit hdigit
  · decide
  · decide
  · decide

lemma WrittenAs.point_not_mem (h : d.WrittenAs cs) : '.' ∉ cs := by
  intro hmem
  rcases h.mem '.' hmem with hdigit | hpoint | hpoint | hpoint
  · exact absurd hdigit (by decide)
  · cases hpoint
  · cases hpoint
  · cases hpoint

lemma ofYearMonthDay?_eq_some_iff {year : Int} {month day : Nat} :
    ofYearMonthDay? year month day = some d ↔ d.year = year ∧ d.month = month ∧ d.day = day := by
  constructor
  · intro h
    rw [ofYearMonthDay?] at h
    split at h
    · obtain rfl := Option.some.inj h
      exact ⟨rfl, rfl, rfl⟩
    · cases h
  · rintro ⟨rfl, rfl, rfl⟩
    exact d.ofYearMonthDay?_self

/-- Among the texts without blanks, a date is read from what it is written as. -/
lemma read?_eq_some_iff (hcs : Solid cs) : read? cs = some d ↔ d.WrittenAs cs := by
  rw [read?, hcs.trim]
  constructor
  · intro h
    split at h
    · next y m k hpieces =>
      obtain ⟨-, -, rfl⟩ := splitAt_eq_iff.mp hpieces
      have hsolid : Solid y ∧ Solid m ∧ Solid k := by
        refine ⟨fun c hc => hcs c ?_, fun c hc => hcs c ?_, fun c hc => hcs c ?_⟩ <;>
          simp [List.intercalate, hc]
      rw [hsolid.1.trim, hsolid.2.1.trim, hsolid.2.2.trim] at h
      obtain ⟨year, hyear, h⟩ := Option.bind_eq_some_iff.mp h
      obtain ⟨month, hmonth, h⟩ := Option.bind_eq_some_iff.mp h
      obtain ⟨day, hday, h⟩ := Option.bind_eq_some_iff.mp h
      obtain ⟨rfl, rfl, rfl⟩ := ofYearMonthDay?_eq_some_iff.mp h
      refine ⟨y, m, k, (read?_signed_eq_some_iff.mp hyear).1, (readNat?_eq_some_iff.mp hmonth).1,
        (readNat?_eq_some_iff.mp hday).1, ?_⟩
      simp [List.intercalate]
    · cases h
  · rintro ⟨y, m, k, hyear, hmonth, hday, rfl⟩
    have hslash : ¬('/'.isDigit ∨ '/' = '+' ∨ '/' = '-') := by decide
    have hpieces : splitAt '/' (y ++ '/' :: (m ++ '/' :: k)) = [y, m, k] := by
      rw [splitAt_append (hyear.not_mem hslash), splitAt_append (hmonth.signed.not_mem hslash),
        splitAt_of_not_mem (hday.signed.not_mem hslash)]
    have hyearMem := d.year_mem
    simp only [firstYear, lastYear] at hyearMem
    have hmonthMem := d.month_mem
    have hdayLe := d.day_le
    rw [hpieces]
    dsimp only
    rw [hyear.solid.trim, hmonth.signed.solid.trim, hday.signed.solid.trim,
      read?_signed_eq_some_iff.mpr ⟨hyear, by omega⟩, readNat?_eq_some_iff.mpr ⟨hmonth, by omega⟩,
      readNat?_eq_some_iff.mpr ⟨hday, by omega⟩]
    exact d.ofYearMonthDay?_self

end Date

/-! ### Times of day -/

lemma DayTime.ext_nanos {t t' : DayTime} (h : t.nanos = t'.nanos) : t = t' := by
  cases t
  cases t'
  cases h
  rfl

/-- An hour, a minute and a second of a day, and the digits of a fraction of that second. -/
structure ClockTime where
  hour : Nat
  minute : Nat
  second : Nat
  fraction : List Char
  hour_lt : hour < 24
  minute_lt : minute < 60
  second_lt : second < 60
  fraction_digits : AllDigits fraction

namespace ClockTime

/-- The time of day that a clock shows, rounded down to microseconds. -/
def time (c : ClockTime) : DayTime where
  nanos := ((c.hour * 60 + c.minute) * 60 + c.second) * 1000000000 + fractionMicros c.fraction * 1000
  lt := by
    have hhour := c.hour_lt
    have hminute := c.minute_lt
    have hsecond := c.second_lt
    have hfraction := c.fraction_digits.fractionMicros_lt
    rw [dayNanos]
    omega

/-- A clock is written as three numerals with colons between them, and a point in front of its fraction. Without digits
the point may be missing. -/
def WrittenAs (c : ClockTime) (cs : List Char) : Prop :=
  ∃ hour minute second point, Numeral c.hour hour ∧ Numeral c.minute minute ∧ Numeral c.second second ∧
    (point = '.' :: c.fraction ∨ point = [] ∧ c.fraction = []) ∧
      cs = hour ++ ':' :: (minute ++ ':' :: (second ++ point))

variable {c : ClockTime}

lemma ofParts?_eq_some_iff {hour minute second micros : Nat} {t : DayTime} :
    DayTime.ofParts? hour minute second micros = some t ↔
      (hour < 24 ∧ minute < 60 ∧ second < 60 ∧ micros < 1000000) ∧
        t.nanos = ((hour * 60 + minute) * 60 + second) * 1000000000 + micros * 1000 := by
  rw [DayTime.ofParts?]
  split
  · next h =>
    rw [Option.some.injEq, and_iff_right h, eq_comm]
    exact ⟨fun ht => ht ▸ rfl, fun ht => DayTime.ext_nanos ht⟩
  · next h => exact iff_of_false (by simp) fun hparts => h hparts.1

/-- The seconds are cut at their point, if they have one. -/
lemma exists_point (s : List Char) : ∃ whole fraction point, (cut? (· == '.') s).getD (s, []) = (whole, fraction) ∧
    (point = '.' :: fraction ∨ point = [] ∧ fraction = []) ∧ s = whole ++ point := by
  cases hcut : cut? (· == '.') s with
  | none => exact ⟨s, [], [], rfl, Or.inr ⟨rfl, rfl⟩, (List.append_nil s).symm⟩
  | some parts =>
    obtain ⟨c, hs, hc, -⟩ := cut?_eq_some_iff.mp hcut
    obtain rfl := beq_iff_eq.mp hc
    exact ⟨parts.1, parts.2, '.' :: parts.2, rfl, Or.inl rfl, hs⟩

/-- The point is found behind a numeral. -/
lemma cut_second {second point : List Char} (hsecond : Numeral c.second second)
    (hpoint : point = '.' :: c.fraction ∨ point = [] ∧ c.fraction = []) :
    (cut? (· == '.') (second ++ point)).getD (second ++ point, []) = (second, c.fraction) := by
  have hbefore : ∀ d ∈ second, (d == '.') = false := by
    intro d hd
    rw [beq_eq_false_iff_ne]
    rintro rfl
    exact hsecond.signed.not_mem (by decide) hd
  obtain rfl | ⟨rfl, hnil⟩ := hpoint
  · rw [cut?_append hbefore (beq_self_eq_true '.')]
    rfl
  · rw [List.append_nil, cut?_eq_none hbefore, hnil]
    rfl

/-- A time of day is read from what a clock is written as, with blanks around it. -/
lemma read?_eq_some_iff {t : DayTime} :
    DayTime.read? cs = some t ↔ ∃ c : ClockTime, c.WrittenAs (trim cs) ∧ t = c.time := by
  rw [DayTime.read?]
  constructor
  · intro h
    split at h
    · next hh mm ss hpieces =>
      obtain ⟨-, -, hjoin⟩ := splitAt_eq_iff.mp hpieces
      obtain ⟨whole, fraction, point, hcut, hpoint, rfl⟩ := exists_point ss
      obtain ⟨hour, hhour, h⟩ := Option.bind_eq_some_iff.mp h
      obtain ⟨minute, hminute, h⟩ := Option.bind_eq_some_iff.mp h
      rw [hcut] at h
      obtain ⟨second, hsecond, h⟩ := Option.bind_eq_some_iff.mp h
      obtain ⟨micros, hmicros, h⟩ := Option.bind_eq_some_iff.mp h
      obtain ⟨hdigits, rfl⟩ := readFraction?_eq_some_iff.mp hmicros
      obtain ⟨⟨hhourLt, hminuteLt, hsecondLt, -⟩, hnanos⟩ := ofParts?_eq_some_iff.mp h
      refine ⟨⟨hour, minute, second, fraction, hhourLt, hminuteLt, hsecondLt, hdigits⟩,
        ⟨hh, mm, whole, point, (readNat?_eq_some_iff.mp hhour).1, (readNat?_eq_some_iff.mp hminute).1,
          (readNat?_eq_some_iff.mp hsecond).1, hpoint, ?_⟩, DayTime.ext_nanos hnanos⟩
      rw [hjoin]
      simp [List.intercalate]
    · cases h
  · rintro ⟨c, ⟨hour, minute, second, point, hhour, hminute, hsecond, hpoint, hcs⟩, rfl⟩
    have hcolon : ¬(':'.isDigit ∨ ':' = '+' ∨ ':' = '-') := by decide
    have hlast : ':' ∉ second ++ point := by
      rw [List.mem_append, not_or]
      refine ⟨hsecond.signed.not_mem hcolon, ?_⟩
      obtain rfl | ⟨rfl, -⟩ := hpoint
      · exact List.not_mem_cons_of_ne_of_not_mem (by decide) (c.fraction_digits.not_mem (by decide))
      · exact List.not_mem_nil
    have hpieces : splitAt ':' (trim cs) = [hour, minute, second ++ point] := by
      rw [hcs, splitAt_append (hhour.signed.not_mem hcolon), splitAt_append (hminute.signed.not_mem hcolon),
        splitAt_of_not_mem hlast]
    have hhourLt := c.hour_lt
    have hminuteLt := c.minute_lt
    have hsecondLt := c.second_lt
    rw [hpieces]
    dsimp only
    rw [cut_second hsecond hpoint, readNat?_eq_some_iff.mpr ⟨hhour, by omega⟩,
      readNat?_eq_some_iff.mpr ⟨hminute, by omega⟩]
    dsimp only [bind, Option.bind]
    rw [readNat?_eq_some_iff.mpr ⟨hsecond, by omega⟩, readFraction?_eq_some_iff.mpr ⟨c.fraction_digits, rfl⟩]
    exact ofParts?_eq_some_iff.mpr ⟨⟨hhourLt, hminuteLt, hsecondLt, c.fraction_digits.fractionMicros_lt⟩, rfl⟩

/-- Only the last part of what is written has a point, and digits that stand behind a point are the fraction. -/
lemma WrittenAs.fraction_eq {front : List Char} (hds : AllDigits ds) (h : c.WrittenAs (front ++ '.' :: ds)) :
    c.fraction = ds ∧ ∀ c' : ClockTime, c'.hour = c.hour → c'.minute = c.minute → c'.second = c.second →
      c'.WrittenAs (front ++ '.' :: c'.fraction) := by
  have hafter : ∀ {ds : List Char}, AllDigits ds → ∀ d ∈ ds, (d == '.') = false := by
    intro ds hds d hd
    rw [beq_eq_false_iff_ne]
    exact ne_of_isDigit (hds d hd) (by decide)
  obtain ⟨hour, minute, second, point, hhour, hminute, hsecond, hpoint, hcs⟩ := h
  obtain rfl | ⟨rfl, -⟩ := hpoint
  · have hassoc : hour ++ ':' :: (minute ++ ':' :: (second ++ '.' :: c.fraction)) =
        (hour ++ ':' :: (minute ++ ':' :: second)) ++ '.' :: c.fraction := by simp
    have hlast := cutLast?_append (hafter hds) (beq_self_eq_true '.') front
    rw [hcs, hassoc, cutLast?_append (hafter c.fraction_digits) (beq_self_eq_true '.')] at hlast
    obtain ⟨rfl, hfraction⟩ := Prod.mk.inj (Option.some.inj hlast)
    refine ⟨hfraction, fun c' hhour' hminute' hsecond' => ?_⟩
    refine ⟨hour, minute, second, '.' :: c'.fraction, hhour' ▸ hhour, hminute' ▸ hminute, hsecond' ▸ hsecond,
      Or.inl rfl, ?_⟩
    simp
  · -- without a point the numerals would have to hold it
    have hmem : '.' ∈ hour ++ ':' :: (minute ++ ':' :: (second ++ [])) := hcs ▸ (by simp)
    have hpoint : ¬('.'.isDigit ∨ '.' = '+' ∨ '.' = '-') := by decide
    simp [hhour.signed.not_mem hpoint, hminute.signed.not_mem hpoint, hsecond.signed.not_mem hpoint] at hmem

end ClockTime

/-! ### Instants -/

namespace Instant

@[simp] lemma timeOfDay_on (d : Date) (t : DayTime) : (on d t).timeOfDay = t := by
  have hlt := t.lt
  apply DayTime.ext_nanos
  rw [timeOfDay, on]
  simp only [dayNanos] at *
  omega

/-- A text says a day and a clock if its first blank, those at its ends not counted, stands between the two. Behind that
blank there may be more of them. -/
def Says (cs : List Char) (d : Date) (c : ClockTime) : Prop :=
  ∃ date blank rest, isBlank blank ∧ Solid date ∧ trim cs = date ++ blank :: rest ∧ d.WrittenAs date ∧
    c.WrittenAs (trim rest)

variable {d : Date} {c : ClockTime}

lemma read?_eq_some_iff {t : Instant} : read? cs = some t ↔ ∃ d c, Says cs d c ∧ t = on d c.time := by
  rw [read?]
  constructor
  · intro h
    obtain ⟨⟨date, rest⟩, hcut, h⟩ := Option.bind_eq_some_iff.mp h
    obtain ⟨d, hdate, h⟩ := Option.bind_eq_some_iff.mp h
    obtain ⟨time, htime, h⟩ := Option.bind_eq_some_iff.mp h
    obtain ⟨blank, hcs, hblank, hsolid⟩ := cut?_eq_some_iff.mp hcut
    obtain ⟨c, hc, rfl⟩ := ClockTime.read?_eq_some_iff.mp htime
    exact ⟨d, c, ⟨date, blank, rest, hblank, hsolid, hcs, (Date.read?_eq_some_iff hsolid).mp hdate, hc⟩,
      (Option.some.inj h).symm⟩
  · rintro ⟨d, c, ⟨date, blank, rest, hblank, hsolid, hcs, hdate, hc⟩, rfl⟩
    have hcut : cut? isBlank (trim cs) = some (date, rest) := cut?_eq_some_iff.mpr ⟨blank, hcs, hblank, hsolid⟩
    rw [hcut]
    dsimp only [bind, Option.bind]
    rw [readParts?, (Date.read?_eq_some_iff hsolid).mpr hdate, ClockTime.read?_eq_some_iff.mpr ⟨c, hc, rfl⟩]
    rfl

/-- Digits behind a point at the end of a text are the fraction it says, and others would be said in their place. -/
lemma Says.fraction_eq {front : List Char} (hds : AllDigits ds) (h : Says (front ++ '.' :: ds) d c) :
    c.fraction = ds ∧ ∀ c' : ClockTime, c'.hour = c.hour → c'.minute = c.minute → c'.second = c.second →
      Says (front ++ '.' :: c'.fraction) d c' := by
  have htrim : ∀ {ds : List Char}, AllDigits ds →
      ∀ front, trim (front ++ '.' :: ds) = trimStart front ++ '.' :: ds := by
    intro ds hds front
    have hsolid : Solid ('.' :: ds) := solid_cons (by decide) hds.solid
    exact trim_append_flush front hsolid.flush (List.cons_ne_nil _ _)
  obtain ⟨date, blank, rest, hblank, hsolid, hcs, hdate, hc⟩ := h
  have hassoc : date ++ blank :: rest = date ++ [blank] ++ rest := by simp
  rw [htrim hds, hassoc] at hcs
  obtain ⟨mid, hfront, rfl⟩ : ∃ mid, trimStart front = date ++ [blank] ++ mid ∧ rest = mid ++ '.' :: ds := by
    rcases List.append_eq_append_iff.mp hcs with ⟨mid, hmid, hrest⟩ | ⟨mid, hfront, hrest⟩
    · cases mid with
      | nil => exact ⟨[], by rw [List.append_nil, hmid, List.append_nil], hrest.symm⟩
      | cons p mid =>
        -- the point would stand in the date or be the blank
        obtain rfl := (List.cons.inj hrest).1
        have hmem : '.' ∈ date ++ [blank] := hmid ▸ (by simp)
        rcases List.mem_append.mp hmem with hmem | hmem
        · exact absurd hmem hdate.point_not_mem
        · rw [← List.mem_singleton.mp hmem] at hblank
          exact absurd hblank (by decide)
    · exact ⟨mid, hfront, hrest⟩
  rw [htrim hds] at hc
  obtain ⟨hfraction, hother⟩ := hc.fraction_eq hds
  refine ⟨hfraction, fun c' hhour hminute hsecond => ?_⟩
  refine ⟨date, blank, mid ++ '.' :: c'.fraction, hblank, hsolid, ?_, hdate, ?_⟩
  · rw [htrim c'.fraction_digits, hfront]
    simp
  · rw [htrim c'.fraction_digits]
    exact hother c' hhour hminute hsecond

/-- Behind a point at the end of a text, zeros and digits beyond the sixth do not count. -/
lemma read?_more_digits (front : List Char) {more : List Char} (hds : AllDigits ds) (hmore : AllDigits more)
    (h : 6 ≤ ds.length ∨ ∀ d ∈ more, d = '0') : read? (front ++ '.' :: (ds ++ more)) = read? (front ++ '.' :: ds) := by
  have hmicros : fractionMicros (ds ++ more) = fractionMicros ds := by
    obtain hlength | hzeros := h
    · exact fractionMicros_append hds hmore hlength
    · rw [List.eq_replicate_of_mem hzeros]
      exact fractionMicros_append_zeros ds more.length
  have hall := hds.append hmore
  apply Option.ext
  intro t
  rw [read?_eq_some_iff, read?_eq_some_iff]
  constructor
  · rintro ⟨d, c, hsays, rfl⟩
    obtain ⟨hfraction, hother⟩ := hsays.fraction_eq hall
    have hsays' := hother { c with fraction := ds, fraction_digits := hds } rfl rfl rfl
    refine ⟨d, _, hsays', ?_⟩
    rw [ClockTime.time, ClockTime.time]
    simp only [hfraction, hmicros]
  · rintro ⟨d, c, hsays, rfl⟩
    obtain ⟨hfraction, hother⟩ := hsays.fraction_eq hds
    have hsays' := hother { c with fraction := ds ++ more, fraction_digits := hall } rfl rfl rfl
    refine ⟨d, _, hsays', ?_⟩
    rw [ClockTime.time, ClockTime.time]
    simp only [hfraction, hmicros]

/-- A text is read as an instant exactly if it says a day and a clock, and then as that time of that day. How a fraction
goes on behind six digits, and with how many zeros it ends, makes no difference. -/
theorem read?_iff_says (cs : List Char) :
    (∀ t, read? cs = some t ↔ ∃ d c, Says cs d c ∧ t.date = d ∧ t.timeOfDay = c.time) ∧
      ∀ front ds more, cs = front ++ '.' :: ds → AllDigits ds → AllDigits more →
        (6 ≤ ds.length ∨ ∀ d ∈ more, d = '0') → read? (cs ++ more) = read? cs := by
  constructor
  · intro t
    have hparts : ∀ d c, t = on d (ClockTime.time c) ↔ t.date = d ∧ t.timeOfDay = c.time := by
      intro d c
      constructor
      · rintro rfl
        exact ⟨date_on d c.time, timeOfDay_on d c.time⟩
      · rintro ⟨rfl, h⟩
        rw [← h, on_timeOfDay]
    simp only [read?_eq_some_iff, hparts]
  · rintro front ds more rfl hds hmore h
    rw [List.append_assoc, List.cons_append]
    exact read?_more_digits front hds hmore h

example : read? " 2024/+04/8\t 018:0:+0.1234567 ".toList =
    some (on ⟨2024, 4, 8, by decide, by decide, by decide⟩ ⟨64800123456000, by decide⟩) := by decide

end Instant

end Totality
