import Totality.Proofs.Event.Forms
import Totality.Proofs.Event.Interpolation
import Totality.Proofs.Event.TimingExport

/-!
# Exports that are written are read back within a day

An export of a first contact and of readings within the 24 hours from it is read back with all readings on the day of
the contact. So the readings past midnight come out 24 hours early, and the others as they were written.
-/

namespace Totality.TimingExport

open Text Calendar

lemma isNumber_write {n : Nat} (h : Binary64.Representable n) : IsNumber (Binary64.finite false n h).write := by
  have hdecimal : ∀ {ds : List Char}, AllDigits ds → ∀ c ∈ ds, isDecimal c := fun hds c hc => by
    rw [isDecimal, hds c hc, Bool.true_or]
  obtain ⟨-, ds, hwrite, hds, hne, -⟩ | ⟨-, whole, fraction, hwrite, hwhole, hne, hfraction, -⟩ :=
    Binary64.writePositional_eq (Binary64.shortest n).1 (Binary64.shortest n).2
  · change IsNumber (writePositional _ _)
    rw [hwrite]
    exact ⟨hne, hdecimal hds⟩
  · change IsNumber (writePositional _ _)
    rw [hwrite]
    have hrest : ∀ c ∈ '.' :: fraction, isDecimal c := List.forall_mem_cons.mpr ⟨by decide, hdecimal hfraction⟩
    exact ⟨by simp, List.forall_mem_append.mpr ⟨hdecimal hwhole, hrest⟩⟩

/-! ### Rows -/

/-- A magnitude at a tenth of a second as it stands in an export, between columns that do not count. -/
structure Row where
  time : Instant
  magnitude : Binary64
  altitude : List Char
  azimuth : List Char
  number : List Char
  tenths : 100000000 ∣ time.nanos
  isNumber_altitude : IsNumber altitude
  isNumber_azimuth : IsNumber azimuth
  isNumber_number : IsNumber number
  read?_number : Binary64.read? number = some magnitude

namespace Row

/-- A row with the shortest number for its magnitude. -/
def shortest (time : Instant) (tenths : 100000000 ∣ time.nanos) (n : Nat) (h : Binary64.Representable n) : Row where
  time := time
  magnitude := .finite false n h
  altitude := "54.1".toList
  azimuth := "180.2".toList
  number := (Binary64.finite false n h).write
  tenths := tenths
  isNumber_altitude := by decide
  isNumber_azimuth := by decide
  isNumber_number := isNumber_write h
  read?_number := Binary64.read?_write _

def reading (r : Row) : Reading Instant := ⟨r.magnitude, r.time⟩

/-- The reading at the same time of another day. -/
def redated (day : Date) (r : Row) : Reading Instant := ⟨r.magnitude, .on day r.time.timeOfDay⟩

def line (r : Row) : List Char := readingLine r.time r.altitude r.azimuth r.number

/-- What the line of a row tells. -/
def told (r : Row) : Line := .reading r.time.timeText.toList r.number

lemma oneLine_line (r : Row) : OneLine r.line :=
  oneLine_readingLine r.time r.isNumber_altitude r.isNumber_azimuth r.isNumber_number

lemma ofChars?_line (r : Row) : Line.ofChars? r.line = some r.told :=
  ofChars?_readingLine r.time r.isNumber_altitude r.isNumber_azimuth r.isNumber_number

lemma not_malformed (r : Row) : ¬r.told.Malformed := by
  rintro (htime | hnumber)
  · rw [Instant.read?_timeText_of_dvd r.tenths] at htime
    cases htime
  · rw [r.read?_number] at hnumber
    cases hnumber

/-- On a known day the line of a row tells the reading of that day. -/
lemma eq_redated_of_tells {r : Row} {day : Date} {x : Reading Instant} (h : r.told.Tells (some day) x) :
    x = r.redated day := by
  obtain ⟨date, t, hdate, ht, hnumber, htime⟩ := h
  cases hdate
  rw [Instant.read?_timeText_of_dvd r.tenths] at ht
  cases ht
  rw [r.read?_number] at hnumber
  cases x
  cases hnumber
  cases htime
  rfl

lemma redated_eq_reading_iff {r : Row} {day : Date} : r.redated day = r.reading ↔ r.time.date = day := by
  constructor
  · intro h
    have htime : Instant.on day r.time.timeOfDay = r.time := congrArg Reading.time h
    rw [← htime, Instant.date_on]
  · rintro rfl
    rw [redated, Instant.on_timeOfDay, reading]

/-- What the lines of rows tell on a known day are their readings of that day. -/
lemma eq_map_redated_of_tells {rows : List Row} {day : Date} {rs : List (Reading Instant)}
    (h : List.Forall₂ (Line.Tells (some day)) (rows.map told) rs) : rs = rows.map (redated day) := by
  rw [List.forall₂_map_left_iff] at h
  induction h with
  | nil => rfl
  | cons hr _ ih => rw [eq_redated_of_tells hr, ih, List.map_cons]

lemma map_magnitude_redated (rows : List Row) (day : Date) :
    (rows.map (redated day)).map Reading.magnitude = (rows.map reading).map Reading.magnitude := by
  rw [List.map_map, List.map_map]
  rfl

end Row

/-! ### Writing -/

/-- The text of an export: the first contact, and the rows below it. -/
def write (first : Instant) (rows : List Row) : List Char := unlines (contactLine first :: rows.map Row.line)

section Write

variable {first : Instant} {rows : List Row}

lemma lines_write (first : Instant) (rows : List Row) :
    lines (write first rows) = contactLine first :: rows.map Row.line := by
  apply lines_unlines
  refine List.forall_mem_cons.mpr ⟨oneLine_contactLine first, List.forall_mem_map.mpr fun r _ => r.oneLine_line⟩

lemma known_map_line (n : Nat) (rows : List Row) : (known n (rows.map Row.line)).map Prod.snd = rows.map Row.told := by
  induction rows generalizing n with
  | nil => rfl
  | cons r rows ih =>
    rw [List.map_cons, known_cons_of_some r.ofChars?_line, List.map_cons, ih, List.map_cons]

/-- What the line of the first contact tells. -/
def contactTold (t : Instant) : Line := .numberedContact '1' t.dateText.toList t.timeText.toList

lemma map_snd_numbered_write (hyear : PlainYear first.date.year) (rows : List Row) :
    (numbered (write first rows)).map Prod.snd = contactTold first :: rows.map Row.told := by
  have hcontact : Line.ofChars? (contactLine first) = some (contactTold first) := by
    rw [Line.ofChars?_contactLine, if_pos hyear, contactTold]
  rw [numbered, lines_write, known_cons_of_some hcontact, List.map_cons, known_map_line]

lemma day?_contactTold (hfirst : 100000000 ∣ first.nanos) (lines : List Line) :
    day? (contactTold first :: lines) = some first.date := by
  have hcontact : (contactTold first).isNumberedContact := rfl
  rw [day?, List.find?_cons_of_pos hcontact, Option.bind_some, contactTold, Line.date?]
  exact readParts?_eq_some (Instant.readParts?_text_of_dvd hfirst)

/-- No line that is written is faulty. -/
lemma sound_written (hfirst : 100000000 ∣ first.nanos) (rows : List Row) :
    Sound (contactTold first :: rows.map Row.told) := by
  intro before line after hlines
  cases before with
  | nil =>
    cases hlines
    rintro (hbad | ⟨hreading, -⟩)
    · cases (Instant.readParts?_text_of_dvd hfirst).symm.trans hbad
    · cases hreading
  | cons l before =>
    rw [List.cons_append, List.cons.injEq] at hlines
    obtain ⟨rfl, hrows⟩ := hlines
    have hmem : line ∈ rows.map Row.told := by
      rw [hrows]
      exact List.mem_append_right before List.mem_cons_self
    obtain ⟨r, -, rfl⟩ := List.mem_map.mp hmem
    rintro (hbad | ⟨-, hundated⟩)
    · exact r.not_malformed hbad
    · exact hundated _ List.mem_cons_self rfl

/-- What is written is read back on the day of the first contact. -/
lemma exists_read_write (hfirst : 100000000 ∣ first.nanos) (hyear : PlainYear first.date.year)
    (hturn : ¬Curve.RisesAgain (rows.map Row.reading)) :
    ∃ table, read (write first rows) = .ok table ∧
      table.pre ++ table.post.reverse = rows.map (Row.redated first.date) := by
  have hlines := map_snd_numbered_write hyear rows
  have hsound : Sound ((numbered (write first rows)).map Prod.snd) := hlines ▸ sound_written hfirst rows
  obtain ⟨s, rs, hs, hknows⟩ := Scan.exists_knows hsound
  have htells := hknows.tells
  have hnan := magnitude_ne_nan (fun _ _ hmem => isDecimal_of_mem_numbered hmem rfl) htells
  have hreadings : (contactTold first :: rows.map Row.told).filter Line.isReading = rows.map Row.told := by
    rw [List.filter_cons_of_neg Bool.false_ne_true, List.filter_eq_self]
    exact List.forall_mem_map.mpr fun _ _ => rfl
  rw [hlines, day?_contactTold hfirst, hreadings] at htells
  obtain rfl := Row.eq_map_redated_of_tells htells
  rcases hknows.files.table_cases hnan with ⟨-, table, htable, hpre, hpost⟩ | ⟨hagain, -⟩
  · refine ⟨table, ?_, ?_⟩
    · rw [read_eq, hs]
      exact htable
    · rw [hpre, hpost]
      exact hknows.files.readings
  · rw [Curve.risesAgain_iff_of_map_eq (Row.map_magnitude_redated rows _)] at hagain
    exact absurd hagain hturn

/-- Without the line of the contact the first reading has no day. -/
lemma read_write_of_not_plainYear (hyear : ¬PlainYear first.date.year) (hne : rows ≠ []) :
    read (write first rows) = .error (.line 2 .undatedReading) := by
  obtain ⟨r, rows, rfl⟩ := List.exists_cons_of_ne_nil hne
  have hcontact : Line.ofChars? (contactLine first) = none := by rw [Line.ofChars?_contactLine, if_neg hyear]
  rw [read_eq, numbered, lines_write, known_cons_of_none hcontact, List.map_cons, known_cons_of_some r.ofChars?_line]
  rfl

/-! ### Limbs of a written export -/

/-- Readings of one day are close enough for interpolation. -/
lemma natAbs_sub_redated_lt (day : Date) (r r' : Row) :
    ((r.redated day).time.nanos - (r'.redated day).time.nanos).natAbs < 9007199254740992000 := by
  have hlt := r.time.timeOfDay.lt
  have hlt' := r'.time.timeOfDay.lt
  rw [Row.redated, Row.redated, Instant.on, Instant.on]
  dsimp only
  rw [dayNanos] at *
  omega

section Table

variable {table : EventTable Instant} {day : Date}

lemma mem_curve {limb : Limb} {x : Reading Instant} (h : x ∈ table.curve limb) :
    x ∈ table.pre ++ table.post.reverse := by
  cases limb with
  | pre => exact List.mem_append_left _ h
  | post => exact List.mem_append_right _ (List.mem_reverse.mpr h)

/-- Readings in the order of time are so on the limb before maximum, and backwards on the limb after it. -/
lemma pairwise_time (htable : table.pre ++ table.post.reverse = rows.map Row.reading)
    (hascending : rows.Pairwise fun r r' => r.time < r'.time) :
    table.pre.Pairwise (fun x y => x.time < y.time) ∧ table.post.Pairwise fun x y => y.time < x.time := by
  have htimes : (rows.map Row.reading).Pairwise fun x y => x.time < y.time := List.pairwise_map.mpr hascending
  rw [← htable, List.pairwise_append, List.pairwise_reverse] at htimes
  exact ⟨htimes.1, htimes.2.1⟩

/-- Between neighbours on a limb of one day, the instant of a magnitude lies between theirs. -/
lemma crossing_of_redated (htable : table.pre ++ table.post.reverse = rows.map (Row.redated day)) {limb : Limb} {i : Nat}
    {low high : Reading Instant} {target : Binary64} (hlow : (table.curve limb)[i]? = some low)
    (hhigh : (table.curve limb)[i + 1]? = some high) (ht : target.isFinite) (hlt : low.magnitude.lt target)
    (hlt' : target.lt high.magnitude) :
    ∃ t, Curve.crossing (table.curve limb) target = .reached t ∧ min low.time.nanos high.time.nanos ≤ t.nanos ∧
      t.nanos ≤ max low.time.nanos high.time.nanos := by
  have hmem : ∀ x ∈ table.curve limb, ∃ r : Row, r.redated day = x := fun x hx => by
    have hx := mem_curve hx
    rw [htable] at hx
    obtain ⟨r, -, hr⟩ := List.mem_map.mp hx
    exact ⟨r, hr⟩
  obtain ⟨r, rfl⟩ := hmem low (List.mem_of_getElem? hlow)
  obtain ⟨r', rfl⟩ := hmem high (List.mem_of_getElem? hhigh)
  exact Curve.crossing_between_neighbours (table.curve_ascending limb) ht hlow hhigh hlt hlt'
    (natAbs_sub_redated_lt day r' r)

end Table

/-- An export of a first contact and of readings within the 24 hours from it, of which the magnitude does not rise after
it has fallen, is read if the year of the contact has four digits, and otherwise refused at the first reading. What is
read are the readings at their times of the day of the contact, those past midnight 24 hours early. So they are those
that were written if and only if these fall on the day of the contact, and then the limbs are in the order of time and
against it. The instant of a magnitude between two neighbours on a limb lies between theirs. -/
theorem read_write_iff_same_day (hfirst : 100000000 ∣ first.nanos)
    (hwithin : ∀ r ∈ rows, first ≤ r.time ∧ r.time.nanos < first.nanos + dayNanos)
    (hascending : rows.Pairwise fun r r' => r.time < r'.time)
    (hturn : ¬Curve.RisesAgain (rows.map Row.reading)) :
    (PlainYear first.date.year → ∃ table, read (write first rows) = .ok table ∧
      table.pre ++ table.post.reverse = rows.map (Row.redated first.date) ∧
      (∀ r ∈ rows, (r.redated first.date).time.nanos =
        if r.time.date = first.date then r.time.nanos else r.time.nanos - dayNanos) ∧
      (table.pre ++ table.post.reverse = rows.map Row.reading ↔ ∀ r ∈ rows, r.time.date = first.date) ∧
      ((∀ r ∈ rows, r.time.date = first.date) →
        table.pre.Pairwise (fun x y => x.time < y.time) ∧ table.post.Pairwise fun x y => y.time < x.time) ∧
      ∀ limb i low high target, (table.curve limb)[i]? = some low → (table.curve limb)[i + 1]? = some high →
        target.isFinite → low.magnitude.lt target → target.lt high.magnitude →
        ∃ t, Curve.crossing (table.curve limb) target = .reached t ∧ min low.time.nanos high.time.nanos ≤ t.nanos ∧
          t.nanos ≤ max low.time.nanos high.time.nanos) ∧
    (¬PlainYear first.date.year → rows ≠ [] → read (write first rows) = .error (.line 2 .undatedReading)) := by
  refine ⟨fun hyear => ?_, read_write_of_not_plainYear⟩
  obtain ⟨table, hread, htable⟩ := exists_read_write hfirst hyear hturn
  have hsame : table.pre ++ table.post.reverse = rows.map Row.reading ↔ ∀ r ∈ rows, r.time.date = first.date := by
    rw [htable, List.map_inj_left]
    exact forall₂_congr fun r _ => Row.redated_eq_reading_iff
  refine ⟨table, hread, htable, fun r hr => ?_, hsame, fun hday => ?_, ?_⟩
  · exact Instant.nanos_on_timeOfDay (hwithin r hr).1 (hwithin r hr).2
  · exact pairwise_time (hsame.mpr hday) hascending
  · intro limb i low high target hlow hhigh ht hlt hlt'
    exact crossing_of_redated htable hlow hhigh ht hlt hlt'

end Write

/-! ### An afternoon and a night -/

/-- The first contact of 8 April 2024 at 17:02:11.6. -/
def afternoon : Instant := ⟨1712595731600000000, by decide⟩

/-- A quarter at 17:05:00.0, the whole at 18:20:18.0, and a half at 19:30:00.5. -/
def afternoonRows : List Row := [
  .shortest ⟨1712595900000000000, by decide⟩ (by decide) (Binary64.scale / 4) (by decide +kernel),
  .shortest ⟨1712600418000000000, by decide⟩ (by decide) Binary64.scale (by decide +kernel),
  .shortest ⟨1712604600500000000, by decide⟩ (by decide) (Binary64.scale / 2) (by decide +kernel)]

theorem afternoon_read_back :
    100000000 ∣ afternoon.nanos ∧ PlainYear afternoon.date.year ∧
      (∀ r ∈ afternoonRows, afternoon ≤ r.time ∧ r.time.nanos < afternoon.nanos + dayNanos) ∧
      afternoonRows.Pairwise (fun r r' => r.time < r'.time) ∧ ¬Curve.RisesAgain (afternoonRows.map Row.reading) ∧
      ∃ table, read (write afternoon afternoonRows) = .ok table ∧
        table.pre ++ table.post.reverse = afternoonRows.map Row.reading ∧
        table.pre.Pairwise fun x y => x.time < y.time := by
  have hwithin : ∀ r ∈ afternoonRows, afternoon ≤ r.time ∧ r.time.nanos < afternoon.nanos + dayNanos := by
    decide +kernel
  have hascending : afternoonRows.Pairwise fun r r' => r.time < r'.time := by decide +kernel
  have hparted : Curve.Parted ((afternoonRows.take 2).map Row.reading) ((afternoonRows.drop 2).map Row.reading) := {
    climbs := .cons_cons (by decide +kernel) (.singleton _)
    front_ne_nil := fun _ => List.cons_ne_nil _ _
    falls := by decide +kernel }
  have hturn : ¬Curve.RisesAgain (afternoonRows.map Row.reading) := fun hagain =>
    hparted.risesAgain_iff.mp hagain (.singleton _)
  have hday : ∀ r ∈ afternoonRows, r.time.date = afternoon.date := by decide +kernel
  have hafternoon : 100000000 ∣ afternoon.nanos := by decide
  have hyear : PlainYear afternoon.date.year := by decide +kernel
  obtain ⟨hread, -⟩ := read_write_iff_same_day hafternoon hwithin hascending hturn
  obtain ⟨table, htable, -, -, hsame, htimes, -⟩ := hread hyear
  exact ⟨hafternoon, hyear, hwithin, hascending, hturn, table, htable, hsame.mpr hday, (htimes hday).1⟩

/-- The first contact of 8 April 2024 at 23:00:00.0. -/
def night : Instant := ⟨1712617200000000000, by decide⟩

/-- A quarter at 23:30:00.0, and a half at 00:30:00.0 of the next day. -/
def nightRows : List Row := [
  .shortest ⟨1712619000000000000, by decide⟩ (by decide) (Binary64.scale / 4) (by decide +kernel),
  .shortest ⟨1712622600000000000, by decide⟩ (by decide) (Binary64.scale / 2) (by decide +kernel)]

/-- The later of two readings around midnight is read as the earlier. -/
theorem night_redated :
    100000000 ∣ night.nanos ∧ PlainYear night.date.year ∧
      (∀ r ∈ nightRows, night ≤ r.time ∧ r.time.nanos < night.nanos + dayNanos) ∧
      nightRows.Pairwise (fun r r' => r.time < r'.time) ∧ ¬Curve.RisesAgain (nightRows.map Row.reading) ∧
      ∃ table, read (write night nightRows) = .ok table ∧
        table.pre ++ table.post.reverse ≠ nightRows.map Row.reading ∧
        ¬table.pre.Pairwise fun x y => x.time < y.time := by
  have hparted : Curve.Parted (nightRows.map Row.reading) [] := {
    climbs := .cons_cons (by decide +kernel) (.singleton _)
    front_ne_nil := fun hne => absurd rfl hne
    falls := fun _ _ b hb => by cases hb }
  have hturn : ¬Curve.RisesAgain (nightRows.map Row.reading) := fun hagain =>
    hparted.risesAgain_iff.mp (by rwa [List.append_nil]) .nil
  have hread : (read (write night nightRows)).map (fun table => (table.pre, table.post)) =
      .ok (nightRows.map (Row.redated night.date), []) := by
    decide +kernel
  rw [map_eq_ok] at hread
  obtain ⟨table, htable, hlimbs⟩ := hread
  obtain ⟨hpre, hpost⟩ := Prod.mk.inj hlimbs
  refine ⟨by decide, by decide +kernel, by decide +kernel, by decide +kernel, hturn, table, htable, ?_, ?_⟩
  · rw [hpre, hpost]
    decide +kernel
  · rw [hpre]
    decide +kernel

end Totality.TimingExport
