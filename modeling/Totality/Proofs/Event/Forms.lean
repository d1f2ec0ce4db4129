import Mathlib.Data.List.Basic
import Totality.Event.TimingExport
import Totality.Proofs.Calendar.Notation

/-!
# Written lines have a form

A line for the first contact has its form if its year is written with four digits, and no known form otherwise. A line
for a reading always has its form.
-/

namespace Totality.TimingExport

open Text

/-! ### Digits and dates -/

/-- The digits of numerals are digits of a script. -/
lemma isDigit_of_char {c : Char} (h : c.isDigit) : isDigit c := by
  have hrange := toNat_of_isDigit h
  exact List.any_eq_true.mpr ⟨0x30, List.mem_cons_self, decide_eq_true (by omega)⟩

lemma takeDigits?_append {ds : List Char} (h : AllDigits ds) (rest : List Char) :
    takeDigits? ds.length (ds ++ rest) = some (ds, rest) := by
  induction ds with
  | nil => rfl
  | cons d ds ih =>
    obtain ⟨hd, hds⟩ := List.forall_mem_cons.mp h
    rw [List.length_cons, List.cons_append, takeDigits?, if_pos (isDigit_of_char hd), ih hds]
    rfl

section Groups

variable {k n : Nat} {ds more rest rest' : List Char} {sep : Char} {groups : List (Nat × Char)}

lemma takeGroups?_nil (h : AllDigits ds) (hlength : ds.length = n) (rest : List Char) :
    takeGroups? [] n (ds ++ rest) = some (ds, rest) := by
  subst hlength
  exact takeDigits?_append h rest

/-- A group of digits and its separator are taken, and then the others. -/
lemma takeGroups?_cons (h : AllDigits ds) (hlength : ds.length = k)
    (hmore : takeGroups? groups n rest = some (more, rest')) :
    takeGroups? ((k, sep) :: groups) n (ds ++ sep :: rest) = some (ds ++ sep :: more, rest') := by
  subst hlength
  rw [takeGroups?, takeDigits?_append h]
  simp only [Option.bind_eq_bind, Option.bind_some, if_true, hmore]
  rfl

lemma takeGroups?_of_not_isDigit {c : Char} (hc : ¬isDigit c) (cs : List Char) :
    takeGroups? ((k + 1, sep) :: groups) n (c :: cs) = none := by
  rw [takeGroups?, takeDigits?, if_neg hc]
  rfl

end Groups

/-- A year that is written with four digits and no sign. -/
def PlainYear (year : Int) : Prop := 0 ≤ year ∧ year ≤ 9999

instance (year : Int) : Decidable (PlainYear year) := inferInstanceAs (Decidable (_ ∧ _))

lemma takeDate?_write {d : Date} (h : PlainYear d.year) (rest : List Char) :
    takeDate? (d.write '/' ++ rest) = some (d.write '/', rest) := by
  obtain ⟨hnonneg, hle⟩ := h
  have hyear : writeYear d.year = writePadded 4 d.year.natAbs := by
    rw [writeYear, if_neg (by omega), if_neg (by omega)]
  have hmonth := d.month_mem
  have hday := d.day_le
  rw [Date.write, hyear]
  simp only [List.append_assoc, List.cons_append]
  exact takeGroups?_cons (allDigits_writePadded _ _) (length_writePadded (by omega) (by decide))
    (takeGroups?_cons (allDigits_writePadded _ _) (length_writePadded (by omega) (by decide))
      (takeGroups?_nil (allDigits_writePadded _ _) (length_writePadded (by omega) (by decide)) rest))

/-- A sign in front of a year stands where a digit is wanted, and so does a separator behind too many digits. -/
lemma takeDate?_write_of_not {d : Date} (h : ¬PlainYear d.year) (rest : List Char) :
    takeDate? (d.write '/' ++ rest) = none := by
  have hsign : ∃ sign ds, writeYear d.year = sign :: ds ∧ ¬isDigit sign := by
    rw [writeYear]
    split_ifs with hneg hbig
    · exact ⟨_, _, rfl, by decide⟩
    · exact ⟨_, _, rfl, by decide⟩
    · exact absurd ⟨Int.not_lt.mp hneg, Int.not_lt.mp hbig⟩ h
  obtain ⟨sign, ds, hyear, hdigit⟩ := hsign
  rw [Date.write, hyear]
  exact takeGroups?_of_not_isDigit hdigit _

lemma takeTime?_timeText (t : Instant) (rest : List Char) :
    takeTime? (t.timeText.toList ++ rest) = some (t.timeText.toList, rest) := by
  have hlt := t.stamp_nanos_lt
  have hday := t.stamp.secondOfDay_lt
  rw [Instant.timeText_toList]
  simp only [List.append_assoc, List.cons_append]
  exact takeGroups?_cons (allDigits_writePadded _ _) (length_writePadded (by omega) (by decide))
    (takeGroups?_cons (allDigits_writePadded _ _) (length_writePadded (by omega) (by decide))
      (takeGroups?_cons (allDigits_writePadded _ _) (length_writePadded (by omega) (by decide))
        (takeGroups?_nil (allDigits_digitsOf _) (length_digitsOf_of_lt_ten (by omega)) rest)))

/-! ### Blanks, numbers and words -/

lemma takeBlanks?_append {blanks token : List Char} (hblanks : blanks.all isBlank) (hne : blanks ≠ [])
    (htoken : Solid token) (hne' : token ≠ []) (rest : List Char) :
    takeBlanks? (blanks ++ (token ++ rest)) = some (token ++ rest) := by
  obtain ⟨b, blanks, rfl⟩ := List.exists_cons_of_ne_nil hne
  obtain ⟨c, token, rfl⟩ := List.exists_cons_of_ne_nil hne'
  obtain ⟨hb, hblanks⟩ := List.forall_mem_cons.mp (List.all_eq_true.mp hblanks)
  have hc : ¬isBlank c := by simp [htoken c]
  rw [List.cons_append, takeBlanks?, if_pos hb, trimStart, List.dropWhile_append_of_pos hblanks, List.cons_append,
    List.dropWhile_cons_of_neg hc]

/-- Digits and points, at least one of them. -/
def IsNumber (cs : List Char) : Prop := cs ≠ [] ∧ ∀ c ∈ cs, isDecimal c

instance (cs : List Char) : Decidable (IsNumber cs) := @instDecidableAnd _ _ inferInstance (List.decidableBAll _ cs)

lemma IsNumber.solid {cs : List Char} (h : IsNumber cs) : Solid cs := by
  intro c hc
  have hdecimal := h.2 c hc
  rw [isDecimal, Bool.or_eq_true, beq_iff_eq] at hdecimal
  rcases hdecimal with hdigit | rfl
  · exact isBlank_of_isDigit hdigit
  · decide

lemma takeDecimal?_append {number : List Char} (h : IsNumber number) (rest : List Char)
    (hrest : ∀ c ∈ rest.head?, ¬isDecimal c) : takeDecimal? (number ++ rest) = some (number, rest) := by
  obtain ⟨htake, hdrop⟩ := takeWhile_dropWhile_append h.2 rest hrest
  simp only [takeDecimal?, htake, hdrop]
  simp [h.1]

lemma takeText?_append {word : List Char} {text : String} (h : text.toList = word) (rest : List Char) :
    takeText? text (word ++ rest) = some rest := by
  subst h
  rw [takeText?, if_pos (List.isPrefixOf_iff_prefix.mpr (List.prefix_append _ _)), List.drop_left]

lemma takeText?_cons_of_ne {text : String} {d : Char} {word : List Char} (h : text.toList = d :: word) {c : Char}
    (hne : c ≠ d) (cs : List Char) : takeText? text (c :: cs) = none := by
  rw [takeText?, if_neg]
  rw [h, List.isPrefixOf_iff_prefix, List.cons_prefix_cons]
  exact fun heq => hne heq.1.symm

/-! ### Contacts -/

/-- The blanks between a date and a time of day. -/
def contactGap : List Char := "  ".toList

/-- The line of the first contact. -/
def contactLine (t : Instant) : List Char :=
  "1st Contact".toList ++ (contactGap ++ (t.dateText.toList ++ (contactGap ++ t.timeText.toList)))

lemma dateText_ne_nil (t : Instant) : t.dateText.toList ≠ [] := by
  rw [t.dateText_toList, Date.write]
  simp

lemma timeText_ne_nil (t : Instant) : t.timeText.toList ≠ [] := by
  rw [t.timeText_toList]
  simp

lemma oneLine_contactLine (t : Instant) : OneLine (contactLine t) := by
  have hdate : Solid t.dateText.toList := t.dateText_toList ▸ t.date.solid_write
  have hgap : OneLine contactGap := by decide
  have hword : OneLine "1st Contact".toList := by decide
  exact hword.append (hgap.append (hdate.oneLine.append (hgap.append t.solid_timeText.oneLine)))

/-- A day and a time of day are taken if the year has four digits. -/
lemma takeTimestamp?_text (t : Instant) :
    takeTimestamp? (contactGap ++ (t.dateText.toList ++ (contactGap ++ t.timeText.toList))) =
      if PlainYear t.date.year then some (t.dateText.toList, t.timeText.toList) else none := by
  have hgap : contactGap.all isBlank := by decide
  have hne : contactGap ≠ [] := by decide
  have hdate : Solid t.dateText.toList := t.dateText_toList ▸ t.date.solid_write
  have htime := takeBlanks?_append hgap hne t.solid_timeText (timeText_ne_nil t) []
  have htake := takeTime?_timeText t []
  rw [List.append_nil] at htime htake
  rw [takeTimestamp?, takeBlanks?_append hgap hne hdate (dateText_ne_nil t)]
  simp only [Option.bind_eq_bind, Option.bind_some]
  rw [t.dateText_toList]
  split_ifs with hyear
  · rw [takeDate?_write hyear]
    simp only [Option.bind_some, htime, htake]
    rfl
  · rw [takeDate?_write_of_not hyear]
    rfl

namespace Line

lemma ofChars?_contactLine (t : Instant) : ofChars? (contactLine t) =
    if PlainYear t.date.year then some (.numberedContact '1' t.dateText.toList t.timeText.toList) else none := by
  have hnumbered : numberedContact? (contactLine t) =
      if PlainYear t.date.year then some (.numberedContact '1' t.dateText.toList t.timeText.toList) else none := by
    have hline : contactLine t = '1' :: 's' :: 't' :: (" Contact".toList ++
      (contactGap ++ (t.dateText.toList ++ (contactGap ++ t.timeText.toList)))) := rfl
    rw [hline, numberedContact?]
    simp only [takeText?_append rfl, Option.bind_eq_bind, Option.bind_some, takeTimestamp?_text]
    split_ifs
    · rw [Option.bind_some, Option.pure_def]
    · rw [Option.bind_none]
  have hstart : ∃ cs, contactLine t = '1' :: 's' :: cs := ⟨_, rfl⟩
  obtain ⟨cs, hcs⟩ := hstart
  rw [ofChars?, hnumbered]
  split_ifs with hyear
  · rfl
  · -- a line that begins like this is of no other form
    have hmaximum : maximum? ('1' :: 's' :: cs) = none := by
      rw [maximum?, takeText?_cons_of_ne rfl (by decide)]
      rfl
    have hmagnitude : maxMagnitude? ('1' :: 's' :: cs) = none := by
      rw [maxMagnitude?, takeText?_cons_of_ne rfl (by decide)]
      rfl
    have hreading : reading? ('1' :: 's' :: cs) = none := by
      have htime : takeTime? ('1' :: 's' :: cs) = none := by
        rw [takeTime?, takeGroups?, takeDigits?, if_pos (by decide), takeDigits?, if_neg (by decide)]
        rfl
      rw [reading?, htime]
      rfl
    rw [hcs, hmaximum, hmagnitude, hreading]
    rfl

/-! ### Readings -/

/-- A line that begins with a time of day is of no form but that of a reading. -/
lemma ofChars?_of_clock {a b c : Char} (ha : a.isDigit) (hc : c.isDigit) (cs : List Char) :
    ofChars? (a :: b :: ':' :: c :: cs) = reading? (a :: b :: ':' :: c :: cs) := by
  have hnumbered : numberedContact? (a :: b :: ':' :: c :: cs) = none := by
    rw [numberedContact?, takeText?_cons_of_ne rfl (ne_of_isDigit hc (by decide))]
    rfl
  have hcontact : contact? (a :: b :: ':' :: c :: cs) = none := by
    unfold contact?
    split
    · next heq =>
      cases heq
      exact absurd ha (by decide)
    · rfl
  have hmaximum : maximum? (a :: b :: ':' :: c :: cs) = none := by
    rw [maximum?, takeText?_cons_of_ne rfl (ne_of_isDigit ha (by decide))]
    rfl
  have hmagnitude : maxMagnitude? (a :: b :: ':' :: c :: cs) = none := by
    rw [maxMagnitude?, takeText?_cons_of_ne rfl (ne_of_isDigit ha (by decide))]
    rfl
  rw [ofChars?, hnumbered, hcontact, hmaximum, hmagnitude]
  rfl

end Line

/-- The blanks between the columns of a reading. -/
def columnGap : List Char := "   ".toList

/-- The line of a reading: the time of day, two columns that do not count, and the number. -/
def readingLine (t : Instant) (altitude azimuth number : List Char) : List Char :=
  t.timeText.toList ++ (columnGap ++ (altitude ++ (columnGap ++ (azimuth ++ (columnGap ++ number)))))

section Reading

variable {altitude azimuth number : List Char}

lemma oneLine_readingLine (t : Instant) (haltitude : IsNumber altitude) (hazimuth : IsNumber azimuth)
    (hnumber : IsNumber number) : OneLine (readingLine t altitude azimuth number) := by
  have hgap : OneLine columnGap := by decide
  exact t.solid_timeText.oneLine.append (hgap.append (haltitude.solid.oneLine.append (hgap.append
    (hazimuth.solid.oneLine.append (hgap.append hnumber.solid.oneLine)))))

/-- A time of day begins with two digits and a colon, and goes on with a digit. -/
lemma exists_timeText (t : Instant) :
    ∃ a b c cs, t.timeText.toList = a :: b :: ':' :: c :: cs ∧ a.isDigit ∧ c.isDigit := by
  have hday := t.stamp.secondOfDay_lt
  have hhour := allDigits_writePadded 2 (t.stamp.secondOfDay / 3600)
  have hminute := allDigits_writePadded 2 (t.stamp.secondOfDay / 60 % 60)
  have hlength : (writePadded 2 (t.stamp.secondOfDay / 3600)).length = 2 :=
    length_writePadded (by omega) (by decide)
  obtain ⟨a, b, hab⟩ := List.length_eq_two.mp hlength
  obtain ⟨c, cs, hc⟩ := List.exists_cons_of_ne_nil (writePadded_ne_nil 2 (t.stamp.secondOfDay / 60 % 60))
  rw [t.timeText_toList, hab, hc]
  exact ⟨a, b, c, _, rfl, hhour a (by simp [hab]), hminute c (by simp [hc])⟩

lemma ofChars?_readingLine (t : Instant) (haltitude : IsNumber altitude) (hazimuth : IsNumber azimuth)
    (hnumber : IsNumber number) :
    Line.ofChars? (readingLine t altitude azimuth number) = some (.reading t.timeText.toList number) := by
  have hgap : columnGap.all isBlank := by decide
  have hne : columnGap ≠ [] := by decide
  have hend : ∀ cs, ∀ c ∈ (columnGap ++ cs).head?, ¬isDecimal c := by
    rintro cs c ⟨⟩
    decide
  have hreading : Line.reading? (readingLine t altitude azimuth number) = some (.reading t.timeText.toList number) := by
    have hlast := takeBlanks?_append hgap hne hnumber.solid hnumber.1 []
    have hlast' := takeDecimal?_append hnumber [] nofun
    rw [List.append_nil] at hlast hlast'
    rw [Line.reading?, readingLine, takeTime?_timeText]
    simp only [Option.bind_eq_bind, Option.bind_some]
    rw [takeBlanks?_append hgap hne haltitude.solid haltitude.1, Option.bind_some,
      takeDecimal?_append haltitude _ (hend _), Option.bind_some]
    dsimp only
    rw [takeBlanks?_append hgap hne hazimuth.solid hazimuth.1, Option.bind_some,
      takeDecimal?_append hazimuth _ (hend _), Option.bind_some]
    dsimp only
    rw [hlast, Option.bind_some, hlast']
    rfl
  obtain ⟨a, b, c, cs, htext, ha, hc⟩ := exists_timeText t
  have hline : ∃ cs, readingLine t altitude azimuth number = a :: b :: ':' :: c :: cs := by
    rw [readingLine, htext]
    exact ⟨_, rfl⟩
  obtain ⟨cs, hline⟩ := hline
  rw [hline, Line.ofChars?_of_clock ha hc, ← hline, hreading]

end Reading

end Totality.TimingExport
