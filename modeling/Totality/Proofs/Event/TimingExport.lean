import Mathlib.Data.List.Induction
import Mathlib.Tactic.SplitIfs
import Totality.Proofs.Calendar.Date
import Totality.Proofs.Event.Figures
import Totality.Proofs.Event.Limbs
import Totality.Proofs.Except

/-!
# Which exports make a table

An export is refused at the first line of a known form that is malformed, or that is a reading without a day. Otherwise
its readings are filed in order, and they make a table if their magnitude does not rise after it has fallen.
-/

namespace Totality.TimingExport

open Text

/-! ### Lines with numbers -/

namespace Line

variable {cs : List Char} {line : Line}

/-- A line that tells a magnitude at a time of day. -/
def isReading : Line → Bool
  | .reading .. => true
  | _ => false

lemma orElse_cases {x y : Option Line} (h : (x <|> y) = some line) : x = some line ∨ y = some line := by
  cases x with
  | none => exact Or.inr h
  | some a => exact Or.inl h

/-- The number in the line. -/
def number? : Line → Option (List Char)
  | .maxMagnitude number | .reading _ number => some number
  | _ => none

lemma number?_numberedContact? (h : numberedContact? cs = some line) : line.number? = none := by
  unfold numberedContact? at h
  split at h
  · simp only [Option.bind_eq_bind, Option.bind_eq_some_iff] at h
    obtain ⟨_, -, _, -, h⟩ := h
    cases h
    rfl
  · cases h

lemma number?_contact? (h : contact? cs = some line) : line.number? = none := by
  unfold contact? at h
  split at h
  · split_ifs at h
    obtain ⟨_, -, rfl⟩ := Option.map_eq_some_iff.mp h
    rfl
  · cases h

lemma number?_maximum? (h : maximum? cs = some line) : line.number? = none := by
  simp only [maximum?, Option.bind_eq_bind, Option.bind_eq_some_iff] at h
  obtain ⟨_, -, _, -, h⟩ := h
  cases h
  rfl

lemma takeDecimal?_isDecimal {number r : List Char} (h : takeDecimal? cs = some (number, r)) :
    ∀ c ∈ number, isDecimal c := by
  rw [takeDecimal?] at h
  split_ifs at h
  cases h
  intro c hc
  exact (List.all_eq_true.mp List.all_takeWhile) c hc

lemma lastNumber?_isDecimal {number : List Char} (h : lastNumber? cs = some number) : ∀ c ∈ number, isDecimal c := by
  induction cs with
  | nil => cases h
  | cons c cs ih =>
    rw [lastNumber?] at h
    split at h
    · next hlast =>
      cases h
      exact ih hlast
    · split_ifs at h
      obtain ⟨p, hp, rfl⟩ := Option.map_eq_some_iff.mp h
      exact takeDecimal?_isDecimal hp

/-- The number in a line is made of digits and points. -/
lemma isDecimal_of_ofChars? {number : List Char} (h : ofChars? cs = some line) (hnumber : line.number? = some number) :
    ∀ c ∈ number, isDecimal c := by
  rcases orElse_cases h with h | h
  · cases (number?_numberedContact? h).symm.trans hnumber
  · rcases orElse_cases h with h | h
    · cases (number?_contact? h).symm.trans hnumber
    · rcases orElse_cases h with h | h
      · cases (number?_maximum? h).symm.trans hnumber
      · rcases orElse_cases h with h | h
        · simp only [maxMagnitude?, Option.bind_eq_bind, Option.bind_eq_some_iff] at h
          obtain ⟨_, -, _, hlast, h⟩ := h
          cases h
          cases hnumber
          exact lastNumber?_isDecimal hlast
        · simp only [reading?, Option.bind_eq_bind, Option.bind_eq_some_iff] at h
          obtain ⟨_, -, _, -, _, -, _, -, _, -, _, -, _, htake, h⟩ := h
          cases h
          cases hnumber
          exact takeDecimal?_isDecimal htake

end Line

/-! ### Faulty lines -/

/-- The lines of a known form, with their numbers from `n` on. -/
def known (n : Nat) (raws : List (List Char)) : List (Nat × Line) :=
  (raws.zipIdx n).filterMap fun (cs, n) => (Line.ofChars? cs).map (n, ·)

section Known

variable {n : Nat} {cs : List Char} {raws : List (List Char)}

lemma known_cons_of_none (h : Line.ofChars? cs = none) : known n (cs :: raws) = known (n + 1) raws := by
  have hline : (Line.ofChars? cs).map (n, ·) = none := by rw [h, Option.map_none]
  rw [known, List.zipIdx_cons]
  exact List.filterMap_cons_none hline

lemma known_cons_of_some {line : Line} (h : Line.ofChars? cs = some line) :
    known n (cs :: raws) = (n, line) :: known (n + 1) raws := by
  have hline : (Line.ofChars? cs).map (n, ·) = some (n, line) := by rw [h, Option.map_some]
  rw [known, List.zipIdx_cons]
  exact List.filterMap_cons_some hline

end Known

namespace Line

def isNumberedContact : Line → Bool
  | .numberedContact .. => true
  | _ => false

/-- A text in the line is not what the form of the line says. -/
def Malformed : Line → Prop
  | .numberedContact _ date time | .contact _ date time | .maximum date time => Instant.readParts? date time = none
  | .maxMagnitude number => Binary64.read? number = none
  | .reading time number => DayTime.read? time = none ∨ Binary64.read? number = none

/-- A line that is malformed, or a reading with no numbered contact before it. -/
def Faulty (before : List Line) (line : Line) : Prop :=
  line.Malformed ∨ line.isReading ∧ ∀ l ∈ before, ¬l.isNumberedContact

/-- The date of a numbered contact. -/
def date? : Line → Option Date
  | .numberedContact _ date _ => Date.read? date
  | _ => none

/-- The line is a reading, which tells a magnitude at a time of the given day. -/
def Tells (day : Option Date) : Line → Reading Instant → Prop
  | .reading time number, r => ∃ date t, day = some date ∧ DayTime.read? time = some t ∧
      Binary64.read? number = some r.magnitude ∧ r.time = Instant.on date t
  | _, _ => False

/-- A reading is told on a day that is known. -/
lemma Tells.mono {day day' : Option Date} {line : Line} {r : Reading Instant} (h : line.Tells day r)
    (hday : ∀ date, day = some date → day' = some date) : line.Tells day' r := by
  cases line with
  | reading time number =>
    obtain ⟨date, t, hdate, h⟩ := h
    exact ⟨date, t, hday date hdate, h⟩
  | _ => cases h

end Line

/-- The day of the readings: that of the first numbered contact. -/
def day? (lines : List Line) : Option Date := (lines.find? Line.isNumberedContact).bind Line.date?

/-- No line is faulty behind those before it. -/
def Sound (lines : List Line) : Prop :=
  ∀ before line after, lines = before ++ line :: after → ¬line.Faulty before

lemma sound_nil : Sound [] := by
  intro before line after h
  simp at h

lemma sound_append_singleton {lines : List Line} {line : Line} :
    Sound (lines ++ [line]) ↔ Sound lines ∧ ¬line.Faulty lines := by
  constructor
  · intro h
    refine ⟨fun before l after hlines => ?_, h lines line [] rfl⟩
    exact h before l (after ++ [line]) (by rw [hlines, List.append_assoc, List.cons_append])
  · rintro ⟨hlines, hline⟩ before l after h
    cases after using List.reverseRecOn with
    | nil =>
      obtain ⟨rfl, hl⟩ := List.append_inj' h rfl
      cases hl
      exact hline
    | append_singleton after last =>
      rw [← List.cons_append, ← List.append_assoc] at h
      exact hlines before l after (List.append_inj' h rfl).1

/-- Of lines that are not sound, one is the first to be faulty. -/
lemma exists_first_faulty {ps : List (Nat × Line)} (h : ¬Sound (ps.map Prod.snd)) :
    ∃ before n line after, ps = before ++ (n, line) :: after ∧ Sound (before.map Prod.snd) ∧
      line.Faulty (before.map Prod.snd) := by
  induction ps using List.reverseRecOn with
  | nil => exact absurd sound_nil h
  | append_singleton ps p ih =>
    by_cases hps : Sound (ps.map Prod.snd)
    · rw [List.map_append, List.map_singleton, sound_append_singleton, not_and, not_not] at h
      exact ⟨ps, p.1, p.2, [], rfl, hps, h hps⟩
    · obtain ⟨before, n, line, after, rfl, hbefore, hline⟩ := ih hps
      exact ⟨before, n, line, after ++ [p], by simp, hbefore, hline⟩

section Day

variable {lines : List Line} {line : Line}

lemma day?_append_of_not (h : ¬line.isNumberedContact) : day? (lines ++ [line]) = day? lines := by
  rw [day?, List.find?_append, List.find?_cons_of_neg h, List.find?_nil, Option.or_none, day?]

lemma day?_append_of_isSome (h : (day? lines).isSome) (more : List Line) : day? (lines ++ more) = day? lines := by
  rw [day?, List.find?_append]
  cases hfind : lines.find? Line.isNumberedContact with
  | none =>
    rw [day?, hfind] at h
    cases h
  | some l => rw [Option.some_or, day?, hfind]

lemma day?_append_of_forall_not (h : ∀ l ∈ lines, ¬l.isNumberedContact) (hline : line.isNumberedContact) :
    day? (lines ++ [line]) = line.date? := by
  rw [day?, List.find?_append, List.find?_eq_none.mpr h, Option.none_or, List.find?_cons_of_pos hline]
  rfl

end Day

/-! ### Scanning -/

lemma readParts?_eq_some {date time : List Char} {t : Instant} (h : Instant.readParts? date time = some t) :
    Date.read? date = some t.date := by
  simp only [Instant.readParts?, Option.bind_eq_bind, Option.bind_eq_some_iff] at h
  obtain ⟨d, hd, _, -, h⟩ := h
  cases h
  rw [hd, Instant.date_on]

namespace Scan

variable {s : Scan} {lines : List Line} {line : Line} {rs : List (Reading Instant)}

/-- The scan knows what the lines tell: the day, if a numbered contact is among them, and the readings. -/
structure Knows (s : Scan) (lines : List Line) (rs : List (Reading Instant)) : Prop where
  day : s.date = day? lines
  dated : day? lines = none → ∀ l ∈ lines, ¬l.isNumberedContact
  tells : List.Forall₂ (Line.Tells (day? lines)) (lines.filter Line.isReading) rs
  files : s.Files rs

lemma knows_empty : Knows {} [] [] where
  day := rfl
  dated _ := List.forall_mem_nil _
  tells := .nil
  files := files_empty

lemma timestamp_of_none {date time : List Char} (h : Instant.readParts? date time = none) :
    timestamp date time = .error .timestamp := by
  rw [timestamp, h]

lemma timestamp_of_some {date time : List Char} {t : Instant} (h : Instant.readParts? date time = some t) :
    timestamp date time = .ok t := by
  rw [timestamp, h]

lemma number_of_none {text : List Char} (h : Binary64.read? text = none) :
    number text = .error (.number (String.ofList text)) := by
  rw [number, h]

lemma number_of_some {text : List Char} {x : Binary64} (h : Binary64.read? text = some x) : number text = .ok x := by
  rw [number, h]

/-- A faulty line is refused. -/
lemma Knows.addLine_of_faulty (h : s.Knows lines rs) (hline : line.Faulty lines) :
    ∃ fault, s.addLine line = .error fault := by
  cases line with
  | numberedContact c date time | contact c date time | maximum date time =>
    rw [addLine, timestamp_of_none (hline.resolve_right fun hreading => by cases hreading.1)]
    exact ⟨_, rfl⟩
  | maxMagnitude text =>
    rw [addLine, number_of_none (hline.resolve_right fun hreading => by cases hreading.1)]
    exact ⟨_, rfl⟩
  | reading time text =>
    rw [addLine]
    cases hdate : s.date with
    | none => exact ⟨_, rfl⟩
    | some date =>
      cases htime : DayTime.read? time with
      | none => exact ⟨_, rfl⟩
      | some t =>
        have hnumber : Binary64.read? text = none := by
          rcases hline with (hbad | hbad) | ⟨-, hundated⟩
          · cases htime.symm.trans hbad
          · exact hbad
          · rw [h.day, day?, List.find?_eq_none.mpr hundated] at hdate
            cases hdate
        simp only [number_of_none hnumber]
        exact ⟨_, rfl⟩

/-- A line that is no reading and no numbered contact leaves the day and the readings alone. -/
lemma Knows.append_other {s' : Scan} (h : s.Knows lines rs) (hreading : line.isReading = false)
    (hcontact : line.isNumberedContact = false) (hdate : s'.date = s.date) (hfiles : s'.Files rs) :
    s'.Knows (lines ++ [line]) rs := by
  have hday : day? (lines ++ [line]) = day? lines := day?_append_of_not (by simp [hcontact])
  refine ⟨?_, ?_, ?_, hfiles⟩
  · rw [hdate, hday, h.day]
  · rw [hday]
    intro hnone l hl
    rcases List.mem_append.mp hl with hl | hl
    · exact h.dated hnone l hl
    · rw [List.mem_singleton.mp hl, hcontact]
      exact Bool.false_ne_true
  · rw [hday, List.filter_append, List.filter_singleton, hreading]
    simpa using h.tells

/-- The first numbered contact gives the day, and no reading stands before it. -/
lemma Knows.append_numberedContact {s' : Scan} {c : Char} {date time : List Char} {t : Instant} (h : s.Knows lines rs)
    (ht : Instant.readParts? date time = some t) (hdate : s'.date = (s.date <|> some t.date)) (hfiles : s'.Files rs) :
    s'.Knows (lines ++ [.numberedContact c date time]) rs := by
  have hday : ∃ d, day? (lines ++ [.numberedContact c date time]) = some d ∧ s'.date = some d ∧
      ∀ d', day? lines = some d' → some d = some d' := by
    cases hlines : day? lines with
    | none =>
      refine ⟨t.date, ?_, ?_, fun _ hnone => by cases hnone⟩
      · rw [day?_append_of_forall_not (h.dated hlines) rfl]
        exact readParts?_eq_some ht
      · rw [hdate, h.day, hlines]
        rfl
    | some d =>
      refine ⟨d, ?_, ?_, fun _ hd => hd⟩
      · rw [day?_append_of_isSome (Option.isSome_iff_exists.mpr ⟨d, hlines⟩), hlines]
      · rw [hdate, h.day, hlines]
        rfl
  obtain ⟨d, hd, hs', hkeep⟩ := hday
  refine ⟨hs'.trans hd.symm, fun hnone => ?_, ?_, hfiles⟩
  · cases hd.symm.trans hnone
  · rw [List.filter_append, List.filter_singleton, hd]
    have htells := h.tells.imp fun _ _ htells => htells.mono hkeep
    simpa [Line.isReading] using htells

/-- A reading is filed behind the others. -/
lemma Knows.append_reading {time text : List Char} {d : Date} {t : DayTime} {x : Binary64} (h : s.Knows lines rs)
    (hday : day? lines = some d) (ht : DayTime.read? time = some t) (hx : Binary64.read? text = some x) :
    (s.addReading ⟨x, Instant.on d t⟩).Knows (lines ++ [.reading time text]) (rs ++ [⟨x, Instant.on d t⟩]) := by
  have hkeep : day? (lines ++ [.reading time text]) = day? lines := day?_append_of_not Bool.false_ne_true
  have hdate : (s.addReading ⟨x, Instant.on d t⟩).date = s.date := by
    rw [addReading]
    split_ifs <;> rfl
  refine ⟨?_, ?_, ?_, h.files.addReading _⟩
  · rw [hdate, hkeep, h.day]
  · intro hnone
    rw [hkeep, hday] at hnone
    cases hnone
  · rw [hkeep, List.filter_append]
    exact List.rel_append h.tells (.cons ⟨d, t, hday, ht, hx, rfl⟩ .nil)

/-- A line that is not faulty is taken in. -/
lemma Knows.addLine_of_not_faulty (h : s.Knows lines rs) (hline : ¬line.Faulty lines) :
    ∃ s' rs', s.addLine line = .ok s' ∧ s'.Knows (lines ++ [line]) rs' := by
  obtain ⟨hwell, hdated⟩ := not_or.mp hline
  cases line with
  | numberedContact c date time =>
    obtain ⟨t, ht⟩ := Option.ne_none_iff_exists'.mp hwell
    rw [addLine, timestamp_of_some ht]
    exact ⟨_, rs, rfl, h.append_numberedContact ht rfl (h.files.tell _ _ _)⟩
  | contact c date time | maximum date time =>
    obtain ⟨t, ht⟩ := Option.ne_none_iff_exists'.mp hwell
    rw [addLine, timestamp_of_some ht]
    exact ⟨_, rs, rfl, h.append_other rfl rfl rfl (h.files.tell _ _ _)⟩
  | maxMagnitude text =>
    obtain ⟨x, hx⟩ := Option.ne_none_iff_exists'.mp hwell
    rw [addLine, number_of_some hx]
    exact ⟨_, rs, rfl, h.append_other rfl rfl rfl (h.files.tell _ _ _)⟩
  | reading time text =>
    obtain ⟨htime, htext⟩ := not_or.mp hwell
    obtain ⟨t, ht⟩ := Option.ne_none_iff_exists'.mp htime
    obtain ⟨x, hx⟩ := Option.ne_none_iff_exists'.mp htext
    obtain ⟨d, hd⟩ := Option.ne_none_iff_exists'.mp fun hnone => hdated ⟨rfl, h.dated hnone⟩
    rw [addLine, h.day, hd, ht]
    simp only [number_of_some hx]
    exact ⟨_, _, rfl, h.append_reading hd ht hx⟩

/-- Take in a line that has a number. -/
def addNumbered (s : Scan) (p : Nat × Line) : Except Error Scan := (s.addLine p.2).mapError (.line p.1)

/-- The scan goes through the lines of a known form. -/
lemma addLines_eq_foldlM (s : Scan) (n : Nat) (raws : List (List Char)) :
    s.addLines n raws = (known n raws).foldlM addNumbered s := by
  induction raws generalizing s n with
  | nil => rfl
  | cons cs raws ih =>
    cases hline : Line.ofChars? cs with
    | none =>
      rw [known_cons_of_none hline, addLines, hline]
      exact ih s (n + 1)
    | some line =>
      rw [known_cons_of_some hline, List.foldlM_cons, addNumbered, addLines, hline]
      dsimp only
      cases s.addLine line with
      | ok s' => exact ih s' (n + 1)
      | error fault => rfl

/-- Sound lines are all taken in. -/
lemma exists_knows {ps : List (Nat × Line)} (h : Sound (ps.map Prod.snd)) :
    ∃ s rs, ps.foldlM addNumbered {} = .ok s ∧ s.Knows (ps.map Prod.snd) rs := by
  induction ps using List.reverseRecOn with
  | nil => exact ⟨{}, [], rfl, knows_empty⟩
  | append_singleton ps p ih =>
    rw [List.map_append, List.map_singleton, sound_append_singleton] at h
    obtain ⟨hps, hp⟩ := h
    obtain ⟨s, rs, hs, hknows⟩ := ih hps
    obtain ⟨s', rs', hs', hknows'⟩ := hknows.addLine_of_not_faulty hp
    refine ⟨s', rs', ?_, ?_⟩
    · rw [List.foldlM_append, hs]
      change addNumbered s p >>= pure = _
      rw [bind_pure, addNumbered, hs']
      rfl
    · rwa [List.map_append, List.map_singleton]

/-- The first faulty line is reported by its number. -/
lemma foldlM_addNumbered_of_faulty {before : List (Nat × Line)} (hbefore : Sound (before.map Prod.snd))
    (hline : line.Faulty (before.map Prod.snd)) (n : Nat) (after : List (Nat × Line)) :
    ∃ fault, (before ++ (n, line) :: after).foldlM addNumbered {} = .error (.line n fault) := by
  obtain ⟨s, rs, hs, hknows⟩ := exists_knows hbefore
  obtain ⟨fault, hfault⟩ := hknows.addLine_of_faulty hline
  refine ⟨fault, ?_⟩
  rw [List.foldlM_append, hs]
  change addNumbered s (n, line) >>= _ = _
  rw [addNumbered, hfault]
  rfl

end Scan

/-- What is read from digits and points is no not-a-number. -/
lemma magnitude_ne_nan {day : Option Date} {lines : List Line} {rs : List (Reading Instant)}
    (hlines : ∀ time number, Line.reading time number ∈ lines → ∀ c ∈ number, isDecimal c)
    (h : List.Forall₂ (Line.Tells day) (lines.filter Line.isReading) rs) : ∀ r ∈ rs, r.magnitude ≠ .nan := by
  have hreadings : ∀ time number, .reading time number ∈ lines.filter Line.isReading → ∀ c ∈ number, isDecimal c :=
    fun time number hmem => hlines time number (List.mem_filter.mp hmem).1
  generalize lines.filter Line.isReading = readings at *
  induction h with
  | nil => exact List.forall_mem_nil _
  | @cons line r _ _ hline _ ih =>
    refine List.forall_mem_cons.mpr ⟨fun hnan => ?_, ih fun time number hmem => ?_⟩
    · cases line with
      | reading time number =>
        obtain ⟨_, _, -, -, hnumber, -⟩ := hline
        exact read?_ne_nan (hreadings time number List.mem_cons_self) (hnan ▸ hnumber)
      | _ => cases hline
    · exact hreadings time number (List.mem_cons_of_mem _ hmem)

/-- The lines of a text that have a known form, with their numbers. -/
def numbered (text : List Char) : List (Nat × Line) := known 1 (lines text)

lemma isDecimal_of_mem_numbered {text number : List Char} {line : Line} (h : line ∈ (numbered text).map Prod.snd)
    (hnumber : line.number? = some number) : ∀ c ∈ number, isDecimal c := by
  obtain ⟨⟨n, line⟩, hmem, rfl⟩ := List.mem_map.mp h
  obtain ⟨⟨cs, k⟩, -, hcs⟩ := List.mem_filterMap.mp hmem
  obtain ⟨line, hline, hpair⟩ := Option.map_eq_some_iff.mp hcs
  cases hpair
  exact Line.isDecimal_of_ofChars? hline hnumber

lemma read_eq (text : List Char) :
    read text = (numbered text).foldlM Scan.addNumbered {} >>= Scan.table := by
  rw [read, Scan.addLines_eq_foldlM]
  rfl

/-- An export is refused at the first line that is malformed or a reading without a day, by the number of this line.
Without such a line its readings fall on the day of the first numbered contact, and they make a table if and only if
the magnitude does not rise after it has fallen; otherwise the limb after maximum is refused. The table holds all
readings in order: those before the first fall, and the others reversed. -/
theorem read_iff_not_risesAgain (text : List Char) :
    (¬Sound ((numbered text).map Prod.snd) →
      ∃ before n line after fault, numbered text = before ++ (n, line) :: after ∧ Sound (before.map Prod.snd) ∧
        line.Faulty (before.map Prod.snd) ∧ read text = .error (.line n fault)) ∧
    (Sound ((numbered text).map Prod.snd) →
      ∃ rs, List.Forall₂ (Line.Tells (day? ((numbered text).map Prod.snd)))
          (((numbered text).map Prod.snd).filter Line.isReading) rs ∧
        ((∃ table, read text = .ok table) ↔ ¬Curve.RisesAgain rs) ∧
        (∀ e, read text = .error e → ∃ c, e = .curve c ∧ c.limb = .post) ∧
        ∀ table, read text = .ok table → table.pre ++ table.post.reverse = rs ∧
          Curve.Parted table.pre table.post.reverse ∧ Curve.Ascending table.pre ∧ Curve.Ascending table.post) := by
  constructor
  · intro hnot
    obtain ⟨before, n, line, after, hsplit, hbefore, hline⟩ := exists_first_faulty hnot
    obtain ⟨fault, hfault⟩ := Scan.foldlM_addNumbered_of_faulty hbefore hline n after
    refine ⟨before, n, line, after, fault, hsplit, hbefore, hline, ?_⟩
    rw [read_eq, hsplit, hfault]
    rfl
  · intro hsound
    obtain ⟨s, rs, hs, hknows⟩ := Scan.exists_knows hsound
    have hread : read text = s.table := by
      rw [read_eq, hs]
      rfl
    have hnan := magnitude_ne_nan (fun _ _ hmem => isDecimal_of_mem_numbered hmem rfl) hknows.tells
    refine ⟨rs, hknows.tells, ?_⟩
    rw [hread]
    rcases hknows.files.table_cases hnan with ⟨hagain, table, htable, hpre, hpost⟩ | ⟨hagain, c, hc, hlimb⟩
    · rw [htable]
      refine ⟨iff_of_true ⟨table, rfl⟩ hagain, fun _ he => (by cases he), ?_⟩
      intro table' htable'
      cases htable'
      refine ⟨?_, ?_, table.pre_ascending, table.post_ascending⟩
      · rw [hpre, hpost]
        exact hknows.files.readings
      · rw [hpre, hpost]
        exact hknows.files.parted
    · rw [hc]
      refine ⟨iff_of_false (fun ⟨_, h⟩ => by cases h) (not_not_intro hagain), ?_, fun _ h => by cases h⟩
      intro e he
      cases he
      exact ⟨c, rfl, hlimb⟩

/-- The magnitude falls and rises again, behind a line of no known form. -/
example : (read ("Site\n1st Contact  2024/04/08  17:02:11.6\n17:05:00.0 1 2 0.5\n".toList ++
    "17:06:00.0 1 2 0.25\n17:07:00.0 1 2 0.5".toList)).map EventTable.pre =
      .error (.curve ⟨.post, 1, .ofUnits false Binary64.scale 2, .ofUnits false Binary64.scale 4⟩) := by
  decide +kernel

end Totality.TimingExport
