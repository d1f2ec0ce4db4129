import Mathlib.Tactic.Lemma
import Totality.Proofs.Csv
import Totality.Proofs.Csv.Concatenation
import Totality.Proofs.Sequence.Stability
import Totality.Sequence.Rows

/-!
# Rows are read one by one

What a sequence file holds before a row and behind it is read as if the row were not there, and a row that is no action
leaves nothing behind. The main statement is `read_append_rows`.
-/

namespace Totality

namespace Action

/-- Why a row is no action. -/
inductive Faulty (row : List String) : Prop where
  | time (h : Instant.readParts? (column row 0).toList (column row 1).toList = none)
  | kind (h : ActionKind.ofTag? (column row 2) = none)
  | setting (hkind : ActionKind.ofTag? (column row 2) = some .capture)
      (h : number? row 3 = none ∨ number? row 4 = none ∨ readNat? 32 (Text.trim (column row 5).toList) = none)
  | columns (h : row.length < 3 ∨ row.length < 6 ∧ ActionKind.ofTag? (column row 2) = some .capture)

/-- Why a record is dropped: its bytes are no text, it names the columns, or it is a faulty row. -/
inductive Dropped (record : List (List UInt8)) : Prop where
  | encoding (h : Csv.fieldTexts? record = none)
  | columnNames {row : List String} (hrow : Csv.fieldTexts? record = some row) (h : column row 0 = "date")
  | faulty {row : List String} (hrow : Csv.fieldTexts? record = some row) (h : Faulty row)

variable {row : List String}

lemma column_of_length_le {i : Nat} (h : row.length ≤ i) : column row i = "" := by
  rw [column, List.getElem?_eq_none h]
  rfl

lemma taskOfRow?_eq_none_iff {kind : ActionKind} :
    taskOfRow? row kind = none ↔ kind = .capture ∧
      (number? row 3 = none ∨ number? row 4 = none ∨ readNat? 32 (Text.trim (column row 5).toList) = none) := by
  cases kind with
  | play => exact iff_of_false nofun nofun
  | capture =>
    rw [taskOfRow?]
    cases number? row 3 with
    | none => simp
    | some shutter =>
      cases number? row 4 with
      | none => simp
      | some aperture => cases readNat? 32 (Text.trim (column row 5).toList) <;> simp

/-- Columns that are missing are empty, and neither a kind nor a setting of the camera is. -/
lemma Faulty.of_columns (h : row.length < 3 ∨ row.length < 6 ∧ ActionKind.ofTag? (column row 2) = some .capture) :
    ActionKind.ofTag? (column row 2) = none ∨
      ActionKind.ofTag? (column row 2) = some .capture ∧ readNat? 32 (Text.trim (column row 5).toList) = none := by
  rcases h with h | ⟨h, hkind⟩
  · left
    rw [column_of_length_le (by omega)]
    decide
  · right
    refine ⟨hkind, ?_⟩
    rw [column_of_length_le (by omega)]
    decide

lemma ofRow?_eq_none_iff : ofRow? row = none ↔ Faulty row := by
  constructor
  · intro h
    cases htime : Instant.readParts? (column row 0).toList (column row 1).toList with
    | none => exact .time htime
    | some time =>
      cases hkind : ActionKind.ofTag? (column row 2) with
      | none => exact .kind hkind
      | some kind =>
        have hmap : ofRow? row = (taskOfRow? row kind).map fun task => ⟨time, task, column row 7⟩ := by
          simp only [ofRow?, htime, hkind, Option.bind_eq_bind, Option.bind_some]
          cases taskOfRow? row kind <;> rfl
        rw [hmap, Option.map_eq_none_iff] at h
        obtain ⟨rfl, hsetting⟩ := taskOfRow?_eq_none_iff.mp h
        exact .setting hkind hsetting
  · have hsetting : ActionKind.ofTag? (column row 2) = some .capture →
        (number? row 3 = none ∨ number? row 4 = none ∨ readNat? 32 (Text.trim (column row 5).toList) = none) →
        ofRow? row = none := by
      intro hkind h
      have htask := taskOfRow?_eq_none_iff.mpr ⟨rfl, h⟩
      simp [ofRow?, hkind, htask]
    intro h
    cases h with
    | time h => simp [ofRow?, h]
    | kind h => simp [ofRow?, h]
    | setting hkind h => exact hsetting hkind h
    | columns h =>
      rcases Faulty.of_columns h with h | ⟨hkind, hiso⟩
      · simp [ofRow?, h]
      · exact hsetting hkind (Or.inr (Or.inr hiso))

lemma ofRecord?_eq_none_iff {record : List (List UInt8)} : ofRecord? record = none ↔ Dropped record := by
  cases hrow : Csv.fieldTexts? record with
  | none =>
    refine iff_of_true ?_ (.encoding hrow)
    simp [ofRecord?, hrow]
  | some row =>
    have hofRecord : ofRecord? record = if column row 0 = "date" then none else ofRow? row := by
      rw [ofRecord?, hrow]
      rfl
    rw [hofRecord]
    constructor
    · intro h
      split at h
      · next hdate => exact .columnNames hrow hdate
      · exact .faulty hrow (ofRow?_eq_none_iff.mp h)
    · intro h
      cases h with
      | encoding h => simp [hrow] at h
      | columnNames hrow' h =>
        obtain rfl := Option.some.inj (hrow.symm.trans hrow')
        exact if_pos h
      | faulty hrow' h =>
        obtain rfl := Option.some.inj (hrow.symm.trans hrow')
        rw [ofRow?_eq_none_iff.mpr h, ite_self]

end Action

namespace Sequence

open Csv

lemma filterMap_eq_nil_of_dropped {records : List (List (List UInt8))} (h : ∀ record ∈ records, Action.Dropped record) :
    records.filterMap Action.ofRecord? = [] :=
  List.filterMap_eq_nil_iff.mpr fun record hrecord => Action.ofRecord?_eq_none_iff.mpr (h record hrecord)

/-- Behind a complete file, one that has no byte order mark of its own is read as if it stood alone, and the actions of
both make the sequence. So rows that are dropped leave no trace, in front of a file, within it or at its end. -/
theorem read_append_rows {as bs : List UInt8} (has : Complete as) (hbs : ¬Marked bs) :
    read (as ++ bs) = ofActions ((read as).actions ++ (read bs).actions) ∧
      ∀ rows, (as = [] ∨ ¬Marked rows) → (bs = [] ∨ Complete rows) →
        (∀ record ∈ records rows, Action.Dropped record) → read (as ++ rows ++ bs) = read (as ++ bs) := by
  constructor
  · rw [read, records_append has hbs, List.filterMap_append, read, read, ofActions_append_actions]
  · intro rows hfirst hlast hdropped
    rw [read, read, records_insert has hbs hfirst hlast, records_append has hbs, List.filterMap_append,
      List.filterMap_append, List.filterMap_append, filterMap_eq_nil_of_dropped hdropped, List.append_nil]

/-- A row whose comment goes over two lines, one on a day that does not exist, and an earlier row. -/
def twoLines : List UInt8 := Utf8.encode "2024/04/08,18:18:30.0,PLAY,,,,a.mp3,\"two\nlines\"\r\n"

def noSuchDay : List UInt8 := Utf8.encode "2024/02/30,18:18:31.0,PLAY,,,,b.mp3,\n"

def earlier : List UInt8 := Utf8.encode "2024/04/08,18:18:29.0,PLAY,,,,c.mp3,earlier"

theorem read_twoLines_append : Complete twoLines ∧ ¬Marked earlier ∧ ¬Marked noSuchDay ∧ Complete noSuchDay ∧
    (∀ record ∈ records noSuchDay, Action.Dropped record) ∧
    read (twoLines ++ earlier) = ofActions ((read twoLines).actions ++ (read earlier).actions) ∧
    read (twoLines ++ noSuchDay ++ earlier) = read (twoLines ++ earlier) := by
  have htwo : Complete twoLines :=
    Or.inr ⟨twoLines.dropLast, Reader.newline, by decide +kernel, Or.inl rfl, by decide +kernel⟩
  have hday : Complete noSuchDay :=
    Or.inr ⟨noSuchDay.dropLast, Reader.newline, by decide +kernel, Or.inl rfl, by decide +kernel⟩
  have hearlier : ¬Marked earlier := by decide +kernel
  have hmark : ¬Marked noSuchDay := by decide +kernel
  have hdropped : ∀ record ∈ records noSuchDay, Action.Dropped record := by
    have hnone : ∀ record ∈ records noSuchDay, Action.ofRecord? record = none := by decide +kernel
    exact fun record hrecord => Action.ofRecord?_eq_none_iff.mp (hnone record hrecord)
  obtain ⟨happend, hdrop⟩ := read_append_rows htwo hearlier
  exact ⟨htwo, hearlier, hmark, hday, hdropped, happend, hdrop noSuchDay (Or.inr hmark) (Or.inr hday) hdropped⟩

end Sequence

end Totality
