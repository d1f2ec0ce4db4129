import Mathlib.Tactic.Lemma
import Mathlib.Tactic.SplitIfs
import Totality.Csv

/-!
# Files behind one another

A file whose last record is closed leaves nothing behind but its records: the reader goes on as it would at the start of
another file. The main statement is `records_append`.
-/

namespace Totality.Csv

namespace Reader

/-! ### What has been read before -/

/-- The reader with records in front of its own. -/
def onto (r : Reader) (before : List (List (List UInt8))) : Reader := { r with records := r.records ++ before }

/-- A step looks at no record that is complete. -/
lemma step_onto (r : Reader) (before : List (List (List UInt8))) (b : UInt8) :
    (r.onto before).step b = (r.step b).onto before := by
  obtain ⟨place, field, fields, records⟩ := r
  cases place <;>
    simp only [onto, step, plainByte, push, endField, endRecord] <;>
    split_ifs <;> rfl

lemma foldl_step_onto (bytes : List UInt8) (r : Reader) (before : List (List (List UInt8))) :
    bytes.foldl step (r.onto before) = (bytes.foldl step r).onto before := by
  induction bytes generalizing r with
  | nil => rfl
  | cons b bytes ih => rw [List.foldl_cons, List.foldl_cons, step_onto, ih]

lemma finish_onto (r : Reader) (before : List (List (List UInt8))) :
    (r.onto before).finish = before.reverse ++ r.finish := by
  obtain ⟨place, field, fields, records⟩ := r
  cases place <;> simp [onto, finish, endRecord]

/-! ### Between two records -/

/-- At the start of a record the reader holds nothing of one. -/
def Settled (r : Reader) : Prop := r.place = .recordStart → r.field = [] ∧ r.fields = []

lemma settled_init : Settled init := fun _ => ⟨rfl, rfl⟩

lemma settled_plainByte (r : Reader) (b : UInt8) : Settled (r.plainByte b) := by
  rw [plainByte]
  split_ifs
  · nofun
  · exact fun _ => ⟨rfl, rfl⟩
  · nofun

lemma Settled.step {r : Reader} (h : Settled r) (b : UInt8) : Settled (r.step b) := by
  rw [Reader.step]
  split
  · split_ifs
    · exact h
    · nofun
    · exact settled_plainByte r b
  · split_ifs
    · nofun
    · exact settled_plainByte r b
  · exact settled_plainByte r b
  · split_ifs <;> nofun
  · split_ifs
    · nofun
    · exact settled_plainByte r b

lemma Settled.foldl_step {bytes : List UInt8} {r : Reader} (h : Settled r) : Settled (bytes.foldl Reader.step r) := by
  induction bytes generalizing r with
  | nil => exact h
  | cons b bytes ih => exact ih (h.step b)

lemma Settled.eq_onto {r : Reader} (h : Settled r) (hplace : r.place = .recordStart) : r = init.onto r.records := by
  obtain ⟨hfield, hfields⟩ := h hplace
  obtain ⟨place, field, fields, records⟩ := r
  cases hplace
  cases hfield
  cases hfields
  rfl

lemma finish_of_recordStart {r : Reader} (hplace : r.place = .recordStart) : r.finish = r.records.reverse := by
  rw [finish, hplace]

/-- A line break between quotes is part of a field, and everywhere else it leads to the start of a record. -/
lemma place_step_break {r : Reader} {b : UInt8} (hb : b = newline ∨ b = carriage) (hr : r.place ≠ .quoted) :
    (r.step b).place = .recordStart := by
  obtain ⟨place, field, fields, records⟩ := r
  cases place with
  | quoted => exact absurd rfl hr
  | recordStart => rcases hb with rfl | rfl <;> rfl
  | fieldStart => rcases hb with rfl | rfl <;> rfl
  | plain => rcases hb with rfl | rfl <;> rfl
  | quoteSeen => rcases hb with rfl | rfl <;> rfl

end Reader

open Reader

/-- Where the reader stands behind a file. -/
def readerAfter (bytes : List UInt8) : Reader := (dropMark bytes).foldl step init

lemma records_eq (bytes : List UInt8) : records bytes = (readerAfter bytes).finish := rfl

/-- A file is empty, or it ends with a line break that is not part of a quoted field. -/
def Complete (bytes : List UInt8) : Prop :=
  bytes = [] ∨ ∃ front b, bytes = front ++ [b] ∧ (b = newline ∨ b = carriage) ∧ (readerAfter front).place ≠ .quoted

/-! ### Byte order marks -/

/-- Whether a byte order mark stands in front. -/
def Marked (bytes : List UInt8) : Prop := [0xEF, 0xBB, 0xBF] <+: bytes

instance (bytes : List UInt8) : Decidable (Marked bytes) := inferInstanceAs (Decidable (_ <+: _))

lemma dropMark_of_marked {bytes : List UInt8} (h : Marked bytes) : dropMark bytes = bytes.drop 3 := by
  obtain ⟨rest, rfl⟩ := h
  rfl

lemma dropMark_of_not_marked {bytes : List UInt8} (h : ¬Marked bytes) : dropMark bytes = bytes := by
  unfold dropMark
  split
  · next rest => exact absurd (List.prefix_append _ rest) h
  · rfl

/-- A mark that stands in front of a line break does not reach beyond it. -/
lemma marked_append_break {b : UInt8} (hb : b = newline ∨ b = carriage) (front bytes : List UInt8) :
    Marked (front ++ b :: bytes) ↔ Marked front := by
  have hmem : b ∉ [0xEF, 0xBB, 0xBF] := by rcases hb with rfl | rfl <;> decide
  constructor
  · intro h
    have hline : front ++ [b] <+: front ++ b :: bytes := ⟨bytes, by simp⟩
    rcases List.prefix_or_prefix_of_prefix h hline with h | h
    · rcases List.prefix_concat_iff.mp h with heq | h
      · exact absurd (heq ▸ List.mem_concat_self) hmem
      · exact h
    · exact absurd (h.subset List.mem_concat_self) hmem
  · intro h
    exact h.trans (List.prefix_append ..)

lemma dropMark_append_break {b : UInt8} (hb : b = newline ∨ b = carriage) (front bytes : List UInt8) :
    dropMark (front ++ b :: bytes) = dropMark front ++ b :: bytes := by
  by_cases h : Marked front
  · rw [dropMark_of_marked h, dropMark_of_marked ((marked_append_break hb front bytes).mpr h)]
    exact List.drop_append_of_le_length h.length_le
  · rw [dropMark_of_not_marked h, dropMark_of_not_marked fun h' => h ((marked_append_break hb front bytes).mp h')]

/-- No mark stands in front of two files if none stands in front of either. -/
lemma not_marked_append {as bs : List UInt8} (has : Complete as) (h : ¬Marked as) (hbs : ¬Marked bs) :
    ¬Marked (as ++ bs) := by
  rcases has with rfl | ⟨front, b, rfl, hb, -⟩
  · exact hbs
  · rw [marked_append_break hb front []] at h
    rwa [List.append_assoc, List.singleton_append, marked_append_break hb]

/-! ### Concatenation -/

lemma readerAfter_break {b : UInt8} (hb : b = newline ∨ b = carriage) (front bytes : List UInt8) :
    readerAfter (front ++ b :: bytes) = bytes.foldl step ((readerAfter front).step b) := by
  rw [readerAfter, dropMark_append_break hb, List.foldl_append, List.foldl_cons]
  rfl

/-- The records of a complete file are followed by those of the file behind it. -/
theorem records_append {as bs : List UInt8} (has : Complete as) (hbs : ¬Marked bs) :
    records (as ++ bs) = records as ++ records bs := by
  rcases has with rfl | ⟨front, b, rfl, hb, hquoted⟩
  · rfl
  · have hplace := place_step_break hb hquoted
    have hsettled : Settled ((readerAfter front).step b) := settled_init.foldl_step.step b
    have hfront : readerAfter (front ++ [b]) = (readerAfter front).step b := readerAfter_break hb front []
    rw [List.append_assoc, List.singleton_append, records_eq, readerAfter_break hb, hsettled.eq_onto hplace,
      foldl_step_onto, finish_onto, records_eq (front ++ [b]), hfront, finish_of_recordStart hplace, records,
      dropMark_of_not_marked hbs]

/-- Rows between two files bring their own records, between those of the files. -/
lemma records_insert {as rows bs : List UInt8} (has : Complete as) (hbs : ¬Marked bs)
    (hfirst : as = [] ∨ ¬Marked rows) (hlast : bs = [] ∨ Complete rows) :
    records (as ++ rows ++ bs) = records as ++ records rows ++ records bs := by
  rcases hlast with rfl | hrows
  · have hnone : records [] = [] := rfl
    rw [List.append_nil, hnone, List.append_nil]
    rcases hfirst with rfl | hmark
    · rfl
    · exact records_append has hmark
  · rcases hfirst with rfl | hmark
    · exact records_append hrows hbs
    · rw [List.append_assoc, records_append has (not_marked_append hrows hmark hbs), records_append hrows hbs,
        List.append_assoc]

end Totality.Csv
