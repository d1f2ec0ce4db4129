import Mathlib.Tactic.Lemma
import Totality.Proofs.Calendar.Instant
import Totality.Proofs.Calendar.Notation
import Totality.Proofs.Csv
import Totality.Proofs.Number.Numeral
import Totality.Proofs.Sequence.Order
import Totality.Sequence.Rows

/-!
# Sequence files are read back

A sequence that is written is read back action by action, every action at the start of its tenth of a second. The
order stays, also that of actions which fall together.
-/

namespace Totality

namespace Action

/-- The action at the start of its tenth of a second. -/
def floorTenth (a : Action Instant) : Action Instant := { a with time := a.time.floorTenth }

lemma due_floorTenth {a b : Action Instant} (h : a.due b) : a.floorTenth.due b.floorTenth := by
  rw [due_iff, Instant.le_def] at *
  simp only [floorTenth, Instant.nanos_floorTenth]
  omega

/-! ### Rows -/

lemma length_row (a : Action Instant) : a.row.length = 8 := by
  rw [row]
  cases a.task <;> rfl

lemma number?_text {row : List String} {i : Nat} {x : Binary64} (h : column row i = x.text) :
    number? row i = some x := by
  rw [number?, h, Binary64.text, String.toList_ofList, x.solid_write.trim, x.read?_write]

lemma toList_iso (iso : UInt32) : (toString iso).toList = digitsOf iso.toNat := by
  change (toString iso.toNat).toList = _
  rw [Nat.toString_eq_ofList_toDigits, String.toList_ofList]
  rfl

lemma readNat?_iso (iso : UInt32) : readNat? 32 (Text.trim (toString iso).toList) = some iso.toNat := by
  have hdigits := allDigits_digitsOf iso.toNat
  rw [toList_iso, hdigits.solid.trim, readNat?_allDigits hdigits (digitsOf_ne_nil _)
    (by rw [digitsValue_digitsOf]; exact iso.toNat_lt), digitsValue_digitsOf]

lemma ofTag?_tag (k : ActionKind) : ActionKind.ofTag? k.tag = some k := by
  cases k <;> decide

lemma taskOfRow?_row (a : Action Instant) : taskOfRow? a.row a.kind = some a.task := by
  obtain ⟨time, task, comment⟩ := a
  cases task with
  | play file => rfl
  | capture e =>
    have hiso : UInt32.ofNat e.iso.toNat = e.iso := UInt32.ofNat_toNat
    change (do
      let shutter ← number? _ 3
      let aperture ← number? _ 4
      let iso ← readNat? 32 (Text.trim (toString e.iso).toList)
      pure (Task.capture ⟨shutter, aperture, UInt32.ofNat iso⟩)) = _
    rw [@number?_text _ 3 e.shutter rfl, @number?_text _ 4 e.aperture rfl, readNat?_iso]
    simp [hiso]

/-- The row of an action is the action at the start of its tenth of a second. -/
lemma ofRow?_row (a : Action Instant) : ofRow? a.row = some a.floorTenth := by
  have hdate : column a.row 0 = a.time.dateText := rfl
  have htime : column a.row 1 = a.time.timeText := rfl
  have hkind : column a.row 2 = a.kind.tag := rfl
  have hcomment : column a.row 7 = a.comment := by
    rw [row]
    cases a.task <;> rfl
  rw [ofRow?, hdate, htime, hkind, hcomment, Instant.readParts?_text, ofTag?_tag]
  simp [taskOfRow?_row, floorTenth]

/-- No action is dated like the name of the first column. -/
lemma dateText_ne (t : Instant) : t.dateText ≠ "date" := by
  intro h
  have hread := t.readParts?_text
  have hnone : Date.read? "date".toList = none := by decide
  rw [h, Instant.readParts?, hnone] at hread
  cases hread

lemma ofRecord?_row (a : Action Instant) : ofRecord? (a.row.map Utf8.encode) = some a.floorTenth := by
  have hdate : column a.row 0 = a.time.dateText := rfl
  simp only [ofRecord?, Csv.fieldTexts?_encode, Option.bind_eq_bind, Option.bind_some]
  rw [hdate, if_neg (dateText_ne _), ofRow?_row]

lemma ofRecord?_columnNames : ofRecord? (columnNames.map Utf8.encode) = none := by
  rw [ofRecord?, Csv.fieldTexts?_encode]
  rfl

end Action

namespace Sequence

/-- The sequence with every action at the start of its tenth of a second. -/
def floorTenths (s : Sequence Instant) : Sequence Instant :=
  ⟨s.actions.map Action.floorTenth, List.pairwise_map.mpr (s.sorted.imp Action.due_floorTenth)⟩

lemma write_eq (s : Sequence Instant) :
    s.write = String.ofList ((columnNames :: s.actions.map Action.row).flatMap Csv.writeRecord) := by
  rw [write, List.flatMap_cons, List.flatMap_map]

/-- The records of a sequence file are the column names and the rows of the actions. -/
lemma records_write (s : Sequence Instant) :
    Csv.records (Utf8.encode s.write) = (columnNames :: s.actions.map Action.row).map (·.map Utf8.encode) := by
  have hrows : ∀ row ∈ columnNames :: s.actions.map Action.row, 2 ≤ row.length := by
    rw [List.forall_mem_cons, List.forall_mem_map]
    refine ⟨by decide, fun a _ => ?_⟩
    rw [a.length_row]
    decide
  have hmark : (Utf8.encode s.write).head? ≠ some 0xEF := by
    have hhead : Csv.writeRecord columnNames = 'd' :: (Csv.writeRecord columnNames).tail := by decide
    have hbyte : String.utf8EncodeChar 'd' = [0x64] := by decide
    rw [write, Utf8.encode_ofList, hhead, List.cons_append, List.flatMap_cons, hbyte]
    nofun
  rw [write_eq] at hmark ⊢
  exact Csv.records_encode hrows hmark

lemma filterMap_ofRecord?_rows (as : List (Action Instant)) :
    ((columnNames :: as.map Action.row).map (·.map Utf8.encode)).filterMap Action.ofRecord? =
      as.map Action.floorTenth := by
  rw [List.map_cons, List.filterMap_cons_none Action.ofRecord?_columnNames, List.map_map, List.filterMap_map]
  have hrow : Action.ofRecord? ∘ (·.map Utf8.encode) ∘ Action.row = some ∘ Action.floorTenth :=
    funext Action.ofRecord?_row
  rw [hrow, List.filterMap_eq_map]

/-- A sequence that is written is read back with every action at the start of its tenth of a second: no action is
lost, added or changed otherwise, and their order stays. -/
theorem read_write_eq_floorTenths (s : Sequence Instant) : read (Utf8.encode s.write) = s.floorTenths := by
  have hactions : s.actions.map Action.floorTenth = s.floorTenths.actions := rfl
  rw [read, records_write, filterMap_ofRecord?_rows, hactions, ofActions_actions]

end Sequence

end Totality
