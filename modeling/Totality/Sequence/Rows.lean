import Totality.Sequence
import Totality.Csv
/-!
# Sequence files

A sequence file is a table: a row of column names, then a row for each action in the order of time. Columns
that do not belong to a kind of action are left empty. Reading drops every row that is no action.
-/

namespace Totality

/-- The columns of a sequence file, in order. -/
def columnNames : List String :=
  ["date", "time_utc", "action", "shutter_speed", "aperture", "iso", "file", "comment"]

namespace Action

/-- The row of an action. -/
def row (a : Action Instant) : List String :=
  let settings := match a.task with
    | .capture e => [e.shutter.text, e.aperture.text, toString e.iso, ""]
    | .play file => ["", "", "", file]
  [a.time.dateText, a.time.timeText, a.kind.tag] ++ settings ++ [a.comment]

/-- The field of a row in a column; missing columns are empty. -/
def column (row : List String) (i : Nat) : String := row[i]?.getD ""

/-- A number in a column. -/
def number? (row : List String) (i : Nat) : Option Binary64 :=
  Binary64.read? (Text.trim (column row i).toList)

/-- The task of a row of a given kind. -/
def taskOfRow? (row : List String) : ActionKind → Option Task
  | .capture => do
    let shutter ← number? row 3
    let aperture ← number? row 4
    let iso ← readNat? 32 (Text.trim (column row 5).toList)
    pure (.capture ⟨shutter, aperture, UInt32.ofNat iso⟩)
  | .play => some (.play (column row 6))

/-- The action of a row, if the row is one. -/
def ofRow? (row : List String) : Option (Action Instant) := do
  let time ← Instant.readParts? (column row 0).toList (column row 1).toList
  let kind ← ActionKind.ofTag? (column row 2)
  let task ← taskOfRow? row kind
  pure ⟨time, task, column row 7⟩

/-- The action of a record; a record whose first field is the name of the first column is none. -/
def ofRecord? (record : List (List UInt8)) : Option (Action Instant) := do
  let row ← Csv.fieldTexts? record
  if column row 0 = "date" then none else ofRow? row

end Action

namespace Sequence

/-- The text of a sequence file. -/
def write (s : Sequence Instant) : String :=
  String.ofList (Csv.writeRecord columnNames ++ s.actions.flatMap fun a => Csv.writeRecord a.row)

/-- Read a sequence file. -/
def read (bytes : List UInt8) : Sequence Instant :=
  ofActions ((Csv.records bytes).filterMap Action.ofRecord?)

end Sequence

end Totality
