import Totality.Sequence
/-!
# Previews

What a replay would do, without doing it: which actions it would take, and which of them it would skip because
their instant has passed.
-/

namespace Totality

structure Preview where
  now : Instant
  disabled : List ActionKind
  /-- The number of actions in the sequence, with those of disabled kinds. -/
  size : Nat
  /-- The actions that are not disabled, and whether they come too late. -/
  marks : List (Action Instant × Bool)

namespace Preview

/-- Actions with a mark whether they come too late at an instant. -/
def marksAt (now : Instant) (as : List (Action Instant)) : List (Action Instant × Bool) :=
  as.map fun a => (a, decide (a.time < now))

/-- The preview of a replay that begins at an instant. -/
def of (s : Sequence Instant) (disabled : List ActionKind) (now : Instant) : Preview where
  now
  disabled
  size := s.size
  marks := marksAt now (s.enabled disabled)

/-- An action with its mark, and its comment on a line of its own. -/
def markText (a : Action Instant) (late : Bool) : String :=
  "  " ++ (if late then "skip" else "    ") ++ " " ++ a.text ++ "\n" ++
    if a.comment.isEmpty then "" else "         # " ++ a.comment ++ "\n"

/-- The preview as it is printed. -/
def text (p : Preview) : String :=
  "eclipse-sequencer dry-run\n  now = " ++ p.now.text ++
    "\n  disabled = [" ++ ", ".intercalate (p.disabled.map ActionKind.name) ++ "]\n\n" ++
    "actions (" ++ toString p.marks.length ++ " of " ++ toString p.size ++ "):\n" ++
    String.join (p.marks.map fun (a, late) => markText a late)

end Preview

end Totality
