import Totality.Calendar.Notation
import Totality.Calendar.TimeScale
/-!
# Actions

What is to be done at some point of time: take a picture with an exposure, or play a sound file.
-/

namespace Totality

inductive ActionKind where
  | capture
  | play
  deriving DecidableEq, Repr

namespace ActionKind

/-- The word for a kind in a sequence file. -/
def tag : ActionKind → String
  | .capture => "PICT"
  | .play => "PLAY"

/-- The name of a kind in what is printed. -/
def name : ActionKind → String
  | .capture => "Capture"
  | .play => "Play"

def all : List ActionKind := [.capture, .play]

/-- The kind that a word names; blanks around the word do not count. -/
def ofTag? (word : String) : Option ActionKind :=
  all.find? fun k => k.tag == Text.trimmed word

/-- What is said about a word that names no kind. -/
def unknownMessage (word : String) : String :=
  "invalid action kind: " ++ Text.trimmed word ++ " (expected \"PICT\" or \"PLAY\")"

end ActionKind

/-- The settings of the camera for one picture. -/
structure Exposure where
  /-- How long the shutter stays open, in seconds. -/
  shutter : Binary64
  aperture : Binary64
  iso : UInt32
  deriving DecidableEq

inductive Task where
  | capture (exposure : Exposure)
  | play (file : String)
  deriving DecidableEq

def Task.kind : Task → ActionKind
  | .capture _ => .capture
  | .play _ => .play

/-- A task that is due at a point of time. -/
structure Action (τ : Type) where
  time : τ
  task : Task
  comment : String
  deriving DecidableEq

namespace Action

variable {τ : Type}

def kind (a : Action τ) : ActionKind := a.task.kind

/-- Move the action in time, if the calendar has the new point. -/
def shift? [TimeScale τ] (a : Action τ) (d : Duration) : Option (Action τ) :=
  (TimeScale.add? a.time d).map fun t => { a with time := t }

/-- Append a note to the comment. -/
def annotate (a : Action τ) (note : String) : Action τ := { a with comment := a.comment ++ note }

/-- An action in a schedule. -/
def text (a : Action Instant) : String :=
  a.time.text ++ ": " ++ match a.task with
    | .capture e =>
      "take picture SS=" ++ e.shutter.text ++ " aperture=" ++ e.aperture.text ++ " ISO=" ++ toString e.iso
    | .play file => "play sound " ++ file

end Action

/-- Numerical equality of exposures: an exposure with a not-a-number differs from itself. -/
def Exposure.eqv (x y : Exposure) : Bool :=
  x.shutter.eqv y.shutter && x.aperture.eqv y.aperture && x.iso == y.iso

/-- Equality of tasks with numerical equality of exposures. -/
def Task.eqv : Task → Task → Bool
  | .capture x, .capture y => x.eqv y
  | .play x, .play y => x == y
  | _, _ => false

def Action.eqv (a b : Action Instant) : Bool :=
  decide (a.time = b.time) && a.task.eqv b.task && a.comment == b.comment

end Totality
