import Totality.Action
import Totality.Device.Error
import Totality.Text.PathName
/-!
# Stations

Where actions go when they are due. Captures queue for the one camera, which takes them in turn; every sound
plays on its own from the moment it is handed over. Draining waits for all of them, but no longer than it
is given.
-/

namespace Totality

/-! ### The camera -/

/-- How a camera acts on one capture: how long it takes to apply the settings and to take the picture, and
what goes wrong. -/
structure Attempt where
  applyMs : Nat
  applyError : Option DeviceError
  triggerMs : Nat
  triggerError : Option DeviceError

/-- A capture that was handed over at a millisecond. -/
structure Submission where
  ms : Nat
  exposure : Exposure

/-- What a camera is asked to do. -/
inductive CameraCall where
  | stage (exposure : Exposure)
  | apply
  | trigger
  deriving DecidableEq

/-- A capture that the camera has begun. -/
structure Turn where
  submission : Submission
  start : Nat
  attempt : Attempt

namespace Turn

/-- When the settings are applied, or have failed to be. -/
def applied (t : Turn) : Nat := t.start + t.attempt.applyMs

/-- When the camera is free again. -/
def finish (t : Turn) : Nat :=
  if t.attempt.applyError.isNone then t.applied + t.attempt.triggerMs else t.applied

def error? (t : Turn) : Option DeviceError := t.attempt.applyError <|> t.attempt.triggerError

/-- The calls of a turn; a picture is taken only with settings that were applied. -/
def calls (t : Turn) : List (Nat × CameraCall) :=
  [(t.start, .stage t.submission.exposure), (t.start, .apply)] ++
    if t.attempt.applyError.isNone then [(t.applied, .trigger)] else []

end Turn

/-- The turns of a camera that is free from a millisecond on; it acts on the `n`-th capture, of exposure `e`,
as `camera n e`. -/
def turns (camera : Nat → Exposure → Attempt) : Nat → Nat → List Submission → List Turn
  | _, _, [] => []
  | n, free, s :: rest =>
    let turn : Turn := ⟨s, max s.ms free, camera n s.exposure⟩
    turn :: turns camera (n + 1) turn.finish rest

/-! ### Sounds -/

/-- A player: how long its `n`-th play lasts, of the file at a path, and what goes wrong in the end. -/
structure Player where
  directory : String
  plays : Nat → String → Nat × Option DeviceError

/-- A sound that was handed over at a millisecond. -/
structure Sound where
  ms : Nat
  path : String
  length : Nat
  error? : Option DeviceError

def Sound.finish (s : Sound) : Nat := s.ms + s.length

/-! ### The station -/

/-- A station with what was handed over so far, in order. -/
structure Station where
  camera : Option (Nat → Exposure → Attempt)
  player : Option Player
  submissions : List Submission := []
  sounds : List Sound := []
  /-- The sounds that nobody has noticed to have ended. -/
  inFlight : List Sound := []

namespace Station

/-- Hand over a task. Sounds that have ended before are cleared away; without a camera or a player the task
is dropped. Plays are counted from one. -/
def dispatch (st : Station) (ms : Nat) (task : Task) : Station :=
  let st := { st with inFlight := st.inFlight.filter fun s => decide (ms ≤ s.finish) }
  match task with
  | .capture exposure =>
    match st.camera with
    | none => st
    | some _ => { st with submissions := st.submissions ++ [⟨ms, exposure⟩] }
  | .play file =>
    match st.player with
    | none => st
    | some player =>
      let path := String.ofList (PathName.join player.directory.toList file.toList)
      let (length, error?) := player.plays (st.sounds.length + 1) path
      let sound : Sound := ⟨ms, path, length, error?⟩
      { st with sounds := st.sounds ++ [sound], inFlight := st.inFlight ++ [sound] }

/-- The turns of the camera, counted from one. -/
def cameraTurns (st : Station) : List Turn :=
  match st.camera with
  | none => []
  | some camera => turns camera 1 0 st.submissions

/-- When the last capture and the last sound have ended, not before `now`. -/
def finish (st : Station) (now : Nat) : Nat :=
  ((st.cameraTurns.map Turn.finish) ++ st.sounds.map Sound.finish).foldl max now

/-- When draining ends that begins `now` and may take `grace`. -/
def drained (st : Station) (now grace : Nat) : Nat := min (now + grace) (st.finish now)

/-- Whether draining that begins `now` sees what happens at a millisecond: it gives up as soon as its time is
over, so that without any time it sees nothing more. -/
def sees (now grace ms : Nat) : Bool := decide (ms < now + grace)

end Station

end Totality
