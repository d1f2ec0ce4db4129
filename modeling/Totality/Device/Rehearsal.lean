import Totality.Replay.Clock
import Totality.Replay.Station
import Totality.Text.Basic
/-!
# Rehearsal devices

A camera and a player that only sleep, for trying a station without hardware.
-/

namespace Totality.Rehearsal

/-- A camera that takes `captureMs` for each picture, is waited for no longer than `waitMs`, and fails at
given pictures. -/
def camera (captureMs waitMs : Nat) (failOn : List Nat) (n : Nat) (_ : Exposure) : Attempt :=
  if waitMs < captureMs then ⟨0, none, sleepLength waitMs, some (.timeout waitMs)⟩
  else
    let error := if failOn.contains n then
        some (.commandFailed ("trigger " ++ toString n ++ " failed"))
      else none
    ⟨0, none, sleepLength captureMs, error⟩

/-- A player that plays every file for the same time, and fails at files with `fail` in their path. -/
def player (directory : String) (lengthMs : Nat) : Player where
  directory
  plays _ path :=
    let fails := Text.contains "fail".toList path.toList
    (sleepLength lengthMs, if fails then some (.commandFailed ("cannot play " ++ Text.quoted path)) else none)

end Totality.Rehearsal
