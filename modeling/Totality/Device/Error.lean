import Totality.Host.Fault
import Totality.Text.Quoted
import Totality.Number.Decimal
/-!
# Failures of devices
-/

namespace Totality

/-- A time limit in a message: nothing, milliseconds, or seconds with the decimals they need. -/
def limitText (ms : Nat) : String :=
  if ms = 0 then "0ns"
  else if ms < 1000 then toString ms ++ "ms"
  else
    let thousandths := padZeros 3 (digitsOf (ms % 1000))
    let decimals := (thousandths.reverse.dropWhile (· == '0')).reverse
    toString (ms / 1000) ++ String.ofList (if decimals.isEmpty then [] else '.' :: decimals) ++ "s"

/-- Why a camera or a player did not do its work. -/
inductive DeviceError where
  | initFailed (reason : String)
  | commandFailed (reason : String)
  | timeout (ms : Nat)
  | host (fault : HostFault)
  deriving DecidableEq, Repr

def DeviceError.message : DeviceError → String
  | .initFailed reason => "device initialisation failed: " ++ reason
  | .commandFailed reason => "device command failed: " ++ reason
  | .timeout ms => "device did not finish within " ++ limitText ms
  | .host fault => "device IO error: " ++ fault.message

end Totality
