import Totality.Calendar.Instant
import Totality.Number.Decimal
import Totality.Text.Basic
import Totality.Text.PathName
/-!
# Fields of a script

Offsets, shutter times and sound files as they are written in a script line.
-/

namespace Totality

open Text

/-- The numbers between separators, if all pieces are numbers. -/
def readNumbers? (sep : Char) (cs : List Char) : Option (List Binary64) :=
  (splitAt sep cs).mapM fun piece => Binary64.read? (trim piece)

namespace Offset

/-- The seconds of `HH:MM:SS` or `MM:SS`, each part any number. -/
def seconds? (cs : List Char) : Option Binary64 :=
  match readNumbers? ':' cs with
  | some [h, m, s] => some (h * .ofInt 3600 + m * .ofInt 60 + s)
  | some [m, s] => some (m * .ofInt 60 + s)
  | _ => none

/-- An offset in whole microseconds; a sign field `-` turns it round. -/
def read? (sign cs : List Char) : Option Duration :=
  match seconds? cs with
  | some s =>
    if s.isFinite then
      let d := Duration.ofMicros ((s * .ofInt 1000000).roundTo wordMin wordMax)
      some (if trim sign = ['-'] then -d else d)
    else none
  | none => none

end Offset

namespace Shutter

/-- A shutter time in seconds: a number or a quotient of two, finite and positive. -/
def read? (cs : List Char) : Option Binary64 :=
  let seconds := match readNumbers? '/' cs with
    | some [num, den] => some (num / den)
    | some [s] => some s
    | _ => none
  seconds.filter fun s => s.isFinite && (Binary64.zero false).lt s

/-- A shutter time as cameras list it: a fraction of one below a second, else plain seconds. -/
def text (seconds : Binary64) : String :=
  if seconds.lt .one then "1/" ++ toString ((Binary64.one / seconds).roundTo 0 18446744073709551615)
  else seconds.text

end Shutter

/-- The sound file that is played: whatever extension is named, it is `mp3`. -/
def soundFile (cs : List Char) : List Char := PathName.withExtension "mp3".toList (trim cs)

end Totality
