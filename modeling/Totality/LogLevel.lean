import Totality.Number.Integer
import Totality.Text.Basic
/-!
# Log levels

How much is said about a run. The command line comes first, then the environment, then the default.
-/

namespace Totality

inductive LogLevel where
  | error
  | warn
  | info
  | debug
  | trace
  deriving DecidableEq, Repr

namespace LogLevel

/-- The levels, the one that says least first. -/
def all : List LogLevel := [.error, .warn, .info, .debug, .trace]

def word : LogLevel → String
  | .error => "error"
  | .warn => "warn"
  | .info => "info"
  | .debug => "debug"
  | .trace => "trace"

/-- The level that a word on the command line names. -/
def ofWord? (word : String) : Option LogLevel := all.find? fun l => l.word == word

/-- What is said about a word that names no level. -/
def unknownMessage (word : String) : String := "invalid variant: " ++ word

/-- The level that the environment asks for, by a number from one or by a word in capitals or not. -/
def ofSetting? (setting : String) : Option LogLevel :=
  let text := Text.trim setting.toList
  match readNat? 64 text with
  | some n => if n = 0 then none else all[n - 1]?
  | none => all.find? fun l => l.word.toList == text.map Char.toLower

/-- The level that counts. -/
def effective (chosen : Option LogLevel) (setting : Option String) : LogLevel :=
  (chosen <|> setting.bind ofSetting?).getD .info

end LogLevel

end Totality
