import Totality.Script.Statement
/-!
# Compiling scripts

Lines that are blank or begin with `#` do not count. The leaves behind the opening of a loop belong to it until
the loop is closed, or the script ends. Loops are not nested. The first line that is wrong ends the
compilation.
-/

namespace Totality

open Text

/-- A fault and the number of its line, counted from one. -/
structure CompileError where
  line : Nat
  fault : LineFault
  deriving DecidableEq, Repr

def CompileError.message (e : CompileError) : String :=
  "line " ++ toString e.line ++ ": " ++ e.fault.message

/-- The commands so far and the loop that is open with its leaves so far, both in reverse. -/
structure Draft where
  commands : List Command := []
  pending : Option (Loop × List Leaf) := none

namespace Draft

/-- Close the loop that is open, if any. -/
def close (d : Draft) : Draft :=
  match d.pending with
  | none => d
  | some (loop, body) => ⟨.loop loop body.reverse :: d.commands, none⟩

/-- Take in one statement. -/
def add (d : Draft) : Statement → Except LineFault Draft
  | .leaf l =>
    match d.pending with
    | none => .ok { d with commands := .leaf l :: d.commands }
    | some (loop, body) => .ok { d with pending := some (loop, l :: body) }
  | .openLoop loop =>
    match d.pending with
    | none => .ok { d with pending := some (loop, []) }
    | some _ => .error .nestedLoop
  | .closeLoop =>
    match d.pending with
    | none => .error .noOpenLoop
    | some _ => .ok d.close

def script (d : Draft) : Script := ⟨d.close.commands.reverse⟩

end Draft

namespace Script

/-- Whether a line counts, once it is trimmed. -/
def isSignificant (line : List Char) : Bool := !line.isEmpty && line.head? != some '#'

/-- The lines that count, trimmed, with their numbers. -/
def significantLines (text : List Char) : List (Nat × List Char) :=
  (((lines text).zipIdx 1).map fun (line, n) => (n, trim line)).filter fun p => isSignificant p.2

/-- Take in lines one after another. -/
def addLines (d : Draft) : List (Nat × List Char) → Except CompileError Draft
  | [] => .ok d
  | (n, line) :: rest =>
    match Statement.read line >>= d.add with
    | .ok d => addLines d rest
    | .error fault => .error ⟨n, fault⟩

/-- Compile the text of a script. -/
def compile (text : List Char) : Except CompileError Script :=
  (addLines {} (significantLines text)).map Draft.script

end Script

end Totality
