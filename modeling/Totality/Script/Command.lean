import Totality.Action
/-!
# Commands

A script is a list of commands: single leaves, which produce one action each, and loops over leaves. A sweep
repeats its leaves for the values of a variable, a cadence repeats them a number of times with a delay.
-/

namespace Totality

/-- One action, placed by an event and an offset from it. -/
structure Leaf where
  event : String
  offset : Duration
  task : Task
  comment : String
  deriving DecidableEq

/-- The values `start`, `start + step`, … below `stop`. -/
structure Sweep where
  start : Binary64
  step : Binary64
  stop : Binary64
  deriving DecidableEq

/-- Which way a cadence walks away from its base time. -/
inductive Direction where
  | backward
  | forward
  deriving DecidableEq, Repr

namespace Direction

/-- Positive codes walk forward. -/
def ofCode (code : Int) : Direction := if 0 < code then .forward else .backward

def sign : Direction → Binary64
  | .backward => .ofInt (-1)
  | .forward => .ofInt 1

def name : Direction → String
  | .backward => "Backward"
  | .forward => "Forward"

end Direction

structure Cadence where
  direction : Direction
  /-- The time from one repetition to the next, in seconds. -/
  delay : Binary64
  iterations : Nat
  deriving DecidableEq

inductive Loop where
  | sweep (sweep : Sweep)
  | cadence (cadence : Cadence)
  deriving DecidableEq

inductive Command where
  | leaf (leaf : Leaf)
  | loop (loop : Loop) (body : List Leaf)
  deriving DecidableEq

structure Script where
  commands : List Command
  deriving DecidableEq

namespace Command

/-- The leaves within a loop. -/
def body : Command → List Leaf
  | .leaf _ => []
  | .loop _ body => body

/-- A command in the outline of its script. -/
def label : Command → String
  | .leaf l => (match l.task with | .capture _ => "TAKEPIC " | .play _ => "PLAY ") ++ l.event
  | .loop (.sweep s) _ => "FOR (VAR) " ++ s.start.text ++ " : " ++ s.step.text ++ " : " ++ s.stop.text
  | .loop (.cadence c) _ =>
    "FOR (INTERVALOMETER) " ++ c.direction.name ++ " : " ++ c.delay.text ++ " : " ++
      toString c.iterations

/-- The lines of the outline for the command with a given number. -/
def outline (number : Nat) (c : Command) : String :=
  toString number ++ ": " ++ c.label ++ "\n" ++
    String.join (c.body.map fun l => "    " ++ l.event ++ "\n")

end Command

/-- The outline of a script: its commands, numbered from one, and the events within loops. -/
def Script.outline (s : Script) : String :=
  String.join ((s.commands.zipIdx 1).map fun (c, n) => c.outline n)

end Totality
