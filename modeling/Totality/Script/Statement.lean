import Totality.Number.Integer
import Totality.Script.Command
import Totality.Script.Field
/-!
# Statements

One line of a script, by itself: a leaf, the opening of a loop, or the end of one. Its fields stand between
commas, the first of them naming the statement.
-/

namespace Totality

open Text

/-- What is wrong with the text of a field. -/
inductive FieldFault where
  | numeral (error : NumeralError)
  | integer (error : IntegerError)
  | notFinite
  | notPositive
  | lostStep
  | tooManyPasses
  | tooManyIterations
  | offset
  | shutter
  deriving DecidableEq, Repr

/-- The most repetitions that a loop may ask for. -/
def maxIterations : Nat := 100000

def FieldFault.message : FieldFault → String
  | .numeral error => error.message
  | .integer error => error.message
  | .notFinite => "must be finite"
  | .notPositive => "must be positive"
  | .lostStep => "too small to advance the loop value"
  | .tooManyPasses => "loop would run more than " ++ toString maxIterations ++ " times"
  | .tooManyIterations => "at most " ++ toString maxIterations ++ " allowed"
  | .offset => "expected [HH:]MM:SS"
  | .shutter => "expected seconds or N/D"

/-- What is wrong with a line of a script. -/
inductive LineFault where
  | unknownCommand (command : String)
  | arity (command : String) (expected found : Nat)
  | field (name value : String) (fault : FieldFault)
  | nestedLoop
  | noOpenLoop
  deriving DecidableEq, Repr

def LineFault.message : LineFault → String
  | .unknownCommand command => "unknown command '" ++ command ++ "'"
  | .arity command expected found =>
    command ++ " expects " ++ toString expected ++ " fields, found " ++ toString found
  | .field name value fault => "invalid " ++ name ++ " '" ++ value ++ "': " ++ fault.message
  | .nestedLoop => "loops cannot be nested"
  | .noOpenLoop => "ENDFOR without an open loop"

inductive Statement where
  | leaf (leaf : Leaf)
  | openLoop (loop : Loop)
  | closeLoop
  deriving DecidableEq

namespace Statement

/-- A field that is refused. -/
def invalid {α : Type} (name : String) (value : List Char) (fault : FieldFault) : Except LineFault α :=
  .error (.field name (String.ofList value) fault)

/-- A whole number of a range; blanks around it do not count. -/
def integerField (range : IntegerRange) (name : String) (value : List Char) : Except LineFault Int :=
  match range.read (trim value) with
  | .ok n => .ok n
  | .error e => invalid name value (.integer e)

/-- A finite number; blanks around it do not count. -/
def finiteField (name : String) (value : List Char) : Except LineFault Binary64 :=
  match Binary64.read (trim value) with
  | .ok x => if x.isFinite then .ok x else invalid name value .notFinite
  | .error e => invalid name value (.numeral e)

/-- A sweep has to advance by its step at both ends, and to need no more passes than allowed. -/
def readSweep (start step stop : List Char) : Except LineFault Statement := do
  let a ← finiteField "start" start
  let d ← finiteField "step" step
  let b ← finiteField "end" stop
  if d.le (.zero false) then invalid "step" step .notPositive
  else if (a + d).le a || (b + d).le b then invalid "step" step .lostStep
  else if (Binary64.ofInt maxIterations).lt ((b - a) / d) then invalid "step" step .tooManyPasses
  else pure (.openLoop (.sweep ⟨a, d, b⟩))

def readCadence (direction delay iterations : List Char) : Except LineFault Statement := do
  let code ← integerField (.signed 64) "direction" direction
  let seconds ← finiteField "delay" delay
  let n ← integerField (.unsigned 32) "iterations" iterations
  if maxIterations < n then invalid "iterations" iterations .tooManyIterations
  else pure (.openLoop (.cadence ⟨.ofCode code, seconds, n.toNat⟩))

def offsetField (sign value : List Char) : Except LineFault Duration :=
  match Offset.read? sign value with
  | some d => .ok d
  | none => invalid "offset" value .offset

def shutterField (value : List Char) : Except LineFault Binary64 :=
  match Shutter.read? value with
  | some s => .ok s
  | none => invalid "shutter" value .shutter

/-- A picture. The camera, burst, quality, size and increment fields are not used. -/
def readCapture : List (List Char) → Except LineFault Statement
  | [event, sign, offset, _, shutter, aperture, iso, _, _, _, _, comment] => do
    let d ← offsetField sign offset
    let s ← shutterField shutter
    let f ← finiteField "aperture" aperture
    let i ← integerField (.unsigned 32) "iso" iso
    pure (.leaf ⟨String.ofList (trim event), d, .capture ⟨s, f, UInt32.ofNat i.toNat⟩, String.ofList comment⟩)
  | fields => .error (.arity "TAKEPIC" 12 fields.length)

/-- A sound. The seven fields behind the file are not used. -/
def readPlay : List (List Char) → Except LineFault Statement
  | [event, sign, offset, file, _, _, _, _, _, _, _, comment] => do
    let d ← offsetField sign offset
    pure (.leaf ⟨String.ofList (trim event), d, .play (String.ofList (soundFile file)), String.ofList comment⟩)
  | fields => .error (.arity "PLAY" 12 fields.length)

/-- The opening of a loop, by its kind. -/
def readLoop (kind : List Char) (fields : List (List Char)) : Except LineFault Statement :=
  if kind = "(VAR)".toList then
    match fields with
    | [start, step, stop] => readSweep start step stop
    | _ => .error (.arity "FOR (VAR)" 3 fields.length)
  else if kind = "(INTERVALOMETER)".toList then
    match fields with
    | [direction, delay, iterations] => readCadence direction delay iterations
    | _ => .error (.arity "FOR (INTERVALOMETER)" 3 fields.length)
  else .error (.unknownCommand ("FOR " ++ String.ofList kind))

/-- The statement that a line makes. -/
def read (line : List Char) : Except LineFault Statement :=
  match splitAt ',' line with
  | [] => .error (.unknownCommand "")
  | name :: fields =>
    if name = "ENDFOR".toList then .ok .closeLoop
    else if name = "TAKEPIC".toList then readCapture fields
    else if name = "PLAY".toList then readPlay fields
    else match fields with
      | kind :: fields =>
        if name = "FOR".toList then readLoop kind fields
        else .error (.unknownCommand (String.ofList name))
      | [] => .error (.unknownCommand (String.ofList name))

end Statement

end Totality
