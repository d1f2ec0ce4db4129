import Totality.Event.Table
import Totality.Script.Command
import Totality.Sequence
/-!
# Schedules

A script and an event table give actions, one for each leaf and each repetition of it. The first leaf that
cannot be placed ends the work.
-/

namespace Totality

/-- Why a script gives no schedule. -/
inductive ScheduleError where
  | unresolved (error : ResolutionError)
  /-- The value of a sweep stops advancing before it reaches the end. -/
  | endless (sweep : Sweep)
  deriving DecidableEq

def ScheduleError.message : ScheduleError → String
  | .unresolved error => error.message
  | .endless s => "the value of the loop " ++ s.start.text ++ " : " ++ s.step.text ++ " : " ++ s.stop.text ++
    " stops advancing"

variable {τ : Type} [TimeScale τ]

namespace Leaf

/-- The action of a leaf, placed by an event that need not be its own. -/
def place (table : EventTable τ) (event : String) (l : Leaf) : Except ResolutionError (Action τ) := do
  let base ← table.resolve event
  match TimeScale.add? base l.offset with
  | some t => .ok ⟨t, l.task, l.comment⟩
  | none => .error (.outOfRange event)

end Leaf

namespace Sweep

/-- Collect values while they lie below the end and advance; the flag says that one did not advance. -/
def collect (s : Sweep) : Nat → Binary64 → List Binary64 → List Binary64 × Bool
  | 0, _, acc => (acc.reverse, false)
  | n + 1, v, acc =>
    if v.lt s.stop then
      let next := v + s.step
      if v.lt next then collect s n next (v :: acc) else ((v :: acc).reverse, true)
    else (acc.reverse, false)

/-- The distance from start to end in units, which every pass shortens by one at least. -/
def distance (s : Sweep) : Nat :=
  ((s.stop.place.getD 0) - (s.start.place.getD 0)).toNat

/-- The values of a sweep in order, and whether the last of them would be repeated for ever. -/
def values (s : Sweep) : List Binary64 × Bool := collect s s.distance s.start []

/-- The text of a value, as it stands in the names of events. -/
def valueText (v : Binary64) : String := String.ofList v.writeTenths

/-- The first word of an event, empty if there is none. -/
def firstWord (event : String) : List Char := ((Text.words event.toList).head?).getD []

/-- A leaf in one pass: its event is the first word of its own with the value behind it, and magnitude events
are noted in the comment. -/
def passLeaf (table : EventTable τ) (value : String) (l : Leaf) : Except ResolutionError (Action τ) := do
  let word := firstWord l.event
  let action ← l.place table (String.ofList word ++ " " ++ value)
  if (EventTable.limbOf? word).isSome then pure (action.annotate (" (Mag. " ++ value ++ "%)"))
  else pure action

/-- The actions of one pass. -/
def pass (table : EventTable τ) (body : List Leaf) (v : Binary64) : Except ResolutionError (List (Action τ)) :=
  body.mapM (passLeaf table (valueText v))

end Sweep

namespace Cadence

/-- The offsets of the first `n` repetitions in seconds, summed up one delay at a time. -/
def offsets (delay : Binary64) : Nat → Binary64 → List Binary64 → List Binary64
  | 0, _, acc => acc.reverse
  | n + 1, v, acc => offsets delay n (v + delay) (v :: acc)

/-- Offsets count in whole centiseconds, cut off toward zero; `none` where a word of microseconds
is too short. -/
def wholeCentiseconds (seconds : Binary64) : Option Duration :=
  let micros := (seconds * .ofInt 100).truncateTo wordMin wordMax * 10000
  if wordMin ≤ micros ∧ micros ≤ wordMax then some (.ofMicros micros) else none

/-- A leaf in the repetition with a given number, shifted by the offset of the repetition. -/
def passLeaf (table : EventTable τ) (number : Nat) (seconds : Binary64) (l : Leaf) :
    Except ResolutionError (Action τ) :=
  match wholeCentiseconds seconds with
  | none => .error (.outOfRange l.event)
  | some shift => do
    let action ← l.place table l.event
    match action.shift? shift with
    | none => .error (.outOfRange l.event)
    | some moved =>
      pure (moved.annotate (" (iter. " ++ String.ofList (writePadded 3 number) ++ ")"))

/-- The actions of one repetition. -/
def pass (table : EventTable τ) (body : List Leaf) (number : Nat) (seconds : Binary64) :
    Except ResolutionError (List (Action τ)) :=
  body.mapM (passLeaf table number seconds)

end Cadence

namespace Loop

/-- The actions of a loop, pass by pass. -/
def actions (table : EventTable τ) (body : List Leaf) : Loop → Except ScheduleError (List (Action τ))
  | .sweep s =>
    let (values, endless) := s.values
    match values.mapM (Sweep.pass table body) with
    | .error e => .error (.unresolved e)
    | .ok passes => if endless then .error (.endless s) else .ok passes.flatten
  | .cadence c =>
    let offsets := Cadence.offsets (c.direction.sign * c.delay) c.iterations (.zero false) []
    match (offsets.zipIdx 1).mapM fun (v, n) => Cadence.pass table body n v with
    | .error e => .error (.unresolved e)
    | .ok passes => .ok passes.flatten

end Loop

/-- The actions of a command. -/
def Command.actions (table : EventTable τ) : Command → Except ScheduleError (List (Action τ))
  | .leaf l =>
    match l.place table l.event with
    | .error e => .error (.unresolved e)
    | .ok a => .ok [a]
  | .loop l body => l.actions table body

namespace Script

/-- The actions of a script, command by command. -/
def actions (table : EventTable τ) (s : Script) : Except ScheduleError (List (Action τ)) :=
  (s.commands.mapM (Command.actions table)).map List.flatten

/-- The actions of a script in the order of time. -/
def schedule (table : EventTable τ) (s : Script) : Except ScheduleError (Sequence τ) :=
  (s.actions table).map Sequence.ofActions

end Script

end Totality
