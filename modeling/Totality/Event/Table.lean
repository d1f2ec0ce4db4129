import Totality.Event.Curve
import Totality.Number.Decimal
import Totality.Text.Basic
/-!
# Event tables

The named instants of an eclipse and the two limbs of its magnitude curve. An event is one of their names, or named
by a limb and a percentage: `MAGPRE 40`, `MAGPOST 12.5`. A percentage outside the observed curve is
placed in proportion between the contacts of its partial phase.
-/

namespace Totality

/-- Why a list of readings makes no table. -/
structure CurveError where
  limb : Limb
  index : Nat
  previous : Binary64
  current : Binary64
  deriving DecidableEq

def CurveError.message (e : CurveError) : String :=
  e.limb.name ++ " magnitude curve is not ascending at index " ++ toString e.index ++ " (" ++
    e.previous.text ++ " > " ++ e.current.text ++ ")"

/-- Both limbs are kept with rising magnitude, the later one therefore against the order of time. -/
structure EventTable (τ : Type) where
  instants : List (String × τ)
  pre : List (Reading τ)
  post : List (Reading τ)
  /-- The greatest covered fraction. -/
  maxMagnitude : Binary64
  pre_ascending : Curve.Ascending pre
  post_ascending : Curve.Ascending post

variable {τ : Type}

namespace EventTable

/-- Give a name to an instant; a name that is taken moves. -/
def put (name : String) (time : τ) : List (String × τ) → List (String × τ)
  | [] => [(name, time)]
  | (n, t) :: rest => if n = name then (n, time) :: rest else (n, t) :: put name time rest

/-- A table of named instants and of readings in the order of time. -/
def ofReadings (instants : List (String × τ)) (pre post : List (Reading τ))
    (maxMagnitude : Option Binary64) : Except CurveError (EventTable τ) :=
  match hp : Curve.firstDrop? 1 pre with
  | some (i, a, b) => .error ⟨.pre, i, a, b⟩
  | none =>
    match hq : Curve.firstDrop? 1 post.reverse with
    | some (i, a, b) => .error ⟨.post, i, a, b⟩
    | none =>
      .ok ⟨instants, pre, post.reverse, maxMagnitude.getD .one,
        Curve.ascending_of_firstDrop? hp, Curve.ascending_of_firstDrop? hq⟩

/-- A table of named instants alone. -/
def ofInstants (instants : List (String × τ)) : EventTable τ :=
  ⟨instants, [], [], .one, .nil, .nil⟩

instance : Inhabited (EventTable τ) := ⟨ofInstants []⟩

def instant? (table : EventTable τ) (name : String) : Option τ :=
  (table.instants.find? fun p => p.1 == name).map (·.2)

def curve (table : EventTable τ) : Limb → List (Reading τ)
  | .pre => table.pre
  | .post => table.post

end EventTable

/-- Why an event has no instant. -/
inductive ResolutionError where
  | unknownEvent (name : String)
  | invalidMagnitude (name : String)
  | missingContact (event contact : String)
  | outOfRange (name : String)
  /-- An interpolated instant is rounded out of the calendar. -/
  | overflow (name : String)
  deriving DecidableEq, Repr

def ResolutionError.message : ResolutionError → String
  | .unknownEvent name => "unknown event '" ++ name ++ "'"
  | .invalidMagnitude name => "invalid magnitude percentage in event '" ++ name ++ "'"
  | .missingContact event contact =>
    "magnitude event '" ++ event ++ "' is outside the observed curve and contact " ++ contact ++
      " is unknown"
  | .outOfRange name =>
    "event '" ++ name ++ "' plus its offset falls outside the representable time range"
  | .overflow name => "event '" ++ name ++ "' is interpolated outside the representable time range"

namespace EventTable

/-- The limb that the first word of a magnitude event names. -/
def limbOf? (word : List Char) : Option Limb :=
  if word = "MAGPRE".toList then some .pre
  else if word = "MAGPOST".toList then some .post
  else none

/-- The fraction that a percentage names. -/
def fraction? (percent : List Char) : Option Binary64 :=
  match Binary64.read? percent with
  | some p => if p.isFinite then some (p / .ofInt 100) else none
  | none => none

def contact (table : EventTable τ) (event contact : String) : Except ResolutionError τ :=
  match table.instant? contact with
  | some t => .ok t
  | none => .error (.missingContact event contact)

variable [TimeScale τ]

/-- The place of a fraction within a partial phase: between the first two contacts in proportion to the
greatest magnitude, or counted back from the last contact. -/
def fallback (table : EventTable τ) (event : String) (fraction : Binary64) :
    Limb → Except ResolutionError τ
  | .pre => do
    let first ← table.contact event "C1"
    let second ← table.contact event "C2"
    match TimeScale.add? first ((TimeScale.since second first).scale (fraction * table.maxMagnitude)) with
    | some t => .ok t
    | none => .error (.outOfRange event)
  | .post => do
    let third ← table.contact event "C3"
    let fourth ← table.contact event "C4"
    match TimeScale.add? fourth (-(TimeScale.since fourth third).scale fraction) with
    | some t => .ok t
    | none => .error (.outOfRange event)

/-- The instant of a percentage on a limb. -/
def resolveMagnitude (table : EventTable τ) (event : String) (percent : List Char) (limb : Limb) :
    Except ResolutionError τ :=
  match fraction? percent with
  | none => .error (.invalidMagnitude event)
  | some fraction =>
    match Curve.crossing (table.curve limb) fraction with
    | .reached t => .ok t
    | .overflow => .error (.overflow event)
    | .outside => table.fallback event fraction limb

/-- The instant of an event. -/
def resolve (table : EventTable τ) (event : String) : Except ResolutionError τ :=
  match table.instant? event with
  | some t => .ok t
  | none =>
    match Text.words event.toList with
    | [word, percent] =>
      match limbOf? word with
      | some limb => table.resolveMagnitude event percent limb
      | none => .error (.unknownEvent event)
    | _ => .error (.unknownEvent event)

end EventTable

end Totality
