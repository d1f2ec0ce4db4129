import Totality.Replay.Clock
import Totality.Sequence
/-!
# Replaying a sequence

The sequencer takes its actions in order. One whose time has passed is skipped; for the others it sleeps
until they are due and hands them over. A run ends with the last action or with a stop, which only a
sleep can notice; what the stop leaves is pending for the next run.
-/

namespace Totality

/-- What became of an action. -/
inductive Fate where
  | skipped
  /-- Handed over at a millisecond of the clock. -/
  | dispatched (ms : Nat)
  deriving DecidableEq, Repr

structure Sequencer (τ : Type) where
  clock : Clock τ
  /-- The milliseconds since the clock was started. -/
  now : Nat
  pending : List (Action τ)

/-- One run: the actions it took, with their fates, and whether it was stopped. -/
structure Run (τ : Type) where
  taken : List (Action τ × Fate)
  interrupted : Bool

variable {τ : Type}

namespace Run

/-- The actions handed over, with their milliseconds. -/
def fired (r : Run τ) : List (Nat × Action τ) :=
  r.taken.filterMap fun
    | (a, .dispatched ms) => some (ms, a)
    | (_, .skipped) => none

def dispatched (r : Run τ) : Nat := r.fired.length

def skipped (r : Run τ) : Nat := (r.taken.filter fun p => p.2 == .skipped).length

/-- A run that took one action more in front. -/
def cons (p : Action τ × Fate) (r : Run τ) : Run τ := { r with taken := p :: r.taken }

end Run

/-- A stop at a millisecond. -/
structure Stop where
  ms : Nat
  /-- Whether it is noticed before a sleep that ends at the same millisecond. -/
  first : Bool
  deriving DecidableEq

/-- Whether a stop ends a sleep from millisecond `now` to millisecond `wake`. -/
def Stop.cuts (s : Stop) (now wake : Nat) : Bool :=
  decide (now < wake ∧ (s.ms < wake ∨ s.first = true ∧ s.ms = wake))

/-- One leg of a replay: it begins some milliseconds after the one before it has ended, and runs to the end,
or until a stop that sleeps some milliseconds from its beginning. -/
structure Leg where
  pause : Nat := 0
  stopAfter : Option Nat
  stopFirst : Bool := false
  deriving DecidableEq

/-- The stop of a leg that begins at a millisecond of a clock. -/
def Leg.stop? (leg : Leg) (clock : Clock τ) (began : Nat) : Option Stop :=
  leg.stopAfter.map fun ms => ⟨began + clock.sleep ms, leg.stopFirst⟩

namespace Sequencer

variable [TimeScale τ]

/-- A sequencer over the actions of a sequence whose kinds are not disabled. -/
def prepare (s : Sequence τ) (disabled : List ActionKind) (clock : Clock τ) : Sequencer τ :=
  ⟨clock, 0, s.enabled disabled⟩

/-- Take actions from millisecond `now` on, up to a stop, if there is one. -/
def take (clock : Clock τ) (stop : Option Stop) : Nat → List (Action τ) → Run τ × Sequencer τ
  | now, [] => (⟨[], false⟩, ⟨clock, now, []⟩)
  | now, a :: rest =>
    if clock.Late now a.time then
      let (run, after) := take clock stop now rest
      (run.cons (a, .skipped), after)
    else
      let wake := clock.wake now a.time
      match stop.filter fun s => s.cuts now wake with
      | some s => (⟨[], true⟩, ⟨clock, s.ms, a :: rest⟩)
      | none =>
        let (run, after) := take clock stop wake rest
        (run.cons (a, .dispatched wake), after)

/-- The millisecond at which a leg begins. -/
def begins (s : Sequencer τ) (leg : Leg) : Nat := s.now + leg.pause

/-- Run one leg of a replay. -/
def go (s : Sequencer τ) (leg : Leg) : Run τ × Sequencer τ :=
  take s.clock (leg.stop? s.clock (s.begins leg)) (s.begins leg) s.pending

/-- The legs of a replay, one after another; each comes with the sequencer it leaves. -/
def legs (s : Sequencer τ) : List Leg → List (Run τ × Sequencer τ)
  | [] => []
  | leg :: rest => s.go leg :: legs (s.go leg).2 rest

/-- Run to the end, or until a stop that sleeps some milliseconds from now on. -/
def run (s : Sequencer τ) (stopAfter : Option Nat) : Run τ × Sequencer τ := s.go { stopAfter }

/-- Runs one after another, with no time between them. -/
def runs (s : Sequencer τ) (stops : List (Option Nat)) : List (Run τ × Sequencer τ) :=
  s.legs (stops.map fun stopAfter => { stopAfter })

end Sequencer

end Totality
