import Totality.Calendar.TimeScale
/-!
# Clocks

Time is counted in whole milliseconds since a clock was started, since that is how finely a sleep can end. The
clock reads what it was started at plus that time, and stands still at the end of the calendar. Its timer may
have a longest sleep, which for the timer of a replay is thirty years.
-/

namespace Totality

def milliNanos : Nat := 1000000

/-- Thirty years of 365 days, in milliseconds. -/
def longestSleep : Nat := 30 * 365 * 24 * 60 * 60 * 1000

/-- How long a sleep lasts that is meant to last some milliseconds. -/
def sleepLength (ms : Nat) : Nat := min ms longestSleep

structure Clock (τ : Type) where
  start : τ
  /-- The longest sleep of the timer, in milliseconds; none if sleeps last as long as they are meant to. -/
  longest : Option Nat

namespace Clock

variable {τ : Type}

/-- A clock that is started at a point of time, with the timer of a replay. -/
def starting (start : τ) : Clock τ := ⟨start, some longestSleep⟩

/-- A clock that is started at a point of time, with a timer that has no longest sleep. -/
def unbounded (start : τ) : Clock τ := ⟨start, none⟩

/-- How long a sleep of the timer lasts that is meant to last some milliseconds. -/
def sleep (c : Clock τ) (ms : Nat) : Nat :=
  match c.longest with
  | some longest => min ms longest
  | none => ms

variable [TimeScale τ]

/-- What the clock reads after a number of milliseconds. -/
def reading (c : Clock τ) (ms : Nat) : τ :=
  (TimeScale.add? c.start ⟨ms * milliNanos⟩).getD TimeScale.latest

/-- After a number of milliseconds, the time that is left until a point is negative. -/
def Late (c : Clock τ) (ms : Nat) (t : τ) : Prop := (TimeScale.since t (c.reading ms)).nanos < 0

instance (c : Clock τ) (ms : Nat) (t : τ) : Decidable (c.Late ms t) := inferInstanceAs (Decidable (_ < _))

/-- The whole milliseconds that cover a duration. -/
def millisToCover (d : Duration) : Nat := ((d.nanos + (milliNanos - 1)) / milliNanos).toNat

/-- The millisecond at which a sleep until a point of time ends, begun at a given millisecond. It ends too early
if the point is further away than the longest sleep. -/
def wake (c : Clock τ) (ms : Nat) (t : τ) : Nat :=
  ms + c.sleep (millisToCover (TimeScale.since t (c.reading ms)))

end Clock

end Totality
