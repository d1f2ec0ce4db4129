import Totality.Calendar.Date
/-!
# Instants

An instant is a whole number of nanoseconds since the start of 1970 in universal time, within the years of
the calendar. A *stamp* also names the points inside a leap second, which a clock can show but no
instant denotes.
-/

namespace Totality

/-- A signed length of time in nanoseconds. -/
structure Duration where
  nanos : Int
  deriving DecidableEq, Repr

namespace Duration

def zero : Duration := ⟨0⟩

instance : Inhabited Duration := ⟨zero⟩

def ofMicros (micros : Int) : Duration := ⟨micros * 1000⟩

instance : Neg Duration := ⟨fun d => ⟨-d.nanos⟩⟩

/-- The whole microseconds of a duration, rounded down. -/
def micros (d : Duration) : Int := d.nanos / 1000

end Duration

namespace Calendar

def dayNanos : Nat := 86400000000000

/-- The first and the last instant of the calendar, in nanoseconds since 1970. -/
def firstNano : Int := firstDay * dayNanos

def lastNano : Int := (lastDay + 1) * dayNanos - 1

end Calendar

open Calendar

/-- A point of time within the calendar, outside of leap seconds. -/
structure Instant where
  nanos : Int
  mem : firstNano ≤ nanos ∧ nanos ≤ lastNano
  deriving DecidableEq

namespace Instant

def ofNanos? (n : Int) : Option Instant :=
  if h : firstNano ≤ n ∧ n ≤ lastNano then some ⟨n, h⟩ else none

def earliest : Instant := ⟨firstNano, by decide⟩

def latest : Instant := ⟨lastNano, by decide⟩

instance : Inhabited Instant := ⟨⟨0, by decide⟩⟩

def le (a b : Instant) : Bool := decide (a.nanos ≤ b.nanos)

instance : LE Instant := ⟨fun a b => a.nanos ≤ b.nanos⟩
instance : LT Instant := ⟨fun a b => a.nanos < b.nanos⟩

instance (a b : Instant) : Decidable (a ≤ b) := inferInstanceAs (Decidable (a.nanos ≤ b.nanos))
instance (a b : Instant) : Decidable (a < b) := inferInstanceAs (Decidable (a.nanos < b.nanos))

/-- The instant a duration later, if the calendar has it. -/
def add? (t : Instant) (d : Duration) : Option Instant := ofNanos? (t.nanos + d.nanos)

/-- The time from `b` to `a`. -/
def since (a b : Instant) : Duration := ⟨a.nanos - b.nanos⟩

/-- Whole microseconds since 1970, rounded down. -/
def micros (t : Instant) : Int := t.nanos / 1000

end Instant

/-- A time of day in nanoseconds since midnight. -/
structure DayTime where
  nanos : Nat
  lt : nanos < dayNanos
  deriving DecidableEq

namespace DayTime

def midnight : DayTime := ⟨0, by decide⟩

/-- The time of day at an hour, a minute, a second and a fraction of a second in microseconds. -/
def ofParts? (hour minute second micros : Nat) : Option DayTime :=
  if h : hour < 24 ∧ minute < 60 ∧ second < 60 ∧ micros < 1000000 then
    some ⟨((hour * 60 + minute) * 60 + second) * 1000000000 + micros * 1000, by
      simp only [dayNanos]; omega⟩
  else none

end DayTime

namespace Instant

/-- The instant at a time of a day. -/
def on (d : Date) (t : DayTime) : Instant :=
  ⟨d.number * dayNanos + t.nanos, by
    have := d.number_mem
    have := t.lt
    simp only [firstNano, lastNano, dayNanos] at *
    omega⟩

/-- The day that an instant falls on. -/
def date (t : Instant) : Date :=
  Date.ofNumber (t.nanos / dayNanos) (by
    have := t.mem
    simp only [firstNano, lastNano, dayNanos] at *
    omega)

end Instant

/-- What a clock can show: whole seconds since 1970 and the nanoseconds that follow, a second or more of
them within a leap second. A leap second follows the last second of a minute. -/
structure Stamp where
  seconds : Int
  nanos : Nat
  day_mem : firstDay ≤ seconds / 86400 ∧ seconds / 86400 ≤ lastDay
  nanos_mem : nanos < 1000000000 ∨ (nanos < 2000000000 ∧ seconds % 60 = 59)
  deriving DecidableEq

namespace Stamp

def of? (seconds : Int) (nanos : Nat) : Option Stamp :=
  if h : (firstDay ≤ seconds / 86400 ∧ seconds / 86400 ≤ lastDay) ∧
      (nanos < 1000000000 ∨ (nanos < 2000000000 ∧ seconds % 60 = 59)) then
    some ⟨seconds, nanos, h.1, h.2⟩
  else none

def date (s : Stamp) : Date := Date.ofNumber (s.seconds / 86400) s.day_mem

/-- The second of the day, a leap second not counted. -/
def secondOfDay (s : Stamp) : Nat := (s.seconds % 86400).toNat

end Stamp

/-- An instant as a clock shows it. -/
def Instant.stamp (t : Instant) : Stamp :=
  ⟨t.nanos / 1000000000, (t.nanos % 1000000000).toNat, by
    have := t.mem
    simp only [firstNano, lastNano, dayNanos, firstDay, lastDay] at *
    omega, by omega⟩

end Totality
