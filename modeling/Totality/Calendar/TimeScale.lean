import Totality.Calendar.Instant
/-!
# Time scales

Schedules and replays compare two points of time, move one by a duration, take the time between two, and know
the last one. Instants allow that, and so does what a clock shows, which can lie within a leap second. A leap
second counts as a second for the points within it, and not at all for others.
-/

namespace Totality

class TimeScale (τ : Type) where
  le : τ → τ → Bool
  /-- The point a duration later, if the calendar has it. -/
  add? : τ → Duration → Option τ
  /-- The time from the second point to the first. -/
  since : τ → τ → Duration
  latest : τ
  le_trans : ∀ a b c : τ, le a b → le b c → le a c
  le_total : ∀ a b : τ, le a b || le b a

instance : TimeScale Instant where
  le := Instant.le
  add? := Instant.add?
  since := Instant.since
  latest := .latest
  le_trans a b c h h' := by
    simp only [Instant.le, decide_eq_true_eq] at *
    exact Int.le_trans h h'
  le_total a b := by
    simp only [Instant.le, Bool.or_eq_true, decide_eq_true_eq]
    exact Int.le_total _ _

namespace Stamp

/-- Whether `a` is not shown after `b`: the seconds decide, then the nanoseconds behind them. -/
def NotAfter (a b : Stamp) : Prop := a.seconds < b.seconds ∨ a.seconds = b.seconds ∧ a.nanos ≤ b.nanos

instance (a b : Stamp) : Decidable (NotAfter a b) := inferInstanceAs (Decidable (_ ∨ _))

/-- The nanoseconds since 1970, those of a leap second counted on into the second behind it. -/
def count (s : Stamp) : Int := s.seconds * 1000000000 + s.nanos

/-- The stamp with a given count, outside of leap seconds. -/
def ofCount? (n : Int) : Option Stamp := (Instant.ofNanos? n).map Instant.stamp

/-- What the clock shows a duration later. A leap second counts if the clock shows it now. -/
def add? (s : Stamp) (d : Duration) : Option Stamp :=
  let later := s.nanos + d.nanos
  if s.nanos < 1000000000 ∨ later < 1000000000 then ofCount? (s.count + d.nanos)
  else if later < 2000000000 then of? s.seconds later.toNat
  else ofCount? (s.count + d.nanos - 1000000000)

/-- The time from `b` to `a`. A leap second counts if one of them lies within it; whether that is the earlier
one is told by the times of day. -/
def since (a b : Stamp) : Duration :=
  let leap : Int :=
    if b.secondOfDay < a.secondOfDay ∧ 1000000000 ≤ b.nanos then 1
    else if a.secondOfDay < b.secondOfDay ∧ 1000000000 ≤ a.nanos then -1
    else 0
  ⟨a.count - b.count + leap * 1000000000⟩

end Stamp

instance : TimeScale Stamp where
  le a b := decide (a.NotAfter b)
  add? := Stamp.add?
  since := Stamp.since
  latest := Instant.latest.stamp
  le_trans a b c h h' := by
    rw [decide_eq_true_eq, Stamp.NotAfter] at *
    omega
  le_total a b := by
    rw [Bool.or_eq_true, decide_eq_true_eq, decide_eq_true_eq, Stamp.NotAfter, Stamp.NotAfter]
    omega

end Totality
