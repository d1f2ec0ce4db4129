import Totality.Proofs.Calendar.Instant
import Totality.Replay.Clock

/-!
# What a clock reads, and when a sleep ends

A clock reads its start plus the milliseconds that have passed, up to the last instant of the calendar. A sleep
until an instant that is not over ends at the first millisecond at which the clock does not read less, unless the
instant is further away than the longest sleep, if the timer has one.
-/

namespace Totality

open Calendar

namespace Clock

/-- The first millisecond at which the clock does not read less than an instant. -/
def due (c : Clock Instant) (t : Instant) : Nat := millisToCover (t.since c.start)

/-- A sleep from a millisecond until an instant is due is not longer than the longest one. -/
def Reaches (c : Clock Instant) (ms : Nat) (t : Instant) : Prop := ∀ longest ∈ c.longest, c.due t ≤ ms + longest

instance (c : Clock Instant) (ms : Nat) (t : Instant) : Decidable (c.Reaches ms t) :=
  inferInstanceAs (Decidable (∀ _ ∈ _, _))

lemma reaches_of_longest_eq_none {c : Clock Instant} (h : c.longest = none) (ms : Nat) (t : Instant) :
    c.Reaches ms t := by
  rw [Reaches, h]
  nofun

lemma late_iff {c : Clock Instant} {ms : Nat} {t : Instant} : c.Late ms t ↔ t < c.reading ms := by
  rw [Late, TimeScale.since_instant, Instant.since, Instant.lt_def]
  dsimp only
  omega

lemma not_late_iff {c : Clock Instant} {ms : Nat} {t : Instant} : ¬c.Late ms t ↔ c.reading ms ≤ t :=
  (not_congr late_iff).trans Instant.not_lt

lemma nanos_reading (c : Clock Instant) (ms : Nat) :
    (c.reading ms).nanos = min (c.start.nanos + (ms * milliNanos : Nat)) lastNano := by
  have hstart := c.start.mem
  simp only [reading, TimeScale.add?_instant, TimeScale.latest_instant, Instant.add?, Instant.ofNanos?]
  split
  · simp only [Option.getD_some]
    omega
  · simp only [Option.getD_none, Instant.latest]
    omega

lemma reading_mono (c : Clock Instant) {m n : Nat} (h : m ≤ n) : c.reading m ≤ c.reading n := by
  have := Nat.mul_le_mul_right milliNanos h
  rw [Instant.le_def, nanos_reading, nanos_reading]
  omega

/-- The later of two readings belongs to the later millisecond. -/
lemma lt_reading_max_iff (c : Clock Instant) (m n : Nat) (t : Instant) :
    t < c.reading (max m n) ↔ t < c.reading m ∨ t < c.reading n := by
  rcases Nat.le_total m n with h | h
  · rw [Nat.max_eq_right h]
    exact ⟨Or.inr, fun ht => ht.elim (fun hm => Instant.lt_of_lt_of_le hm (c.reading_mono h)) id⟩
  · rw [Nat.max_eq_left h]
    exact ⟨Or.inl, fun ht => ht.elim id fun hn => Instant.lt_of_lt_of_le hn (c.reading_mono h)⟩

/-- An instant that is over was due before. -/
lemma due_le_of_lt_reading {c : Clock Instant} {t : Instant} {ms : Nat} (h : t < c.reading ms) : c.due t ≤ ms := by
  rw [Instant.lt_def, nanos_reading] at h
  simp only [due, millisToCover, Instant.since, milliNanos] at *
  omega

/-- The clock does not read less than an instant once it is due. -/
lemma le_reading_due (c : Clock Instant) (t : Instant) : t ≤ c.reading (c.due t) := by
  have := t.mem
  rw [Instant.le_def, nanos_reading]
  simp only [due, millisToCover, Instant.since, milliNanos]
  omega

/-- A sleep that is not cut short ends when its instant is due. -/
lemma wake_eq_max {c : Clock Instant} {ms : Nat} {t : Instant} (ht : c.reading ms ≤ t) (hreach : c.Reaches ms t) :
    c.wake ms t = max ms (c.due t) := by
  have hmem := t.mem
  have hread := nanos_reading c ms
  rw [Instant.le_def] at ht
  have hsleep : ms + millisToCover (t.since (c.reading ms)) = max ms (c.due t) := by
    simp only [due, millisToCover, Instant.since, milliNanos] at *
    omega
  rw [wake, TimeScale.since_instant, sleep]
  split
  · next longest hlongest =>
    have hshort := hreach longest hlongest
    omega
  · exact hsleep

end Clock

end Totality
