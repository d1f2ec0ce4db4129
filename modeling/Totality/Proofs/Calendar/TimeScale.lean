import Mathlib.Tactic.Lemma
import Totality.Calendar.TimeScale
import Totality.Proofs.Calendar.Notation

/-!
# Instants among what a clock shows

Instants are compared, moved and measured as the stamps are that show them, and whatever a clock shows outside of leap
seconds is an instant.
-/

namespace Totality

open Calendar

/-- A map between points of time that changes nothing of what is done with them. -/
structure TimeScale.Embeds {σ τ : Type} [TimeScale σ] [TimeScale τ] (f : σ → τ) : Prop where
  le : ∀ s t, TimeScale.le (f s) (f t) = TimeScale.le s t
  add? : ∀ t d, TimeScale.add? (f t) d = (TimeScale.add? t d).map f
  since : ∀ s t, TimeScale.since (f s) (f t) = TimeScale.since s t
  latest : f TimeScale.latest = TimeScale.latest

namespace Stamp

variable {s t : Stamp}

lemma eq_of_seconds_of_nanos (hseconds : s.seconds = t.seconds) (hnanos : s.nanos = t.nanos) : s = t := by
  cases s
  cases t
  simp_all

/-- Outside of a leap second a clock shows an instant. -/
lemma exists_stamp_eq (h : s.nanos < 1000000000) : ∃ t : Instant, t.stamp = s := by
  have hday := s.day_mem
  refine ⟨⟨s.seconds * 1000000000 + s.nanos, ?_⟩, eq_of_seconds_of_nanos ?_ ?_⟩
  · simp only [firstNano, lastNano, dayNanos]
    omega
  · simp only [Instant.seconds_stamp]
    omega
  · simp only [Instant.nanos_stamp]
    omega

@[simp] lemma count_stamp (t : Instant) : t.stamp.count = t.nanos := by
  rw [count, Instant.seconds_stamp, Instant.nanos_stamp]
  omega

lemma add?_stamp (t : Instant) (d : Duration) : t.stamp.add? d = (t.add? d).map Instant.stamp := by
  rw [add?, if_pos (Or.inl t.stamp_nanos_lt), count_stamp]
  rfl

/-- Between two instants no leap second counts. -/
lemma since_stamp (s t : Instant) : s.stamp.since t.stamp = s.since t := by
  have hs := s.stamp_nanos_lt
  have ht := t.stamp_nanos_lt
  rw [since, if_neg (by omega), if_neg (by omega), count_stamp, count_stamp, Instant.since]
  simp

lemma notAfter_stamp_iff (s t : Instant) : s.stamp.NotAfter t.stamp ↔ s ≤ t := by
  rw [NotAfter, Instant.seconds_stamp, Instant.seconds_stamp, Instant.nanos_stamp, Instant.nanos_stamp, Instant.le_def]
  omega

end Stamp

theorem Instant.stamp_embeds : TimeScale.Embeds Instant.stamp where
  le s t := decide_eq_decide.mpr (Stamp.notAfter_stamp_iff s t)
  add? := Stamp.add?_stamp
  since := Stamp.since_stamp
  latest := rfl

/-- The middle of a leap second at the end of the first minute of 1970. -/
def Stamp.leapMiddle : Stamp := ⟨59, 1500000000, by decide, by decide⟩

/-- With the leap second, the first two minutes of 1970 take a hundred and twenty-one seconds, half of them before its
middle. -/
example : Stamp.leapMiddle.since (default : Instant).stamp = .ofMicros 60500000 ∧
    Stamp.leapMiddle.add? (.ofMicros 60500000) = (Instant.ofNanos? 120000000000).map Instant.stamp := by
  decide +kernel

end Totality
