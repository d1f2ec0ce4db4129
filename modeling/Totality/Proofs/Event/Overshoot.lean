import Totality.Event.Table
import Totality.Proofs.Calendar.Instant
import Totality.Proofs.Except

/-!
# Interpolation out of the calendar

An instant between two readings is computed with rounded numbers, and readings close to the end of the calendar may
carry it beyond. This is the only way in which an event overflows.
-/

namespace Totality

namespace Curve

/-- The instant in proportion between two readings, in nanoseconds, whether the calendar has it or not. -/
def projected (low high : Reading Instant) (target : Binary64) : Int :=
  low.time.nanos +
    ((high.time.since low.time).scale ((target - low.magnitude) / (high.magnitude - low.magnitude))).nanos

/-- The target is bracketed by two readings of different magnitudes, and the instant in proportion is none. -/
def Overshoots (curve : List (Reading Instant)) (target : Binary64) : Prop :=
  ∃ lo hi low high, bounds? curve target = some (lo, hi) ∧ curve[lo]? = some low ∧ curve[hi]? = some high ∧ lo ≠ hi ∧
    ¬(high.magnitude - low.magnitude).eqv (.zero false) ∧ ¬InCalendar (projected low high target)

lemma between_eq_overflow_iff {low high : Reading Instant} {target : Binary64} :
    between low high target = .overflow ↔ ¬InCalendar (projected low high target) := by
  rw [projected, ← Instant.add?_eq_none_iff, between, TimeScale.add?_instant, TimeScale.since_instant]
  split
  · next t ht => simp [ht]
  · next ht => simp [ht]

lemma crossing_eq_overflow_iff {curve : List (Reading Instant)} {target : Binary64} :
    crossing curve target = .overflow ↔ Overshoots curve target := by
  constructor
  · intro h
    rw [crossing] at h
    split at h
    · cases h
    · next lo hi hbounds =>
      split at h
      · next low high hlow hhigh =>
        split_ifs at h with hsame hflat
        exact ⟨lo, hi, low, high, hbounds, hlow, hhigh, hsame, hflat, between_eq_overflow_iff.mp h⟩
      · cases h
  · rintro ⟨lo, hi, low, high, hbounds, hlow, hhigh, hsame, hflat, hout⟩
    simp only [crossing, hbounds, hlow, hhigh, hsame, hflat, if_false]
    exact between_eq_overflow_iff.mpr hout

end Curve

namespace EventTable

/-- The event is a percentage on a limb that overshoots there. -/
def Overshoots (table : EventTable Instant) (event : String) : Prop :=
  table.instant? event = none ∧ ∃ word percent limb fraction, Text.words event.toList = [word, percent] ∧
    limbOf? word = some limb ∧ fraction? percent = some fraction ∧ Curve.Overshoots (table.curve limb) fraction

lemma contact_ne_overflow (table : EventTable Instant) (event contact name : String) :
    table.contact event contact ≠ .error (.overflow name) := by
  rw [EventTable.contact]
  split
  · nofun
  · nofun

lemma fallback_ne_overflow (table : EventTable Instant) (event name : String) (fraction : Binary64) (limb : Limb) :
    table.fallback event fraction limb ≠ .error (.overflow name) := by
  cases limb with
  | pre =>
    refine bind_ne_error (contact_ne_overflow table _ _ _) fun first => ?_
    refine bind_ne_error (contact_ne_overflow table _ _ _) fun second => ?_
    split
    · nofun
    · nofun
  | post =>
    refine bind_ne_error (contact_ne_overflow table _ _ _) fun third => ?_
    refine bind_ne_error (contact_ne_overflow table _ _ _) fun fourth => ?_
    split
    · nofun
    · nofun

lemma resolve_eq_overflow_iff {table : EventTable Instant} {event name : String} :
    table.resolve event = .error (.overflow name) ↔ name = event ∧ table.Overshoots event := by
  constructor
  · intro h
    rw [resolve] at h
    split at h
    · cases h
    · next hinstant =>
      split at h
      · next word percent hwords =>
        split at h
        · next limb hlimb =>
          rw [resolveMagnitude] at h
          split at h
          · cases h
          · next fraction hfraction =>
            split at h
            · cases h
            · next hcrossing =>
              cases h
              exact ⟨rfl, hinstant, word, percent, limb, fraction, hwords, hlimb, hfraction,
                Curve.crossing_eq_overflow_iff.mp hcrossing⟩
            · exact absurd h (fallback_ne_overflow table _ _ _ _)
        · cases h
      · cases h
  · rintro ⟨rfl, hinstant, word, percent, limb, fraction, hwords, hlimb, hfraction, hover⟩
    simp only [resolve, hinstant, hwords, hlimb, resolveMagnitude, hfraction, Curve.crossing_eq_overflow_iff.mpr hover]

end EventTable

end Totality
