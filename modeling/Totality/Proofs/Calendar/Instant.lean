import Mathlib.Tactic.Lemma
import Totality.Action

/-!
# Comparing and moving instants

Instants are ordered as their nanoseconds are. An instant is moved exactly, and only within the calendar.
-/

namespace Totality

open Calendar

namespace Duration

@[simp] lemma nanos_neg (d : Duration) : (-d).nanos = -d.nanos := rfl

@[simp] lemma nanos_ofMicros (m : Int) : (ofMicros m).nanos = m * 1000 := rfl

end Duration

/-- There is an instant so many nanoseconds after the start of 1970. -/
def InCalendar (nanos : Int) : Prop := firstNano ≤ nanos ∧ nanos ≤ lastNano

instance (nanos : Int) : Decidable (InCalendar nanos) := inferInstanceAs (Decidable (_ ∧ _))

namespace Instant

lemma ext_nanos {a b : Instant} (h : a.nanos = b.nanos) : a = b := by
  cases a
  cases b
  simp_all

lemma lt_def {a b : Instant} : a < b ↔ a.nanos < b.nanos := Iff.rfl

lemma le_def {a b : Instant} : a ≤ b ↔ a.nanos ≤ b.nanos := Iff.rfl

lemma not_lt {a b : Instant} : ¬a < b ↔ b ≤ a := Int.not_lt

lemma lt_of_lt_of_le {a b c : Instant} (h : a < b) (h' : b ≤ c) : a < c := Int.lt_of_lt_of_le h h'

variable {t t' : Instant} {d : Duration}

lemma add?_eq_some_iff : t.add? d = some t' ↔ t'.nanos = t.nanos + d.nanos := by
  rw [add?, ofNanos?]
  constructor
  · intro h
    split at h
    · cases h
      rfl
    · cases h
  · intro h
    rw [dif_pos (h ▸ t'.mem)]
    exact congrArg some (ext_nanos h.symm)

lemma add?_eq_none_iff : t.add? d = none ↔ ¬InCalendar (t.nanos + d.nanos) := by
  rw [add?, ofNanos?]
  split
  · next h => exact iff_of_false (Option.some_ne_none _) (not_not_intro h)
  · next h => exact iff_of_true rfl h

/-- The calendar has every instant between two of its own. -/
lemma exists_add?_of_between (lo hi : Instant) (hlo : lo.nanos ≤ t.nanos + d.nanos)
    (hhi : t.nanos + d.nanos ≤ hi.nanos) : ∃ t', t.add? d = some t' ∧ t'.nanos = t.nanos + d.nanos := by
  have hlo' := lo.mem
  have hhi' := hi.mem
  have hin : InCalendar (t.nanos + d.nanos) := ⟨by omega, by omega⟩
  obtain ⟨t', ht'⟩ := Option.ne_none_iff_exists'.mp fun hnone => add?_eq_none_iff.mp hnone hin
  exact ⟨t', ht', add?_eq_some_iff.mp ht'⟩

@[simp] lemma add?_zero (t : Instant) : t.add? .zero = some t := add?_eq_some_iff.mpr (Int.add_zero _).symm

end Instant

/-! ### Instants as a time scale -/

namespace TimeScale

@[simp] lemma le_instant (a b : Instant) : le a b = decide (a ≤ b) := rfl

@[simp] lemma add?_instant (t : Instant) (d : Duration) : add? t d = t.add? d := rfl

@[simp] lemma since_instant (a b : Instant) : since a b = a.since b := rfl

@[simp] lemma latest_instant : (latest : Instant) = .latest := rfl

end TimeScale

namespace Action

@[simp] lemma shift?_zero (a : Action Instant) : a.shift? .zero = some a := by
  rw [shift?, TimeScale.add?_instant, Instant.add?_zero]
  rfl

@[simp] lemma annotate_empty (a : Action Instant) : a.annotate "" = a := by
  rw [annotate, String.append_empty]

end Action

end Totality
