import Totality.Proofs.Replay.Conservation
import Totality.Proofs.Replay.Overtaking

/-!
# Replays that are stopped and resumed

A stop throws away the sleep it ends, and the next leg computes another one from a later reading of the clock. Both
lead to the millisecond at which the action is due. So legs that follow one another without a pause do together what
a single leg without a stop does, unless a stop is noticed at the very end of a sleep: then the action may be over
when the next leg comes to it. Nor does it hold for actions within a leap second, for which the time that is left
depends on whether the clock is still before it.
-/

namespace Totality

namespace Clock

variable {τ : Type} [TimeScale τ]

/-- A sleep ends at the millisecond of a stop, when actions are taken from millisecond `now` on up to that stop. -/
def Coincides (c : Clock τ) (stop : Stop) : Nat → List (Action τ) → Prop
  | _, [] => False
  | now, a :: rest =>
    if c.Late now a.time then c.Coincides stop now rest
    else
      now < c.wake now a.time ∧ stop.ms = c.wake now a.time ∨
        stop.cuts now (c.wake now a.time) = false ∧ c.Coincides stop (c.wake now a.time) rest

instance decidableCoincides (c : Clock τ) (stop : Stop) :
    (now : Nat) → (as : List (Action τ)) → Decidable (c.Coincides stop now as)
  | _, [] => inferInstanceAs (Decidable False)
  | now, a :: rest =>
    have := decidableCoincides c stop now rest
    have := decidableCoincides c stop (c.wake now a.time) rest
    inferInstanceAs (Decidable (if c.Late now a.time then _ else _ ∨ _))

/-- An action that is due at a later millisecond is not over before. -/
lemma not_late_of_lt_due {c : Clock Instant} {t : Instant} {ms : Nat} (h : ms < c.due t) : ¬c.Late ms t :=
  fun hlate => Nat.not_le.mpr h (due_le_of_lt_reading (late_iff.mp hlate))

/-- A sleep that begins later does not have to last longer. -/
lemma Reaches.mono {c : Clock Instant} {t : Instant} {m n : Nat} (h : c.Reaches m t) (hle : m ≤ n) : c.Reaches n t :=
  fun longest hlongest => Nat.le_trans (h longest hlongest) (Nat.add_le_add_right hle _)

/-- A timer without a longest sleep cuts no sleep short. -/
lemma uncut_unbounded (start : Instant) (now : Nat) (as : List (Action Instant)) : (unbounded start).Uncut now as := by
  induction as generalizing now with
  | nil => trivial
  | cons a rest ih => exact ⟨reaches_of_longest_eq_none rfl now a.time, ih _⟩

end Clock

namespace Sequencer

/-! ### One stop -/

/-- Without a stop, it makes no difference from which millisecond of the sleep for the first action the actions are
taken. -/
lemma take_of_lt_due {c : Clock Instant} {now ms : Nat} {a : Action Instant} (hdue : ¬c.Late now a.time)
    (hreach : c.Reaches now a.time) (hnow : now ≤ ms) (hms : ms < c.due a.time) (rest : List (Action Instant)) :
    take c none ms (a :: rest) = take c none now (a :: rest) := by
  have hlater := Clock.not_late_of_lt_due hms
  have hwake : c.wake now a.time = c.due a.time := by
    rw [Clock.wake_eq_max (Clock.not_late_iff.mp hdue) hreach, Nat.max_eq_right (by omega)]
  have hwake' : c.wake ms a.time = c.due a.time := by
    rw [Clock.wake_eq_max (Clock.not_late_iff.mp hlater) (hreach.mono hnow), Nat.max_eq_right (by omega)]
  rw [take_of_due hdue, take_of_due hlater, hwake, hwake']

/-- What a leg leaves, whether it was stopped or not, is taken as if there had been no stop. -/
lemma take_none_eq {c : Clock Instant} {stop : Option Stop} {now : Nat} {as : List (Action Instant)}
    (huncut : c.Uncut now as) (hnow : ∀ s ∈ stop, now ≤ s.ms)
    (hapart : ∀ s ∈ stop, s.first = true → ¬c.Coincides s now as) :
    let left := (take c stop now as).2
    let more := take c none left.now left.pending
    c.Uncut left.now left.pending ∧
      take c none now as = (⟨(take c stop now as).1.taken ++ more.1.taken, more.1.interrupted⟩, more.2) := by
  induction as generalizing now with
  | nil => exact ⟨trivial, rfl⟩
  | cons a rest ih =>
    obtain ⟨hreach, hrest⟩ := huncut
    rcases take_cons_cases c stop now a with hlate | ⟨hdue, ⟨s, hs, hcut⟩ | hcut⟩
    · -- an action that is over moves no clock
      have hmax : max now (c.due a.time) = now :=
        Nat.max_eq_left (Clock.due_le_of_lt_reading (Clock.late_iff.mp hlate))
      rw [hmax] at hrest
      simp only [Clock.Coincides, if_pos hlate] at hapart
      obtain ⟨hleft, htail⟩ := ih hrest hnow hapart
      rw [take_of_late hlate, take_of_late hlate, htail]
      exact ⟨hleft, rfl⟩
    · -- the stop comes before the action is due, so that the next sleep ends where this one would have
      have hwake := Clock.wake_eq_max (Clock.not_late_iff.mp hdue) hreach
      have hms := hnow s hs
      have hbefore : s.ms < c.due a.time := by
        simp only [Clock.Coincides, if_neg hdue, not_or, not_and] at hapart
        simp only [Stop.cuts, decide_eq_true_eq] at hcut
        have hend := hcut.2.resolve_right fun h => (hapart s hs h.1).1 hcut.1 h.2
        omega
      have hleft : c.Uncut s.ms (a :: rest) := by
        rw [Nat.max_eq_right (by omega)] at hrest
        refine ⟨hreach.mono hms, ?_⟩
        rwa [Nat.max_eq_right (by omega)]
      rw [take_of_cut hdue hs hcut]
      exact ⟨hleft, (take_of_lt_due hdue hreach hms hbefore rest).symm⟩
    · have hwake := Clock.wake_eq_max (Clock.not_late_iff.mp hdue) hreach
      have hlater : ∀ s ∈ stop, c.wake now a.time ≤ s.ms := fun s hs =>
        Stop.le_ms_of_not_cuts (hcut s hs) (hnow s hs)
      simp only [Clock.Coincides, if_neg hdue, not_or, not_and] at hapart
      obtain ⟨hleft, htail⟩ := ih (hwake ▸ hrest) hlater fun s hs hfirst => (hapart s hs hfirst).2 (hcut s hs)
      rw [take_of_uncut hdue hcut, take_of_due hdue, htail]
      exact ⟨hleft, rfl⟩

/-! ### Several stops -/

section Stops

variable {τ : Type} [TimeScale τ]

/-- No stop that is noticed before a sleep that ends with it coincides with the end of a sleep. -/
def Apart (s : Sequencer τ) : List Leg → Prop
  | [] => True
  | leg :: legs =>
    (∀ stop ∈ leg.stop? s.clock (s.begins leg), stop.first = true →
      ¬s.clock.Coincides stop (s.begins leg) s.pending) ∧ (s.go leg).2.Apart legs

instance decidableApart : (s : Sequencer τ) → (legs : List Leg) → Decidable (s.Apart legs)
  | _, [] => inferInstanceAs (Decidable True)
  | s, leg :: legs =>
    have := decidableApart (s.go leg).2 legs
    inferInstanceAs (Decidable (_ ∧ _))

/-- The leg that begins at once and runs to the end. -/
def toEnd : Leg := { stopAfter := none }

lemma go_toEnd (s : Sequencer τ) : s.go toEnd = take s.clock none s.now s.pending := rfl

end Stops

/-- What a leg leaves goes on as if there had been no stop. -/
lemma go_toEnd_eq {s : Sequencer Instant} {leg : Leg} (huncut : s.clock.Uncut s.now s.pending) (hpause : leg.pause = 0)
    (hapart : ∀ stop ∈ leg.stop? s.clock (s.begins leg), stop.first = true →
      ¬s.clock.Coincides stop (s.begins leg) s.pending) :
    let left := (s.go leg).2
    left.clock.Uncut left.now left.pending ∧
      s.go toEnd = (⟨(s.go leg).1.taken ++ (left.go toEnd).1.taken, (left.go toEnd).1.interrupted⟩,
        (left.go toEnd).2) := by
  have hbegins : s.begins leg = s.now := by rw [begins, hpause, Nat.add_zero]
  have hnow : ∀ stop ∈ leg.stop? s.clock (s.begins leg), s.begins leg ≤ stop.ms := fun _ => Leg.le_ms_of_mem_stop?
  rw [hbegins] at hnow hapart
  have htake := take_none_eq huncut hnow hapart
  have hclock := s.clock_go leg
  simp only [go_toEnd, hclock]
  simp only [go, hbegins]
  exact htake

/-- The invariant of a replay that is stopped again and again: the legs so far and one to the end do what one leg to
the end does. -/
lemma legs_toEnd_eq {s : Sequencer Instant} {legs : List Leg} (huncut : s.clock.Uncut s.now s.pending)
    (hpause : ∀ leg ∈ legs, leg.pause = 0) (hapart : s.Apart legs) :
    s.processed (legs ++ [toEnd]) = (s.go toEnd).1.taken ∧ s.after (legs ++ [toEnd]) = (s.go toEnd).2 := by
  induction legs generalizing s with
  | nil => exact ⟨List.append_nil _, rfl⟩
  | cons leg legs ih =>
    obtain ⟨hfirst, hrest⟩ := hapart
    obtain ⟨hpause, hpauses⟩ := List.forall_mem_cons.mp hpause
    obtain ⟨hleft, hgo⟩ := go_toEnd_eq huncut hpause hfirst
    obtain ⟨hprocessed, hafter⟩ := ih hleft hpauses hrest
    rw [List.cons_append, processed_cons, after, hprocessed, hafter, hgo]
    exact ⟨rfl, rfl⟩

/-- Whatever the timer, as long as it cuts no sleep short: legs without pauses between them, each up to a stop that does
not coincide with the end of a sleep, and a last one to the end do what one leg to the end does. -/
theorem legs_toEnd_of_uncut {s : Sequencer Instant} {legs : List Leg} (huncut : s.clock.Uncut s.now s.pending)
    (hpause : ∀ leg ∈ legs, leg.pause = 0) (hapart : s.Apart legs) :
    s.fired (legs ++ [toEnd]) = (s.go toEnd).1.fired ∧
      s.processed (legs ++ [toEnd]) = (s.go toEnd).1.taken ∧
      s.skipped (legs ++ [toEnd]) = (s.go toEnd).1.skipped ∧
      s.after (legs ++ [toEnd]) = (s.go toEnd).2 := by
  obtain ⟨hprocessed, hafter⟩ := legs_toEnd_eq huncut hpause hapart
  refine ⟨?_, hprocessed, ?_, hafter⟩
  · rw [fired_eq s _ (s.go toEnd).1.interrupted, hprocessed]
  · rw [skipped_eq, hprocessed, ← Run.skipped_eq_passedOver]

/-- Legs without pauses between them, each up to a stop that does not coincide with the end of a sleep, and a last one
to the end hand over the same actions at the same milliseconds and skip the same actions, in the same order, as one
leg to the end. -/
theorem fired_append_toEnd_eq_fired_go (as : List (Action Instant)) (disabled : List ActionKind) (start : Instant)
    (legs : List Leg) :
    let s := prepare (.ofActions as) disabled (.unbounded start)
    (∀ leg ∈ legs, leg.pause = 0) → s.Apart legs →
      s.fired (legs ++ [toEnd]) = (s.go toEnd).1.fired ∧
      s.processed (legs ++ [toEnd]) = (s.go toEnd).1.taken ∧
      s.skipped (legs ++ [toEnd]) = (s.go toEnd).1.skipped ∧
      s.after (legs ++ [toEnd]) = (s.go toEnd).2 := by
  intro s hpause hapart
  exact legs_toEnd_of_uncut (Clock.uncut_unbounded start 0 s.pending) hpause hapart

/-- Three stops within two sleeps, the last of them at the end of none. -/
theorem fired_chimes_eq_fired_go :
    let s := prepare (.ofActions [chime 2500, chime 2600, chime 5500]) [] (.unbounded default)
    let legs : List Leg := [⟨0, some 1, true⟩, ⟨0, some 1, false⟩, ⟨0, some 2, true⟩]
    s.fired (legs ++ [toEnd]) = (s.go toEnd).1.fired ∧
      (s.go toEnd).1.fired = [(3, chime 2500), (6, chime 5500)] := by
  have hs := prepare_ofActions [chime 2500, chime 2600, chime 5500] (by decide) (.unbounded default)
  have hsame := fired_append_toEnd_eq_fired_go [chime 2500, chime 2600, chime 5500] [] default
    [⟨0, some 1, true⟩, ⟨0, some 1, false⟩, ⟨0, some 2, true⟩]
  rw [hs] at hsame ⊢
  exact ⟨(hsame (by decide) (by decide)).1, by decide⟩

/-- For an action within a leap second a stop makes a difference. The time that is left is first taken with the leap
second, and after the stop, from a reading beyond it, without: then the action is over. With a longest sleep, so does
any stop within a sleep that is cut short. -/
theorem stop_within_sleep_matters :
    let leap := prepare (.ofActions [leapChime]) [] (.unbounded leapEve)
    let far := prepare (.ofActions [chime 1261440000000000]) [] (.starting default)
    (leap.Apart [⟨0, some 2200, false⟩] ∧
        leap.fired [⟨0, some 2200, false⟩, toEnd] = [] ∧
        leap.processed [⟨0, some 2200, false⟩, toEnd] = [(leapChime, .skipped)] ∧
        (leap.go toEnd).1.fired = [(2500, leapChime)]) ∧
      far.Apart [⟨0, some 1000, false⟩] ∧
        far.fired [⟨0, some 1000, false⟩, toEnd] = [(946080001000, chime 1261440000000000)] ∧
        (far.go toEnd).1.fired = [(946080000000, chime 1261440000000000)] := by
  rw [prepare_ofActions [leapChime] (by decide), prepare_ofActions [chime 1261440000000000] (by decide)]
  decide

end Sequencer

end Totality
