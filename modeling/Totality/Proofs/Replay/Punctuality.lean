import Totality.Proofs.Replay.Clock
import Totality.Proofs.Replay.Conservation
import Totality.Proofs.Replay.Overtaking

/-!
# Whether actions are handed over in time

Whenever a replay comes to an action, it skips the action if that is over, leaves it pending if a stop ends the
sleep for it, and hands it over otherwise. A sleep that is not cut short ends within the first millisecond from the
instant of its action on. Time does not run backwards, so that what is handed over later has a later millisecond.
Only a sleep for an action within a leap second can end later, by a second.
-/

namespace Totality

/-- A moment at which a replay comes to an action, and what becomes of the action then; nothing if a stop leaves it
pending. -/
structure Visit (τ : Type) where
  reached : Nat
  action : Action τ
  fate : Option Fate

namespace Visit

variable {τ : Type}

/-- The millisecond from which a replay goes on, after an action that it came to at millisecond `now`. -/
def next (now : Nat) : Fate → Nat
  | .skipped => now
  | .dispatched ms => ms

/-- The visits of a run from millisecond `now` on, that took some actions and left another in hand, if any. -/
def ofRun (left : Option (Action τ)) : Nat → List (Action τ × Fate) → List (Visit τ)
  | now, [] => left.toList.map fun a => ⟨now, a, none⟩
  | now, (a, fate) :: rest => ⟨now, a, some fate⟩ :: ofRun left (next now fate) rest

/-- An action is skipped exactly when it is over as the replay comes to it. It is handed over when the clock has
reached its instant, and less than a millisecond later. -/
structure Punctual (c : Clock Instant) (v : Visit Instant) : Prop where
  skipped_iff : v.fate = some .skipped ↔ v.action.time < c.reading v.reached
  on_time : ∀ ms, v.fate = some (.dispatched ms) →
    v.action.time ≤ c.reading ms ∧ (c.reading ms).nanos < v.action.time.nanos + milliNanos

end Visit

namespace Clock

/-- When an instant that was not over before is due, it is not over by a millisecond. -/
lemma reading_max_due_lt {c : Clock Instant} {now : Nat} {t : Instant} (h : c.reading now ≤ t) :
    (c.reading (max now (c.due t))).nanos < t.nanos + milliNanos := by
  rw [Instant.le_def] at h
  rw [nanos_reading] at *
  simp only [due, millisToCover, Instant.since, milliNanos] at *
  omega

lemma le_wake {τ : Type} [TimeScale τ] (c : Clock τ) (now : Nat) (t : τ) : now ≤ c.wake now t := Nat.le_add_right ..

end Clock

namespace Sequencer

/-! ### What a replay comes to -/

section Visits

variable {τ : Type}

lemma filterMap_ofRun (left : Option (Action τ)) (now : Nat) (taken : List (Action τ × Fate)) :
    ((Visit.ofRun left now taken).filterMap fun v => v.fate.map fun fate => (v.action, fate)) = taken := by
  induction taken generalizing now with
  | nil => cases left <;> rfl
  | cons p taken ih =>
    obtain ⟨a, fate⟩ := p
    simp only [Visit.ofRun, List.filterMap_cons, Option.map_some, ih]

variable [TimeScale τ]

/-- The visits of some legs, in order. -/
def visits (s : Sequencer τ) : List Leg → List (Visit τ)
  | [] => []
  | leg :: legs =>
    Visit.ofRun (s.go leg).2.pending.head? (s.begins leg) (s.go leg).1.taken ++ (s.go leg).2.visits legs

/-- The visits that do not leave an action pending are those of the actions taken. -/
lemma filterMap_visits (s : Sequencer τ) (legs : List Leg) :
    ((s.visits legs).filterMap fun v => v.fate.map fun fate => (v.action, fate)) = s.processed legs := by
  induction legs generalizing s with
  | nil => rfl
  | cons leg legs ih => rw [visits, List.filterMap_append, filterMap_ofRun, ih, processed_cons]

end Visits

lemma punctual_take (c : Clock Instant) (stop : Option Stop) (now : Nat) (as : List (Action Instant)) :
    let left := (take c stop now as).2
    ∀ v ∈ Visit.ofRun left.pending.head? now (take c stop now as).1.taken,
      c.Reaches v.reached v.action.time → v.Punctual c := by
  induction as generalizing now with
  | nil => exact List.forall_mem_nil _
  | cons a rest ih =>
    rcases take_cons_cases c stop now a with hlate | ⟨hdue, ⟨s, hs, hcut⟩ | hcut⟩
    · rw [take_of_late hlate]
      refine List.forall_mem_cons.mpr ⟨fun _ => ⟨?_, nofun⟩, ih now⟩
      exact iff_of_true rfl (Clock.late_iff.mp hlate)
    · rw [take_of_cut hdue hs hcut]
      refine List.forall_mem_singleton.mpr fun _ => ⟨?_, nofun⟩
      exact iff_of_false nofun (mt Clock.late_iff.mpr hdue)
    · rw [take_of_uncut hdue hcut]
      refine List.forall_mem_cons.mpr ⟨fun hreach => ⟨?_, ?_⟩, ih _⟩
      · exact iff_of_false nofun (mt Clock.late_iff.mpr hdue)
      · rintro ms ⟨⟩
        have hnot := Clock.not_late_iff.mp hdue
        rw [Clock.wake_eq_max hnot hreach]
        exact ⟨Int.le_trans (c.le_reading_due a.time) (c.reading_mono (Nat.le_max_right ..)),
          Clock.reading_max_due_lt hnot⟩

/-- Whatever the timer, every visit is punctual from which a sleep would not be cut short. -/
theorem punctual_of_reaches (s : Sequencer Instant) (legs : List Leg) :
    ∀ v ∈ s.visits legs, s.clock.Reaches v.reached v.action.time → v.Punctual s.clock := by
  induction legs generalizing s with
  | nil => exact List.forall_mem_nil _
  | cons leg legs ih =>
    have hrest := ih (s.go leg).2
    rw [clock_go] at hrest
    exact List.forall_mem_append.mpr ⟨punctual_take s.clock _ _ s.pending, hrest⟩

/-! ### The order of time -/

section Order

variable {τ : Type}

/-- What is handed over from one millisecond to another, in the order of time. -/
structure InOrder (first last : Nat) (fired : List (Nat × Action τ)) : Prop where
  le : first ≤ last
  mem : ∀ p ∈ fired, first ≤ p.1 ∧ p.1 ≤ last
  pairwise : fired.Pairwise fun p q => p.1 ≤ q.1

lemma InOrder.nil {first last : Nat} (h : first ≤ last) : InOrder first last ([] : List (Nat × Action τ)) :=
  ⟨h, List.forall_mem_nil _, .nil⟩

lemma InOrder.append {first middle last : Nat} {xs ys : List (Nat × Action τ)} (hx : InOrder first middle xs)
    (hy : InOrder middle last ys) : InOrder first last (xs ++ ys) where
  le := Nat.le_trans hx.le hy.le
  mem := List.forall_mem_append.mpr
    ⟨fun p hp => ⟨(hx.mem p hp).1, Nat.le_trans (hx.mem p hp).2 hy.le⟩,
      fun p hp => ⟨Nat.le_trans hx.le (hy.mem p hp).1, (hy.mem p hp).2⟩⟩
  pairwise := List.pairwise_append.mpr
    ⟨hx.pairwise, hy.pairwise, fun p hp q hq => Nat.le_trans (hx.mem p hp).2 (hy.mem q hq).1⟩

variable [TimeScale τ]

lemma inOrder_take {c : Clock τ} {stop : Option Stop} {now : Nat} (hnow : ∀ s ∈ stop, now ≤ s.ms)
    (as : List (Action τ)) : InOrder now (take c stop now as).2.now (take c stop now as).1.fired := by
  induction as generalizing now with
  | nil => exact .nil (Nat.le_refl now)
  | cons a rest ih =>
    rcases take_cons_cases c stop now a with hlate | ⟨hdue, ⟨s, hs, hcut⟩ | hcut⟩
    · rw [take_of_late hlate]
      exact ih hnow
    · rw [take_of_cut hdue hs hcut]
      exact .nil (hnow s hs)
    · have hfirst : InOrder now (c.wake now a.time) [(c.wake now a.time, a)] :=
        ⟨c.le_wake now a.time, by simp [c.le_wake now a.time], List.pairwise_singleton ..⟩
      rw [take_of_uncut hdue hcut]
      exact hfirst.append (ih fun s hs => Stop.le_ms_of_not_cuts (hcut s hs) (hnow s hs))

lemma inOrder_fired (s : Sequencer τ) (legs : List Leg) : InOrder s.now (s.after legs).now (s.fired legs) := by
  induction legs generalizing s with
  | nil => exact .nil (Nat.le_refl _)
  | cons leg legs ih =>
    have hpause : InOrder s.now (s.begins leg) ([] : List (Nat × Action τ)) := .nil (Nat.le_add_right ..)
    have hgo : InOrder (s.begins leg) (s.go leg).2.now (s.go leg).1.fired :=
      inOrder_take (fun _ => Leg.le_ms_of_mem_stop?) s.pending
    exact (hpause.append hgo).append (ih (s.go leg).2)

end Order

/-- Whatever the legs of a replay, every visit to an action is punctual: an action that is over is skipped and not
handed over, then or later, since every action taken is taken once; and one that is handed over is less than a
millisecond late. What is handed over comes in the order of time, within a leg and from one leg to the next. -/
theorem visits_punctual_and_fired_pairwise (as : List (Action Instant)) (disabled : List ActionKind) (start : Instant)
    (legs : List Leg) :
    let s := prepare (.ofActions as) disabled (.unbounded start)
    (∀ v ∈ s.visits legs, v.Punctual s.clock) ∧
      ((s.visits legs).filterMap fun v => v.fate.map fun fate => (v.action, fate)) = s.processed legs ∧
      (s.processed legs).map Prod.fst ++ (s.after legs).pending = (Sequence.ofActions as).enabled disabled ∧
      (s.fired legs).Pairwise fun p q => p.1 ≤ q.1 ∧ s.clock.reading p.1 ≤ s.clock.reading q.1 := by
  intro s
  have hreaches : ∀ v : Visit Instant, s.clock.Reaches v.reached v.action.time := fun v =>
    Clock.reaches_of_longest_eq_none rfl v.reached v.action.time
  refine ⟨fun v hv => s.punctual_of_reaches legs v hv (hreaches v), s.filterMap_visits legs,
    s.processed_append_pending legs, ?_⟩
  exact (s.inOrder_fired legs).pairwise.imp fun h => ⟨h, s.clock.reading_mono h⟩

/-- The first sound is played within its millisecond; the second is over by then, and the third after the pause. -/
theorem visits_chimes_punctual :
    let s := prepare (.ofActions [chime 500, chime 700, chime 2500, chime 9000]) [] (.unbounded default)
    let legs : List Leg := [⟨0, some 2, false⟩, ⟨5, none, false⟩]
    s.visits legs = [⟨0, chime 500, some (.dispatched 1)⟩, ⟨1, chime 700, some .skipped⟩, ⟨1, chime 2500, none⟩,
        ⟨7, chime 2500, some .skipped⟩, ⟨7, chime 9000, some (.dispatched 9)⟩] ∧
      (chime 500).time ≤ s.clock.reading 1 ∧ (s.clock.reading 1).nanos < (chime 500).time.nanos + milliNanos := by
  have hs := prepare_ofActions [chime 500, chime 700, chime 2500, chime 9000] (by decide) (.unbounded default)
  have hvisits := (visits_punctual_and_fired_pairwise [chime 500, chime 700, chime 2500, chime 9000] [] default
    [⟨0, some 2, false⟩, ⟨5, none, false⟩]).1
  rw [hs] at hvisits ⊢
  refine ⟨rfl, (hvisits ⟨0, chime 500, some (.dispatched 1)⟩ ?_).on_time 1 rfl⟩
  exact List.mem_cons_self

/-- An action within a leap second is handed over a second too late: the sleep for it counts the leap second, and the
reading of the clock behind it does not. With a longest sleep, an action further away is handed over too early. -/
theorem handed_over_out_of_time :
    let leap := prepare (.ofActions [leapChime]) [] (.unbounded leapEve)
    let far := prepare (.ofActions [chime 1261440000000000]) [] (.starting default)
    (leap.visits [⟨0, none, false⟩] = [⟨0, leapChime, some (.dispatched 2500)⟩] ∧
        (TimeScale.since (leap.clock.reading 2500) leapChime.time).nanos = 1000000000) ∧
      far.visits [⟨0, none, false⟩] = [⟨0, chime 1261440000000000, some (.dispatched 946080000000)⟩] ∧
        far.clock.reading 946080000000 < (chime 1261440000000000).time := by
  rw [prepare_ofActions [leapChime] (by decide), prepare_ofActions [chime 1261440000000000] (by decide)]
  exact ⟨⟨rfl, by decide⟩, rfl, by decide⟩

end Sequencer

end Totality
