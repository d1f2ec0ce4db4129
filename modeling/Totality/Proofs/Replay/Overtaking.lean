import Totality.Proofs.Calendar.TimeScale
import Totality.Proofs.Replay.Clock
import Totality.Proofs.Replay.Conservation
import Totality.Proofs.Sequence.Order
import Totality.Replay.Preview

/-!
# Which actions a replay skips

The preview of a replay marks the actions that are over when it begins. The replay itself looks at every action
anew, after the sleep for the one before it, and a sleep ends at a whole millisecond. So it skips an action, too,
whose instant is not later than that of an earlier one by the fraction of a millisecond that the sleep for the
earlier one takes too long. Otherwise the replay and its preview agree.
-/

namespace Totality

/-- The actions a run took, with a mark whether it skipped them. -/
def Run.marks (r : Run Instant) : List (Action Instant × Bool) := r.taken.map fun p => (p.1, p.2 == .skipped)

@[simp] lemma Run.marks_cons (p : Action Instant × Fate) (r : Run Instant) :
    (r.cons p).marks = (p.1, p.2 == .skipped) :: r.marks := rfl

namespace Clock

/-- The sleep until `a` is due lasts beyond the instant of `b`. -/
def Overtakes (c : Clock Instant) (a b : Action Instant) : Prop := b.time < c.reading (c.due a.time)

instance (c : Clock Instant) (a b : Action Instant) : Decidable (c.Overtakes a b) :=
  inferInstanceAs (Decidable (_ < _))

/-- The marks of actions that are taken from millisecond `now` on, without a stop. -/
def marksFrom (c : Clock Instant) : Nat → List (Action Instant) → List (Action Instant × Bool)
  | _, [] => []
  | now, a :: rest => (a, decide (a.time < c.reading now)) :: marksFrom c (max now (c.due a.time)) rest

/-- No sleep is cut short when actions are taken from millisecond `now` on, without a stop. -/
def Uncut (c : Clock Instant) : Nat → List (Action Instant) → Prop
  | _, [] => True
  | now, a :: rest => c.Reaches now a.time ∧ c.Uncut (max now (c.due a.time)) rest

instance decidableUncut (c : Clock Instant) : (now : Nat) → (as : List (Action Instant)) → Decidable (c.Uncut now as)
  | _, [] => inferInstanceAs (Decidable True)
  | now, a :: rest =>
    have := decidableUncut c (max now (c.due a.time)) rest
    inferInstanceAs (Decidable (_ ∧ _))

lemma marks_take {c : Clock Instant} {now : Nat} {as : List (Action Instant)} (h : c.Uncut now as) :
    (Sequencer.take c none now as).1.marks = c.marksFrom now as := by
  induction as generalizing now with
  | nil => rfl
  | cons a rest ih =>
    obtain ⟨hreach, hrest⟩ := h
    rw [marksFrom]
    by_cases hlate : c.Late now a.time
    · -- an action that is over moves no clock
      have hover := late_iff.mp hlate
      have hnow : max now (c.due a.time) = now := Nat.max_eq_left (due_le_of_lt_reading hover)
      rw [hnow] at hrest ⊢
      rw [Sequencer.take_of_late hlate, Run.marks_cons, ih hrest, decide_eq_true hover]
      rfl
    · have hwake := wake_eq_max (not_late_iff.mp hlate) hreach
      rw [Sequencer.take_of_due hlate, hwake, Run.marks_cons, ih hrest, decide_eq_false (mt late_iff.mpr hlate)]
      rfl

/-- Going on from a later millisecond than the one for which the marks are made, they stay right for an action
that is over in the end only if it is over at the beginning. -/
lemma marksFrom_eq_marksAt_iff {c : Clock Instant} {began now : Nat} (h : began ≤ now) (as : List (Action Instant)) :
    c.marksFrom now as = Preview.marksAt (c.reading began) as ↔
      (∀ b ∈ as, b.time < c.reading now → b.time < c.reading began) ∧
        as.Pairwise fun a b => c.Overtakes a b → b.time < c.reading began := by
  induction as generalizing now with
  | nil => simp [marksFrom, Preview.marksAt]
  | cons a rest ih =>
    have hhead : decide (a.time < c.reading now) = decide (a.time < c.reading began) ↔
        (a.time < c.reading now → a.time < c.reading began) := by
      rw [decide_eq_decide]
      exact ⟨Iff.mp, fun ha => ⟨ha, fun hlate => Instant.lt_of_lt_of_le hlate (c.reading_mono h)⟩⟩
    have htail := @ih (max now (c.due a.time)) (Nat.le_trans h (Nat.le_max_left ..))
    -- for a later action, the sleep for `a` adds one more cause to come too late
    simp only [lt_reading_max_iff, or_imp, forall_and] at htail
    simp only [marksFrom, Preview.marksAt, List.map_cons, List.cons.injEq, Prod.mk.injEq, true_and,
      List.forall_mem_cons, List.pairwise_cons] at htail ⊢
    rw [hhead, htail, and_assoc, and_assoc]
    rfl

end Clock

namespace Sequencer

/-- A leg without a stop of which no sleep is cut short skips exactly the actions that are over when it begins, as
the preview marks them, and hands over the others, if and only if no action that is still due then is overtaken
by an earlier one. -/
theorem marks_go_eq_marksAt_iff (as : List (Action Instant)) (disabled : List ActionKind) (c : Clock Instant)
    (earlier : List Leg) (pause : Nat) (stopFirst : Bool) :
    let s := (prepare (.ofActions as) disabled c).after earlier
    let leg : Leg := ⟨pause, none, stopFirst⟩
    let clock := s.clock
    let began := clock.reading (s.begins leg)
    clock.Uncut (s.begins leg) s.pending →
      ((s.go leg).1.marks = Preview.marksAt began s.pending ↔
        s.pending.Pairwise fun a b => clock.Overtakes a b → b.time < began) := by
  intro s leg clock began huncut
  have htaken : (s.go leg).1.marks = clock.marksFrom (s.begins leg) s.pending := Clock.marks_take huncut
  rw [htaken, Clock.marksFrom_eq_marksAt_iff (Nat.le_refl _)]
  exact and_iff_right fun _ _ hlate => hlate

/-- A sound that is played some microseconds after the start of 1970. -/
def chime (micros : Nat) : Action Instant :=
  ⟨(default : Instant).add? (.ofMicros micros) |>.getD default, .play "chime", ""⟩

lemma prepare_ofActions {τ : Type} [TimeScale τ] (as : List (Action τ)) (h : as.Pairwise fun a b => a.due b)
    (clock : Clock τ) : prepare (.ofActions as) [] clock = ⟨clock, 0, as⟩ := by
  rw [prepare, Sequence.enabled, Sequence.actions_ofActions h]
  simp

/-- A sound that is played in the middle of a leap second. -/
def leapChime : Action Stamp := ⟨.leapMiddle, .play "chime", ""⟩

/-- What a clock shows two seconds and a half before. -/
def leapEve : Stamp := (chime 58000000).time.stamp

/-- Two sounds a millisecond apart are both played. -/
theorem marks_go_apart :
    let s := prepare (.ofActions [chime 500, chime 1500]) [] (.starting default)
    (s.go ⟨0, none, false⟩).1.marks = Preview.marksAt default s.pending := by
  have hs := prepare_ofActions [chime 500, chime 1500] (by decide) (.starting default)
  refine (marks_go_eq_marksAt_iff [chime 500, chime 1500] [] (.starting default) [] 0 false ?_).mpr ?_
  · rw [hs]
    decide
  · rw [hs]
    decide

/-- Of two sounds for the same instant only the first is played, though the preview marks neither. -/
theorem marks_go_twins :
    let s := prepare (.ofActions [chime 500, chime 500]) [] (.starting default)
    (s.go ⟨0, none, false⟩).1.marks = [(chime 500, false), (chime 500, true)] ∧
      Preview.marksAt default s.pending = [(chime 500, false), (chime 500, false)] := by
  rw [prepare_ofActions [chime 500, chime 500] (by decide) (.starting default)]
  decide

end Sequencer

end Totality
