import Mathlib.Tactic.Lemma
import Totality.Replay.Sequencer

/-!
# How a leg takes its actions

What becomes of the first action depends on three things: whether it is late, and if not, whether there is a stop
that ends the sleep for it.
-/

namespace Totality

/-- A sleep that a stop does not end is over before the stop comes. -/
lemma Stop.le_ms_of_not_cuts {s : Stop} {now wake : Nat} (h : s.cuts now wake = false) (hnow : now ≤ s.ms) :
    wake ≤ s.ms := by
  simp only [cuts, decide_eq_false_iff_not] at h
  omega

/-- The stop of a leg comes no earlier than the leg begins. -/
lemma Leg.le_ms_of_mem_stop? {τ : Type} {leg : Leg} {clock : Clock τ} {began : Nat} {s : Stop}
    (h : s ∈ leg.stop? clock began) : began ≤ s.ms := by
  obtain ⟨ms, -, rfl⟩ := Option.map_eq_some_iff.mp h
  exact Nat.le_add_right ..

namespace Sequencer

variable {τ : Type} [TimeScale τ] {clock : Clock τ} {stop : Option Stop} {now : Nat} {a : Action τ}

lemma take_of_late (h : clock.Late now a.time) (rest : List (Action τ)) :
    take clock stop now (a :: rest) =
      ((take clock stop now rest).1.cons (a, .skipped), (take clock stop now rest).2) := by
  simp only [take, if_pos h]

lemma take_of_cut (h : ¬clock.Late now a.time) {s : Stop} (hs : s ∈ stop)
    (hcut : s.cuts now (clock.wake now a.time) = true) (rest : List (Action τ)) :
    take clock stop now (a :: rest) = (⟨[], true⟩, ⟨clock, s.ms, a :: rest⟩) := by
  have hsome : (stop.filter fun s => s.cuts now (clock.wake now a.time)) = some s :=
    Option.filter_eq_some_iff.mpr ⟨hs, hcut⟩
  simp only [take, if_neg h, hsome]

lemma take_of_uncut (h : ¬clock.Late now a.time) (hcut : ∀ s ∈ stop, s.cuts now (clock.wake now a.time) = false)
    (rest : List (Action τ)) :
    take clock stop now (a :: rest) =
      ((take clock stop (clock.wake now a.time) rest).1.cons (a, .dispatched (clock.wake now a.time)),
        (take clock stop (clock.wake now a.time) rest).2) := by
  have hnone : (stop.filter fun s => s.cuts now (clock.wake now a.time)) = none := by
    refine Option.filter_eq_none_iff.mpr fun s hs => ?_
    rw [hcut s hs]
    exact Bool.false_ne_true
  simp only [take, if_neg h, hnone]

/-- Without a stop, every action that is not late is handed over. -/
lemma take_of_due (h : ¬clock.Late now a.time) (rest : List (Action τ)) :
    take clock none now (a :: rest) =
      ((take clock none (clock.wake now a.time) rest).1.cons (a, .dispatched (clock.wake now a.time)),
        (take clock none (clock.wake now a.time) rest).2) :=
  take_of_uncut h (fun _ hs => absurd hs (Option.not_mem_none _)) rest

/-- What can happen to the first action: it is skipped, put back, or handed over. -/
lemma take_cons_cases (clock : Clock τ) (stop : Option Stop) (now : Nat) (a : Action τ) :
    clock.Late now a.time ∨
      ¬clock.Late now a.time ∧
        ((∃ s ∈ stop, s.cuts now (clock.wake now a.time) = true) ∨
          ∀ s ∈ stop, s.cuts now (clock.wake now a.time) = false) := by
  by_cases h : clock.Late now a.time
  · exact Or.inl h
  · refine Or.inr ⟨h, ?_⟩
    cases stop with
    | none => exact Or.inr nofun
    | some s =>
      cases hs : s.cuts now (clock.wake now a.time) with
      | true => exact Or.inl ⟨s, rfl, hs⟩
      | false => exact Or.inr fun _ h => Option.some.inj h ▸ hs

end Sequencer

end Totality
