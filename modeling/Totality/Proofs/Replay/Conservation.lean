import Mathlib.Tactic.Lemma
import Totality.Proofs.Replay.Sequencer

/-!
# Nothing is lost between the legs of a replay

A leg takes the pending actions from the front and puts back what it did not come to. So at the end of every
leg, the actions taken so far and the pending ones are together the list that the sequencer was prepared with,
and a leg is interrupted exactly when it leaves something pending.
-/

namespace Totality

variable {τ : Type}

/-! ### Counting fates -/

namespace Run

/-- The actions a run took, in the order in which it took them. -/
def actions (r : Run τ) : List (Action τ) := r.taken.map Prod.fst

@[simp] lemma actions_mk_nil (i : Bool) : (⟨[], i⟩ : Run τ).actions = [] := rfl

@[simp] lemma actions_cons (p : Action τ × Fate) (r : Run τ) : (r.cons p).actions = p.1 :: r.actions := rfl

@[simp] lemma interrupted_cons (p : Action τ × Fate) (r : Run τ) : (r.cons p).interrupted = r.interrupted := rfl

/-- The number of actions among some with their fates that were handed over. -/
def handedOver (taken : List (Action τ × Fate)) : Nat := taken.countP fun p => p.2 != .skipped

/-- The number of actions among some with their fates that came too late. -/
def passedOver (taken : List (Action τ × Fate)) : Nat := taken.countP fun p => p.2 == .skipped

lemma dispatched_eq_handedOver (r : Run τ) : r.dispatched = handedOver r.taken := by
  rw [dispatched, fired, List.length_filterMap_eq_countP, handedOver]
  congr 1
  funext ⟨a, fate⟩
  cases fate <;> rfl

lemma skipped_eq_passedOver (r : Run τ) : r.skipped = passedOver r.taken :=
  List.countP_eq_length_filter.symm

/-- Every action that was taken was either handed over or skipped. -/
lemma dispatched_add_skipped (r : Run τ) : r.dispatched + r.skipped = r.taken.length := by
  rw [dispatched_eq_handedOver, skipped_eq_passedOver, handedOver, passedOver,
    List.length_eq_countP_add_countP (fun p : Action τ × Fate => p.2 != .skipped)]
  congr 2
  funext ⟨a, fate⟩
  cases fate <;> rfl

/-! ### One leg -/

/-- What a run does to a list of actions: it takes a first part and leaves the rest, and it is interrupted
exactly when there is a rest. -/
structure Splits (r : Run τ) (before after : List (Action τ)) : Prop where
  append : r.actions ++ after = before
  interrupted_iff : r.interrupted = true ↔ after ≠ []

lemma Splits.cons {r : Run τ} {before after : List (Action τ)} (h : r.Splits before after) (p : Action τ × Fate) :
    (r.cons p).Splits (p.1 :: before) after where
  append := by rw [actions_cons, List.cons_append, h.append]
  interrupted_iff := by rw [interrupted_cons, h.interrupted_iff]

end Run

namespace Sequencer

variable [TimeScale τ]

lemma take_splits (clock : Clock τ) (stop : Option Stop) (now : Nat) (as : List (Action τ)) :
    (take clock stop now as).1.Splits as (take clock stop now as).2.pending := by
  induction as generalizing now with
  | nil => exact ⟨rfl, by simp [take]⟩
  | cons a rest ih =>
    rcases take_cons_cases clock stop now a with hlate | ⟨hdue, ⟨s, hs, hcut⟩ | hcut⟩
    · rw [take_of_late hlate]
      exact (ih now).cons (a, .skipped)
    · rw [take_of_cut hdue hs hcut]
      exact ⟨rfl, by simp⟩
    · rw [take_of_uncut hdue hcut]
      exact (ih _).cons (a, .dispatched _)

@[simp] lemma clock_take (clock : Clock τ) (stop : Option Stop) (now : Nat) (as : List (Action τ)) :
    (take clock stop now as).2.clock = clock := by
  induction as generalizing now with
  | nil => rfl
  | cons a rest ih =>
    rcases take_cons_cases clock stop now a with hlate | ⟨hdue, ⟨s, hs, hcut⟩ | hcut⟩
    · rw [take_of_late hlate, ih]
    · rw [take_of_cut hdue hs hcut]
    · rw [take_of_uncut hdue hcut, ih]

lemma go_splits (s : Sequencer τ) (leg : Leg) : (s.go leg).1.Splits s.pending (s.go leg).2.pending :=
  take_splits ..

@[simp] lemma clock_go (s : Sequencer τ) (leg : Leg) : (s.go leg).2.clock = s.clock := clock_take ..

/-! ### Several legs -/

/-- The sequencer that some legs leave. -/
def after (s : Sequencer τ) : List Leg → Sequencer τ
  | [] => s
  | leg :: legs => (s.go leg).2.after legs

/-- What became of the actions taken in some legs, in the order in which they were taken. -/
def processed (s : Sequencer τ) (legs : List Leg) : List (Action τ × Fate) :=
  (s.legs legs).flatMap fun p => p.1.taken

@[simp] lemma processed_nil (s : Sequencer τ) : s.processed [] = [] := rfl

@[simp] lemma processed_cons (s : Sequencer τ) (leg : Leg) (legs : List Leg) :
    s.processed (leg :: legs) = (s.go leg).1.taken ++ (s.go leg).2.processed legs := rfl

@[simp] lemma clock_after (s : Sequencer τ) (legs : List Leg) : (s.after legs).clock = s.clock := by
  induction legs generalizing s with
  | nil => rfl
  | cons leg legs ih => rw [after, ih, clock_go]

/-- The actions handed over in some legs, with their milliseconds. -/
def fired (s : Sequencer τ) (legs : List Leg) : List (Nat × Action τ) := (s.legs legs).flatMap fun p => p.1.fired

lemma fired_eq (s : Sequencer τ) (legs : List Leg) (i : Bool) :
    s.fired legs = (⟨s.processed legs, i⟩ : Run τ).fired := by
  rw [fired, processed, Run.fired, List.filterMap_flatMap]
  rfl

/-- The number of actions skipped in some legs, as they report it. -/
def skipped (s : Sequencer τ) : List Leg → Nat
  | [] => 0
  | leg :: legs => (s.go leg).1.skipped + (s.go leg).2.skipped legs

lemma skipped_eq (s : Sequencer τ) (legs : List Leg) : s.skipped legs = Run.passedOver (s.processed legs) := by
  induction legs generalizing s with
  | nil => rfl
  | cons leg legs ih =>
    rw [skipped, ih, Run.skipped_eq_passedOver, processed_cons]
    exact List.countP_append.symm

/-- Later legs go on from the sequencer that the earlier ones leave. -/
lemma legs_append (s : Sequencer τ) (earlier later : List Leg) :
    s.legs (earlier ++ later) = s.legs earlier ++ (s.after earlier).legs later := by
  induction earlier generalizing s with
  | nil => rfl
  | cons leg earlier ih => rw [List.cons_append, legs, ih, legs, after, List.cons_append]

/-- The invariant of a replay: what was taken so far and what is pending are what there was to take. -/
lemma processed_append_pending (s : Sequencer τ) (legs : List Leg) :
    (s.processed legs).map Prod.fst ++ (s.after legs).pending = s.pending := by
  induction legs generalizing s with
  | nil => rfl
  | cons leg legs ih =>
    rw [processed_cons, List.map_append, List.append_assoc, after, ih]
    exact (s.go_splits leg).append

/-- After every leg of a replay, the actions taken so far, in the order in which they were taken, and the pending
ones are the scheduled actions. A leg takes from the front of what was pending, what it reports counts what it
took itself, and it reports an interruption exactly when it leaves an action pending. -/
theorem processed_append_pending_eq_enabled (as : List (Action τ)) (disabled : List ActionKind)
    (clock : Clock τ) (earlier : List Leg) (leg : Leg) :
    let first := prepare (.ofActions as) disabled clock
    let before := first.after earlier
    let (run, left) := before.go leg
    first.legs (earlier ++ [leg]) = first.legs earlier ++ [(run, left)] ∧
      (first.processed (earlier ++ [leg])).map Prod.fst ++ left.pending
        = (Sequence.ofActions as).enabled disabled ∧
      first.processed (earlier ++ [leg]) = first.processed earlier ++ run.taken ∧
      before.pending = run.taken.map Prod.fst ++ left.pending ∧
      run.dispatched = Run.handedOver run.taken ∧
      run.skipped = Run.passedOver run.taken ∧
      run.dispatched + run.skipped + left.pending.length = before.pending.length ∧
      (run.interrupted = true ↔ left.pending ≠ []) := by
  intro first before
  have hlegs : first.legs (earlier ++ [leg]) = first.legs earlier ++ [before.go leg] := by
    rw [legs_append]
    rfl
  have htaken : first.processed (earlier ++ [leg]) = first.processed earlier ++ (before.go leg).1.taken := by
    simp only [processed, hlegs, List.flatMap_append, List.flatMap_singleton]
  have hsplit := before.go_splits leg
  have hpending : (first.processed earlier).map Prod.fst ++ before.pending = first.pending :=
    first.processed_append_pending earlier
  have hlength := congrArg List.length hsplit.append
  rw [List.length_append, Run.actions, List.length_map, ← Run.dispatched_add_skipped] at hlength
  refine ⟨hlegs, ?_, htaken, hsplit.append.symm, Run.dispatched_eq_handedOver _,
    Run.skipped_eq_passedOver _, hlength, hsplit.interrupted_iff⟩
  calc (first.processed (earlier ++ [leg])).map Prod.fst ++ (before.go leg).2.pending
      = (first.processed earlier).map Prod.fst ++ ((before.go leg).1.actions ++ (before.go leg).2.pending) := by
        rw [htaken, List.map_append, List.append_assoc]
        rfl
    _ = (first.processed earlier).map Prod.fst ++ before.pending := by rw [hsplit.append]
    _ = (Sequence.ofActions as).enabled disabled := hpending

end Sequencer

end Totality
