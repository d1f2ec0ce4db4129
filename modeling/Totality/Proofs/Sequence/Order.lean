import Mathlib.Data.List.Forall2
import Mathlib.Tactic.Lemma
import Totality.Sequence

/-!
# The order of a sequence

A sequence is known by its list of actions, and making a sequence of a list that is in order changes nothing. Lists that
are compared in the same way are sorted in the same way.
-/

namespace Totality

/-- A stable sort keeps two lists in step if it compares their elements alike. -/
lemma forall₂_mergeSort {α β : Type} {R : α → β → Prop} {r : α → α → Bool} {s : β → β → Bool}
    (hrs : ∀ a b a' b', R a b → R a' b' → r a a' = s b b') {as : List α} {bs : List β} (h : List.Forall₂ R as bs) :
    List.Forall₂ R (as.mergeSort r) (bs.mergeSort s) := by
  have hfst : (as.zip bs).map Prod.fst = as := List.map_fst_zip (Nat.le_of_eq h.length_eq)
  have hsnd : (as.zip bs).map Prod.snd = bs := List.map_snd_zip (Nat.le_of_eq h.length_eq.symm)
  have hpairs : ∀ p ∈ as.zip bs, R p.1 p.2 := fun p hp => List.forall₂_zip h hp
  generalize as.zip bs = pairs at *
  subst hfst hsnd
  -- both sorts move the pairs as the first one does
  have hsorted : (pairs.map Prod.snd).mergeSort s = (pairs.mergeSort fun p q => r p.1 q.1).map Prod.snd := by
    refine (List.map_mergeSort fun p hp q hq => ?_).symm
    exact hrs _ _ _ _ (hpairs p hp) (hpairs q hq)
  rw [hsorted, ← List.map_mergeSort (r := fun p q => r p.1 q.1) fun p _ q _ => rfl]
  rw [List.forall₂_map_left_iff, List.forall₂_map_right_iff, List.forall₂_same]
  intro p hp
  exact hpairs p (List.mem_mergeSort.mp hp)

variable {τ : Type} [TimeScale τ]

namespace Action

lemma due_iff {a b : Action Instant} : a.due b ↔ a.time ≤ b.time := decide_eq_true_iff

lemma due_trans (a b c : Action τ) : a.due b → b.due c → a.due c := TimeScale.le_trans a.time b.time c.time

lemma due_total (a b : Action τ) : a.due b || b.due a := TimeScale.le_total a.time b.time

end Action

namespace Sequence

lemma ext_actions {s t : Sequence τ} (h : s.actions = t.actions) : s = t := by
  cases s
  cases t
  simp_all

lemma actions_ofActions {as : List (Action τ)} (h : as.Pairwise fun a b => a.due b) :
    (ofActions as).actions = as :=
  List.mergeSort_of_pairwise h

/-- Sorting what is sorted keeps every action in its place. -/
@[simp] lemma ofActions_actions (s : Sequence τ) : ofActions s.actions = s :=
  ext_actions (actions_ofActions s.sorted)

end Sequence

end Totality
