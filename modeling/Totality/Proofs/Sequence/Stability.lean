import Mathlib.Tactic.Lemma
import Totality.Proofs.Calendar.Instant
import Totality.Proofs.Sequence.Order

/-!
# Stability of sequences

A sequence is known by what it holds at each instant, in order there. The sequence of a list holds at each instant what
the list holds, so it makes no difference whether actions are left out before or after the sort, nor whether a part
of the list was sorted already. The main statement is `ofActions_stable`.
-/

namespace Totality

namespace Action

/-- The actions of a list that are due at an instant, in the order of the list. -/
def dueAt (t : Instant) (as : List (Action Instant)) : List (Action Instant) := as.filter fun a => decide (a.time = t)

lemma due_of_time_eq {a b : Action Instant} (h : a.time = b.time) : a.due b := by
  rw [due_iff, h]
  exact Int.le_refl _

lemma time_eq_of_due_of_due {a b : Action Instant} (h : a.due b) (h' : b.due a) : a.time = b.time :=
  Instant.ext_nanos (Int.le_antisymm (due_iff.mp h) (due_iff.mp h'))

variable {t : Instant} {a : Action Instant} {as bs : List (Action Instant)}

lemma mem_dueAt : a ∈ dueAt t as ↔ a ∈ as ∧ a.time = t := by
  rw [dueAt, List.mem_filter, decide_eq_true_iff]

lemma dueAt_cons_of_eq (h : a.time = t) : dueAt t (a :: as) = a :: dueAt t as :=
  List.filter_cons_of_pos (decide_eq_true h)

lemma dueAt_cons_of_ne (h : a.time ≠ t) : dueAt t (a :: as) = dueAt t as :=
  List.filter_cons_of_neg (by simpa using h)

@[simp] lemma dueAt_append (t : Instant) (as bs : List (Action Instant)) :
    dueAt t (as ++ bs) = dueAt t as ++ dueAt t bs :=
  List.filter_append ..

lemma dueAt_filter (t : Instant) (p : Action Instant → Bool) (as : List (Action Instant)) :
    dueAt t (as.filter p) = (dueAt t as).filter p := by
  rw [dueAt, dueAt, List.filter_filter, List.filter_filter]
  exact List.filter_congr fun a _ => Bool.and_comm ..

lemma dueAt_dueAt (t : Instant) (as : List (Action Instant)) : dueAt t (dueAt t as) = dueAt t as := by
  rw [dueAt, dueAt, List.filter_filter]
  exact List.filter_congr fun a _ => Bool.and_self _

/-- What is due at one instant is in order, however it is arranged. -/
lemma pairwise_dueAt (t : Instant) (as : List (Action Instant)) : (dueAt t as).Pairwise fun a b => a.due b := by
  rw [List.pairwise_iff_forall_sublist]
  intro a b hsub
  have ha := (mem_dueAt.mp (hsub.subset (by simp : a ∈ [a, b]))).2
  have hb := (mem_dueAt.mp (hsub.subset (by simp : b ∈ [a, b]))).2
  exact due_of_time_eq (ha.trans hb.symm)

/-- The head of a list in order may stand before whatever is due in it. -/
lemma head_due {b : Action Instant} (h : (b :: bs).Pairwise fun a b => a.due b) (ha : a ∈ b :: bs) : b.due a := by
  rcases List.mem_cons.mp ha with rfl | ha
  · exact due_of_time_eq rfl
  · exact List.rel_of_pairwise_cons h ha

/-- Lists in order are equal if they hold the same at each instant. -/
lemma eq_of_forall_dueAt_eq (has : as.Pairwise fun a b => a.due b) (hbs : bs.Pairwise fun a b => a.due b)
    (h : ∀ t, dueAt t as = dueAt t bs) : as = bs := by
  induction as generalizing bs with
  | nil =>
    cases bs with
    | nil => rfl
    | cons b bs =>
      have hb := h b.time
      rw [dueAt_cons_of_eq rfl] at hb
      cases hb
  | cons a as ih =>
    cases bs with
    | nil =>
      have ha := h a.time
      rw [dueAt_cons_of_eq rfl] at ha
      cases ha
    | cons b bs =>
      have hab : a ∈ b :: bs := (mem_dueAt.mp (h a.time ▸ mem_dueAt.mpr ⟨List.mem_cons_self, rfl⟩)).1
      have hba : b ∈ a :: as := (mem_dueAt.mp ((h b.time).symm ▸ mem_dueAt.mpr ⟨List.mem_cons_self, rfl⟩)).1
      -- each head may stand before the other, so both lists begin at the same instant
      have htime : a.time = b.time := time_eq_of_due_of_due (head_due has hba) (head_due hbs hab)
      obtain ⟨rfl, -⟩ : a = b ∧ dueAt a.time as = dueAt a.time bs := by
        have hheads := h a.time
        rw [dueAt_cons_of_eq rfl, dueAt_cons_of_eq htime.symm] at hheads
        exact List.cons.inj hheads
      rw [ih has.of_cons hbs.of_cons]
      intro t
      have ht := h t
      by_cases hta : a.time = t
      · rw [dueAt_cons_of_eq hta, dueAt_cons_of_eq hta] at ht
        exact (List.cons.inj ht).2
      · rwa [dueAt_cons_of_ne hta, dueAt_cons_of_ne hta] at ht

end Action

namespace Sequence

open Totality.Action

variable {as bs : List (Action Instant)}

/-- Sorting does not rearrange what is due at one instant. -/
@[simp] lemma dueAt_ofActions (t : Instant) (as : List (Action Instant)) :
    dueAt t (ofActions as).actions = dueAt t as := by
  have hperm : (dueAt t (ofActions as).actions).Perm (dueAt t as) := (List.mergeSort_perm as due).filter _
  have hsub : (dueAt t as).Sublist (ofActions as).actions :=
    List.sublist_mergeSort due_trans due_total (pairwise_dueAt t as) List.filter_sublist
  have hdue : (dueAt t as).Sublist (dueAt t (ofActions as).actions) := by
    rw [← dueAt_dueAt]
    exact hsub.filter _
  exact (hdue.eq_of_length hperm.length_eq.symm).symm

/-- A list in order is the sequence of every list that holds the same at each instant. -/
lemma actions_ofActions_eq (hbs : bs.Pairwise fun a b => a.due b) (h : ∀ t, dueAt t as = dueAt t bs) :
    (ofActions as).actions = bs := by
  refine eq_of_forall_dueAt_eq (ofActions as).sorted hbs fun t => ?_
  rw [dueAt_ofActions, h]

/-- Two lists make the same sequence if and only if they hold the same at each instant. -/
lemma ofActions_eq_iff : ofActions as = ofActions bs ↔ ∀ t, dueAt t as = dueAt t bs := by
  constructor
  · intro h t
    rw [← dueAt_ofActions, h, dueAt_ofActions]
  · intro h
    refine ext_actions (actions_ofActions_eq (ofActions bs).sorted fun t => ?_)
    rw [dueAt_ofActions, h]

/-- Parts that are sorted on their own are sorted together like the lists they were made of. -/
lemma ofActions_append_actions (as bs : List (Action Instant)) :
    ofActions ((ofActions as).actions ++ (ofActions bs).actions) = ofActions (as ++ bs) := by
  rw [ofActions_eq_iff]
  intro t
  simp

/-- The sequence of a list holds the actions of the list in the order of time, those of one instant in the order of the
list. Leaving out the disabled kinds and then sorting is the same as sorting and then leaving them out, and sorting
again with more actions behind is the same as sorting once. -/
theorem ofActions_stable (as bs : List (Action Instant)) (disabled : List ActionKind) :
    ((ofActions as).actions.Perm as ∧ (ofActions as).actions.Pairwise (fun a b => a.time ≤ b.time) ∧
        ∀ t, dueAt t (ofActions as).actions = dueAt t as) ∧
      (ofActions as).enabled disabled = (ofActions (as.filter fun a => a.kind ∉ disabled)).actions ∧
      ofActions ((ofActions as).actions ++ bs) = ofActions (as ++ bs) := by
  refine ⟨⟨List.mergeSort_perm as due, ?_, fun t => dueAt_ofActions t as⟩, ?_, ?_⟩
  · exact (ofActions as).sorted.imp due_iff.mp
  · have henabled : (ofActions as).enabled disabled = (ofActions as).actions.filter fun a => a.kind ∉ disabled := by
      refine List.filter_congr fun a _ => ?_
      simp
    rw [henabled]
    refine (actions_ofActions_eq ((ofActions as).sorted.filter _) fun t => ?_).symm
    rw [dueAt_filter, dueAt_filter, dueAt_ofActions]
  · rw [ofActions_eq_iff]
    intro t
    simp

end Sequence

end Totality
