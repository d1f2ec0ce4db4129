import Mathlib.Tactic.Lemma
import Totality.Proofs.Number.Sum

/-!
# The order of binary64 numbers

Numbers other than not-a-number are compared as their places are, so any two of them are in order one way or the
other. A difference has the sign that the order says.
-/

namespace Totality.Binary64

variable {x y : Binary64}

lemma exists_place (h : x ≠ .nan) : ∃ p, x.place = some p := by
  cases x with
  | nan => exact absurd rfl h
  | infinity s => exact ⟨_, rfl⟩
  | finite s n hn => exact ⟨_, rfl⟩

lemma ne_nan_of_isFinite (h : x.isFinite) : x ≠ .nan := by
  rintro rfl
  cases h

/-- Numbers that are not not-a-number are in order one way or the other. -/
lemma not_lt_iff_le (hx : x ≠ .nan) (hy : y ≠ .nan) : ¬y.lt x ↔ x.le y := by
  obtain ⟨p, hp⟩ := exists_place hx
  obtain ⟨q, hq⟩ := exists_place hy
  simp only [lt, le, hp, hq, decide_eq_true_eq]
  exact Int.not_lt

lemma not_le_iff_lt (hx : x ≠ .nan) (hy : y ≠ .nan) : ¬x.le y ↔ y.lt x := by
  rw [← not_lt_iff_le hx hy, not_not]

lemma le_or_le (hx : x ≠ .nan) (hy : y ≠ .nan) : x.le y ∨ y.le x := by
  obtain ⟨p, hp⟩ := exists_place hx
  obtain ⟨q, hq⟩ := exists_place hy
  simp only [le, hp, hq, decide_eq_true_eq]
  exact Int.le_total p q

lemma le_and_le_iff_eqv : x.le y ∧ y.le x ↔ x.eqv y := by
  simp only [le, eqv]
  cases x.place with
  | none => simp
  | some p =>
    cases y.place with
    | none => simp
    | some q =>
      simp only [decide_eq_true_eq]
      exact Int.le_antisymm_iff.symm

/-- Not-a-number is in no order. -/
lemma ne_nan_of_le (h : x.le y) : x ≠ .nan ∧ y ≠ .nan := by
  constructor
  · rintro rfl
    cases h
  · rintro rfl
    cases x <;> cases h

lemma lt_trans {z : Binary64} (h : x.lt y) (h' : y.lt z) : x.lt z := by
  simp only [lt] at *
  split at h <;> split at h' <;> simp_all
  omega

lemma le_of_lt (h : x.lt y) : x.le y := by
  simp only [lt, le] at *
  split at h <;> simp_all
  omega

lemma lt_of_lt_of_le {z : Binary64} (h : x.lt y) (h' : y.le z) : x.lt z := by
  simp only [lt, le] at *
  split at h <;> split at h' <;> simp_all
  omega

lemma not_eqv_of_lt (h : x.lt y) : ¬y.eqv x := by
  intro heq
  simp only [lt, eqv] at *
  split at h <;> simp_all

lemma eqv_symm (h : x.eqv y) : y.eqv x := by
  rw [← le_and_le_iff_eqv] at *
  exact h.symm

lemma eqv_trans {z : Binary64} (h : x.eqv y) (h' : y.eqv z) : x.eqv z := by
  rw [← le_and_le_iff_eqv] at *
  exact ⟨le_trans h.1 h'.1, le_trans h'.2 h.2⟩

/-! ### Differences -/

lemma lt_iff_of_place {p q : Int} (hp : x.place = some p) (hq : y.place = some q) : x.lt y ↔ p < q := by
  rw [lt, hp, hq]
  exact decide_eq_true_iff

lemma le_iff_of_place {p q : Int} (hp : x.place = some p) (hq : y.place = some q) : x.le y ↔ p ≤ q := by
  rw [le, hp, hq]
  exact decide_eq_true_iff

lemma eqv_iff_of_place {p q : Int} (hp : x.place = some p) (hq : y.place = some q) : x.eqv y ↔ p = q := by
  rw [eqv, hp, hq]
  exact decide_eq_true_iff

lemma place_zero (negative : Bool) : (zero negative).place = some 0 := by
  cases negative <;> rfl

/-- Finite numbers lie between the infinities. -/
lemma units_mem_horizon (h : x.isFinite) : -(horizon : Int) < x.units ∧ x.units < horizon := by
  have hle := (representable_units h).2
  have hmax := maxUnits_lt_horizon
  omega

lemma add_infinity (h : x.isFinite) (s : Bool) : x + infinity s = infinity s := by
  cases x with
  | finite t n hn => rfl
  | nan => cases h
  | infinity t => cases h

/-- The exact difference of two places does not round to nothing. -/
lemma clampPlace_pos {z : Int} (h : 0 < z) : 0 < clampPlace z := by
  have hone : roundInt 1 = 1 := by decide
  have hround : roundInt 1 ≤ roundInt z := roundInt_mono h
  have hmax := maxUnits_lt_horizon
  rw [clampPlace, clampInt]
  omega

/-- Of two numbers in strict order both are finite, or the lower one is the infinity below, or the upper one the infinity
above. -/
lemma finite_or_infinity_of_lt (h : x.lt y) :
    x.isFinite ∧ y.isFinite ∨ x = infinity true ∧ (y.isFinite ∨ y = infinity false) ∨
      x.isFinite ∧ y = infinity false := by
  cases x with
  | nan => cases h
  | infinity s =>
    cases y with
    | nan => cases h
    | infinity t =>
      have hlt := (lt_iff_of_place (place_infinity s) (place_infinity t)).mp h
      cases s with
      | true =>
        cases t with
        | true => exact absurd hlt (Int.lt_irrefl _)
        | false => exact Or.inr (Or.inl ⟨rfl, Or.inr rfl⟩)
      | false => cases t <;> simp only [signed, if_true, if_false, Bool.false_eq_true] at hlt <;> omega
    | finite t n hn =>
      have hlt := (lt_iff_of_place (place_infinity s) (place_eq_units rfl)).mp h
      have hmem := units_mem_horizon (x := finite t n hn) rfl
      cases s with
      | true => exact Or.inr (Or.inl ⟨rfl, Or.inl rfl⟩)
      | false =>
        rw [signed_false] at hlt
        omega
  | finite s m hm =>
    cases y with
    | nan => cases h
    | infinity t =>
      have hlt := (lt_iff_of_place (place_eq_units rfl) (place_infinity t)).mp h
      have hmem := units_mem_horizon (x := finite s m hm) rfl
      cases t with
      | true =>
        simp only [signed, if_true] at hlt
        omega
      | false => exact Or.inr (Or.inr ⟨rfl, rfl⟩)
    | finite t n hn => exact Or.inl ⟨rfl, rfl⟩

lemma sub_infinity_true (h : y.isFinite ∨ y = infinity false) : y - infinity true = infinity false := by
  rcases h with h | rfl
  · exact add_infinity h false
  · rfl

lemma infinity_false_sub (h : x.isFinite) : infinity false - x = infinity false :=
  infinity_add (y := -x) (by rwa [isFinite_neg]) false

/-- A number less a smaller one is positive, be it infinite. -/
lemma zero_lt_sub (h : x.lt y) : (zero false).lt (y - x) := by
  have hinfinity : (zero false).lt (infinity false) := by decide +kernel
  rcases finite_or_infinity_of_lt h with ⟨hx, hy⟩ | ⟨rfl, hy⟩ | ⟨hx, rfl⟩
  · have hlt := (lt_iff_of_place (place_eq_units hx) (place_eq_units hy)).mp h
    rw [lt_iff_of_place (place_zero false) (place_sub hy hx)]
    exact clampPlace_pos (Int.sub_pos_of_lt hlt)
  · rw [sub_infinity_true hy]
    exact hinfinity
  · rw [infinity_false_sub hx]
    exact hinfinity

lemma finite_or_infinity_of_pos (h : (zero false).lt x) :
    (∃ n hn, x = .finite false n hn ∧ 0 < n) ∨ x = .infinity false := by
  rcases finite_or_infinity_of_lt h with ⟨-, hx⟩ | ⟨hzero, -⟩ | ⟨-, rfl⟩
  · have hunits := (lt_iff_of_place (place_zero false) (place_eq_units hx)).mp h
    obtain ⟨n, hn, hvalue, -, hpos⟩ := exists_of_units_pos hunits
    exact Or.inl ⟨n, hn, hvalue, hpos⟩
  · cases hzero
  · exact Or.inr rfl

lemma isFinite_of_eqv (hx : x.isFinite) (h : y.eqv x) : y.isFinite := by
  cases y with
  | nan => cases h
  | infinity s =>
    have heq := (eqv_iff_of_place (place_infinity s) (place_eq_units hx)).mp h
    have hmem := units_mem_horizon hx
    cases s <;> simp only [signed, if_true, if_false, Bool.false_eq_true] at heq <;> omega
  | finite s n hn => rfl

/-- Equal finite numbers have no difference. -/
lemma sub_eqv_zero (hx : x.isFinite) (hy : y.isFinite) (h : y.eqv x) : (y - x).eqv (zero false) := by
  have heq := (eqv_iff_of_place (place_eq_units hy) (place_eq_units hx)).mp h
  rw [eqv_iff_of_place (place_sub hy hx) (place_zero false), heq, Int.sub_self, clampPlace_zero]

end Totality.Binary64
