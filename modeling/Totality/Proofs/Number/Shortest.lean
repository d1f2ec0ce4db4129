import Mathlib.Tactic.Lemma
import Mathlib.Tactic.Ring
import Totality.Number.Decimal
import Totality.Proofs.Number.Rounding

/-!
# The shortest decimal reads back

The interval of a magnitude on the grid holds the numbers that round to it, and every decimal that is written
lies in the interval.
-/

namespace Totality.Binary64

/-- What `c · 10 ^ e` comes to in units, rounded. -/
def roundDecimal (c : Nat) (e : Int) : Nat :=
  roundUnits (c * Nat.pow 10 e.toNat * scale) (Nat.pow 10 (-e).toNat)

/-! ### The interval of a magnitude -/

lemma interval_eq (n : Nat) : interval n = (4 * n - 2 * gapBelow n, 4 * n + 2 * spacing n) := by
  rw [interval, gapBelow]
  split_ifs with h
  · rw [two_mul_half_spacing h.1]
  · rfl

/-- The even significands are the same whether counted in spacings or in gaps below. -/
lemma div_gapBelow_mod_two {n : Nat} (h : n / spacing n % 2 = 0) : n / gapBelow n % 2 = 0 := by
  by_contra hodd
  have hgap := gapBelow_eq_spacing_of_odd (n := n) (by omega)
  rw [hgap] at hodd
  exact hodd h

lemma gapBelow_of_odd {n : Nat} (h : n / spacing n % 2 = 1) : gapBelow n = spacing n := by
  apply gapBelow_eq_spacing
  intro hn
  have hpos := spacing_pos n
  rw [Nat.div_eq_of_eq_mul_left hpos hn] at h
  omega

/-- The interval of a magnitude holds what rounds to it. -/
lemma roundsTo_iff {n c : Nat} {e : Int} (hn : OnGrid n) (hpos : 0 < n) :
    roundsTo n c e ↔ roundDecimal c e = n := by
  have hden : 0 < Nat.pow 10 (-e).toNat := Nat.pow_pos (by decide)
  have hgap := hn.gapBelow_le hpos
  have hround : roundDecimal c e = n ↔ roundDecimal c e ≤ n ∧ ¬roundDecimal c e < n := by omega
  have hpoint : 4 * c * Nat.pow 10 e.toNat * scale = 4 * (c * Nat.pow 10 e.toNat * scale) := by ring
  rw [hround, roundDecimal, roundUnits_le_iff hden hn, roundUnits_lt_iff hden hn hpos, roundsTo, interval_eq]
  dsimp only
  rw [hpoint]
  generalize c * Nat.pow 10 e.toNat * scale = num
  generalize Nat.pow 10 (-e).toNat = den at *
  have hlo : (4 * n - 2 * gapBelow n) * den + 2 * (gapBelow n * den) = 2 * (2 * n * den) := by
    rw [← Nat.mul_assoc, ← Nat.add_mul, Nat.sub_add_cancel (by omega)]
    ring
  have hhi : (4 * n + 2 * spacing n) * den = 2 * ((2 * n + spacing n) * den) := by ring
  split_ifs with heven
  · have := div_gapBelow_mod_two heven
    rw [decide_eq_true_iff]
    omega
  · have hodd : n / spacing n % 2 = 1 := by omega
    have hgapEq := gapBelow_of_odd hodd
    rw [hgapEq] at hlo ⊢
    rw [decide_eq_true_iff]
    omega

/-! ### What is written -/

lemma roundsTo_of_gridPoint? {n c : Nat} {e : Int} (h : gridPoint? n e = some c) : roundsTo n c e := by
  unfold gridPoint? at h
  dsimp only at h
  generalize Nat.pow 10 e.toNat * scale = den at h
  generalize n * Nat.pow 10 (-e).toNat = num at h
  split at h
  · next hlow hhigh =>
    cases h
    split_ifs
    · exact hlow
    · exact hhigh
  · next hlow _ =>
    cases h
    exact hlow
  · next _ hhigh =>
    cases h
    exact hhigh
  · cases h

/-- On the finest grid every magnitude is a point. -/
lemma roundDecimal_finest {n : Nat} (hn : OnGrid n) : roundDecimal (n * Nat.pow 5 1074) (-1074) = n := by
  have hten : Nat.pow 5 1074 * (Nat.pow 10 0 * scale) = Nat.pow 10 1074 := by decide +kernel
  have hpos : 0 < Nat.pow 10 1074 := Nat.pow_pos (by decide)
  have hup : (-1074 : Int).toNat = 0 := rfl
  have hdown : (- -1074 : Int).toNat = 1074 := rfl
  rw [roundDecimal, hup, hdown, Nat.mul_assoc, Nat.mul_assoc, hten]
  exact roundUnits_mul_self hpos hn

lemma roundDecimal_shortestFrom {n : Nat} (hn : OnGrid n) (hpos : 0 < n) (k : Nat) :
    roundDecimal (shortestFrom n k).1 (shortestFrom n k).2 = n := by
  induction k with
  | zero => exact roundDecimal_finest hn
  | succ k ih =>
    rw [shortestFrom]
    split
    · next h => exact (roundsTo_iff hn hpos).mp (roundsTo_of_gridPoint? h)
    · exact ih

/-- The shortest decimal reads back. -/
lemma roundDecimal_shortest {n : Nat} (hn : OnGrid n) : roundDecimal (shortest n).1 (shortest n).2 = n := by
  rw [shortest]
  split_ifs with h
  · rw [h, roundDecimal, Nat.zero_mul, Nat.zero_mul]
    decide
  · exact roundDecimal_shortestFrom hn (Nat.pos_of_ne_zero h) _

end Totality.Binary64
