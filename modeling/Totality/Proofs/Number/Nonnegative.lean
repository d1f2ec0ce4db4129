import Mathlib.Tactic.Lemma
import Totality.Proofs.Number.Products

/-!
# Numbers that are not negative

Sums and products of numbers that are not below zero are not below zero, and neither is a number that is read without a
minus. Not-a-number is below nothing. The nearest whole number is below zero from minus one half on.
-/

namespace Totality

namespace Binary64

/-- A number that is not below zero, or none. -/
def NotNegative (x : Binary64) : Prop := x = .nan ∨ (zero false).le x

variable {x y : Binary64}

lemma zero_le_add (hx : (zero false).le x) (hy : (zero false).le y) : (zero false).le (x + y) := by
  have hinfinity : (zero false).le (infinity false) := by decide +kernel
  have hcases : ∀ {w : Binary64}, (zero false).le w → w.isFinite ∨ w = infinity false := by
    intro w hw
    obtain ⟨s, rfl⟩ | ⟨n, hn, -, rfl⟩ | rfl := zero_or_pos_of_zero_le hw
    · exact Or.inl rfl
    · exact Or.inl rfl
    · exact Or.inr rfl
  rcases hcases hx with hx' | rfl
  · rcases hcases hy with hy' | rfl
    · have hxunits := (le_iff_of_place (place_zero false) (place_eq_units hx')).mp hx
      have hyunits := (le_iff_of_place (place_zero false) (place_eq_units hy')).mp hy
      rw [le_iff_of_place (place_zero false) (place_add hx' hy'), ← clampPlace_zero]
      exact clampPlace_mono (by omega)
    · rwa [add_infinity hx']
  · rcases hcases hy with hy' | rfl
    · rwa [infinity_add hy']
    · exact hinfinity

lemma NotNegative.add (hx : x.NotNegative) (hy : y.NotNegative) : (x + y).NotNegative := by
  rcases hx with rfl | hx
  · exact Or.inl rfl
  · rcases hy with rfl | hy
    · left
      cases x <;> rfl
    · exact Or.inr (zero_le_add hx hy)

lemma NotNegative.mul (hx : x.NotNegative) (hy : y.NotNegative) : (x * y).NotNegative := by
  rcases hx with rfl | hx
  · exact Or.inl rfl
  · rcases hy with rfl | hy
    · left
      cases x <;> rfl
    · exact zero_le_mul hx hy

/-! ### Reading -/

lemma negative_of_ofUnsigned? {negative : Bool} {cs : List Char} {d : Decimal}
    (h : Decimal.ofUnsigned? negative cs = some d) : d.negative = negative := by
  simp only [Decimal.ofUnsigned?] at h
  -- with a point and without one
  split at h
  all_goals
    split at h
    · cases h
    · split at h
      · cases h
        rfl
      · split at h
        · obtain ⟨e, -, rfl⟩ := Option.map_eq_some_iff.mp h
          rfl
        · cases h

lemma takeSign_of_head? {cs : List Char} (h : cs.head? ≠ some '-') : (takeSign cs).1 = false := by
  unfold takeSign
  split
  · exact absurd rfl h
  · rfl
  · rfl

/-- What is read without a minus is not negative. -/
lemma notNegative_of_read? {cs : List Char} (h : cs.head? ≠ some '-') (hread : read? cs = some x) : x.NotNegative := by
  have hsign := takeSign_of_head? h
  have hinfinity : (zero false).le (infinity false) := by decide +kernel
  rw [read?, Binary64.read] at hread
  split at hread
  · cases hread
  · generalize takeSign cs = signed at *
    obtain ⟨negative, body⟩ := signed
    obtain rfl : negative = false := hsign
    dsimp only at hread
    split at hread
    · next d hd =>
      have hpos := negative_of_ofUnsigned? hd
      obtain rfl := Option.some.inj hread
      right
      rw [Decimal.toBinary64, hpos, le_iff_of_place (place_zero false) (place_ofUnits _ _ _), signed_false]
      exact Int.natCast_nonneg _
    · split at hread
      · next y hname =>
        obtain rfl := Option.some.inj hread
        rw [ofName?] at hname
        split_ifs at hname
        · exact Or.inr (Option.some.inj hname ▸ hinfinity)
        · exact Or.inl (Option.some.inj hname).symm
      · cases hread

/-! ### Whole numbers -/

def half : Binary64 := one / ofInt 2

lemma place_neg_half : (-half).place = some (-((scale / 2 : Nat) : Int)) := by decide +kernel

/-- Half away from zero is where rounding to whole numbers leaves zero. -/
lemma roundTo_lt_zero_iff : x.roundTo wordMin wordMax < 0 ↔ x.le (-half) := by
  have hle := fun {p : Int} (hp : x.place = some p) => le_iff_of_place hp place_neg_half
  have hscale : scale = 2 * (scale / 2) := by decide +kernel
  have hpos := scale_pos
  cases x with
  | nan => exact iff_of_false (by decide) (by decide +kernel)
  | infinity s => cases s <;> decide +kernel
  | finite s n hn =>
    have hround : 0 < (2 * n + scale) / (2 * scale) ↔ scale / 2 ≤ n := by
      rw [Nat.div_pos_iff]
      omega
    rw [hle rfl, roundTo, clampInt, wordMin, wordMax]
    generalize (2 * n + scale) / (2 * scale) = rounded at *
    cases s with
    | false =>
      rw [signed_false, signed_false]
      omega
    | true =>
      simp only [signed, if_true]
      omega

lemma NotNegative.zero_le_roundTo (hx : x.NotNegative) : 0 ≤ x.roundTo wordMin wordMax := by
  rcases hx with rfl | hx
  · decide
  · have hround := roundTo_mono hx (by decide : wordMin ≤ 0) (by decide : 0 ≤ wordMax)
    have hzero : (zero false).roundTo wordMin wordMax = 0 := by decide +kernel
    omega

end Binary64

end Totality
