import Mathlib.Tactic.Lemma
import Mathlib.Tactic.Ring
import Totality.Proofs.Number.Products

/-!
# Reciprocals of reciprocals

The reciprocal of a rounded reciprocal need not be the number again, but it is one spacing away at most, and only
upward does it drift. After that it stays: the third reciprocal is the first one.
-/

namespace Totality

/-! ### Whole numbers -/

section Quotient

variable {k a b c : Nat}

/-- Rounded up, a quotient leads back to the divisor. -/
lemma roundHalfEven_quotient_of_le (ha : 0 < a) (hb : roundHalfEven k a = b) (h : a ≤ b) : roundHalfEven k b = a := by
  obtain rfl | hlt := Nat.eq_or_lt_of_le h
  · exact hb
  · obtain ⟨hup, hdown⟩ := two_mul_roundHalfEven_mul_le k ha
    rw [hb, Nat.mul_comm b] at hup hdown
    apply roundHalfEven_eq_of_lt
    · rw [Nat.add_mul, Nat.mul_assoc]
      omega
    · rw [Nat.mul_assoc]
      omega

/-- From a quotient below the divisor the next quotient goes up. -/
lemma le_roundHalfEven_quotient (hb : roundHalfEven k a = b) (hpos : 0 < b) (h : b < a) : b ≤ roundHalfEven k b := by
  have ha : 0 < a := by omega
  obtain ⟨hup, -⟩ := two_mul_roundHalfEven_mul_le k ha
  rw [hb] at hup
  by_contra hlt
  have hnext : roundHalfEven k b ≤ b - 1 := by omega
  have hhalf : 2 * k ≤ (2 * b - 1) * b := by
    have hle := (roundHalfEven_le_iff hpos).mp hnext
    have hmid : 2 * (b - 1) + 1 = 2 * b - 1 := by omega
    rw [hmid] at hle
    omega
  -- both middles lie between the divisor and the quotient
  have hle : (2 * b - 1) * a ≤ (2 * b - 1) * b := by
    have hsplit : (2 * b - 1) * a + a = 2 * (b * a) := by
      rw [← Nat.succ_mul, show (2 * b - 1).succ = 2 * b by omega, Nat.mul_assoc]
    omega
  have := Nat.le_of_mul_le_mul_left hle (by omega)
  omega

/-- The third quotient is the first. -/
lemma roundHalfEven_quotient_quotient (ha : 0 < a) (hb : roundHalfEven k a = b) (hpos : 0 < b)
    (hc : roundHalfEven k b = c) : roundHalfEven k c = b := by
  rcases Nat.lt_or_ge b a with hlt | hge
  · exact roundHalfEven_quotient_of_le hpos hc (hc ▸ le_roundHalfEven_quotient hb hpos hlt)
  · rw [← hc, roundHalfEven_quotient_of_le ha hb hge, hb]

/-- If the first quotient is half the divisor at least, the second is one off the divisor at most. -/
lemma quotient_quotient_near (ha : 0 < a) (hb : roundHalfEven k a = b) (hpos : 0 < b) (hab : a ≤ 2 * b)
    (hc : roundHalfEven k b = c) : c ≤ a + 1 ∧ a ≤ c + 1 := by
  obtain ⟨hup, hdown⟩ := two_mul_roundHalfEven_mul_le k ha
  obtain ⟨hup', hdown'⟩ := two_mul_roundHalfEven_mul_le k hpos
  rw [hb, Nat.mul_comm b] at hup hdown
  rw [hc] at hup' hdown'
  constructor
  · by_contra hlt
    have hle := Nat.mul_le_mul_right b (show a + 2 ≤ c by omega)
    rw [Nat.add_mul] at hle
    omega
  · by_contra hlt
    have hle := Nat.mul_le_mul_right b (show c + 2 ≤ a by omega)
    rw [Nat.add_mul] at hle
    omega

end Quotient

namespace Binary64

/-! ### Significands -/

/-- One in units, divided by a significand so that the quotient is one. -/
def significandRange : Nat := 40564819207303340847894502572032

/-- The significand of the reciprocal. -/
def invert (a : Nat) : Nat := roundHalfEven significandRange a

variable {a : Nat}

lemma le_invert (ha : 0 < a) (h : a ≤ 9007199254740992) : 4503599627370496 ≤ invert a := by
  refine Nat.le_trans ((Nat.le_div_iff_mul_le ha).mpr ?_) (div_le_roundHalfEven _ _)
  rw [significandRange]
  omega

lemma invert_le (h : 4503599627370496 ≤ a) : invert a ≤ 9007199254740992 := by
  rw [invert, roundHalfEven_le_iff (by omega), significandRange]
  omega

lemma invert_invert_invert (ha : 0 < a) (h : a ≤ 9007199254740992) : invert (invert (invert a)) = invert a := by
  have hpos := le_invert ha h
  exact roundHalfEven_quotient_quotient ha rfl (Nat.lt_of_lt_of_le (by decide) hpos) rfl

lemma invert_invert_near (hlo : 4503599627370496 ≤ a) (hhi : a ≤ 9007199254740992) :
    invert (invert a) ≤ a + 1 ∧ a ≤ invert (invert a) + 1 := by
  have hpos := le_invert (by omega) hhi
  exact quotient_quotient_near (by omega) rfl (Nat.lt_of_lt_of_le (by decide) hpos)
    (by rw [invert] at hpos; omega) rfl

/-! ### Units -/

/-- The units of the reciprocal, as if there was no largest number. -/
def reciprocal (m : Nat) : Nat := roundUnits (scale * scale) m

lemma exists_scale_eq_two_pow : ∃ k, k = 1074 ∧ scale = 2 ^ k := by
  exact ⟨1074, rfl, Nat.pow_eq⟩

lemma scale_mul_scale_eq {i j : Nat} (h : i + j = 2043) : scale * scale = significandRange * (2 ^ i * 2 ^ j) := by
  obtain ⟨k, hk, hscale⟩ := exists_scale_eq_two_pow
  have hrange : significandRange = 2 ^ 105 := by decide
  have hsum : k + k = 105 + (i + j) := by omega
  rw [hscale, hrange, ← Nat.pow_add, ← Nat.pow_add, ← Nat.pow_add, hsum]

/-- Reciprocals are taken significand by significand. -/
lemma reciprocal_mul_two_pow {i j : Nat} (hlo : 4503599627370496 ≤ a) (hhi : a ≤ 9007199254740992)
    (hij : i + j = 2043) : reciprocal (a * 2 ^ i) = invert a * 2 ^ j := by
  have hi := Nat.two_pow_pos i
  have hj := Nat.two_pow_pos j
  rw [reciprocal, scale_mul_scale_eq hij]
  obtain rfl | hlt := Nat.eq_or_lt_of_le hlo
  · -- a power of two, and so is its reciprocal
    have hinvert : invert 4503599627370496 = 9007199254740992 := by decide
    have hsplit : significandRange * (2 ^ i * 2 ^ j) = 9007199254740992 * 2 ^ j * (4503599627370496 * 2 ^ i) := by
      rw [significandRange]
      ring
    rw [hinvert, hsplit]
    exact roundUnits_mul_self (by omega) (onGrid_mul_two_pow (Nat.le_refl _) j)
  · have hspacing : spacing (significandRange * (2 ^ i * 2 ^ j) / (a * 2 ^ i)) = 2 ^ j := by
      have hquotient : significandRange * (2 ^ i * 2 ^ j) / (a * 2 ^ i) = significandRange * 2 ^ j / a := by
        rw [Nat.mul_left_comm, Nat.mul_comm a, Nat.mul_div_mul_left _ _ hi]
      rw [hquotient]
      apply spacing_unique
      · rw [Nat.le_div_iff_mul_le (by omega), Nat.mul_right_comm]
        refine Nat.mul_le_mul_right _ ?_
        rw [significandRange]
        omega
      · rw [Nat.div_lt_iff_lt_mul (by omega), Nat.mul_right_comm]
        refine Nat.mul_lt_mul_of_pos_right ?_ hj
        rw [significandRange]
        omega
    have hcommon : a * 2 ^ i * 2 ^ j = 2 ^ i * 2 ^ j * a := by ring
    rw [roundUnits_eq, hspacing, hcommon, Nat.mul_comm significandRange,
      roundHalfEven_mul_mul (Nat.mul_pos hi hj), invert]

lemma reciprocal_reciprocal_mul_two_pow {i : Nat} (hlo : 4503599627370496 ≤ a) (hhi : a ≤ 9007199254740992)
    (hi : i ≤ 2043) : reciprocal (reciprocal (a * 2 ^ i)) = invert (invert a) * 2 ^ i := by
  rw [reciprocal_mul_two_pow (j := 2043 - i) hlo hhi (by omega)]
  exact reciprocal_mul_two_pow (le_invert (by omega) hhi) (invert_le hlo) (by omega)

/-- Magnitudes on the grid are significands and powers of two. -/
lemma OnGrid.exists_significand {m : Nat} (h : OnGrid m) (hlo : 4503599627370496 ≤ m) :
    ∃ a i, m = a * 2 ^ i ∧ 4503599627370496 ≤ a ∧ a ≤ 9007199254740992 := by
  have hspacing := spacing_pos m
  have hle : 4503599627370496 * spacing m ≤ m := by
    rcases Nat.eq_or_lt_of_le hspacing with hone | hlt
    · omega
    · exact mul_spacing_le hlt
  refine ⟨m / spacing m, m.log2 - 52, ?_, (Nat.le_div_iff_mul_le hspacing).mpr hle, ?_⟩
  · rw [← spacing_eq, Nat.mul_comm, h.mul_div]
  · exact Nat.div_le_of_le_mul (Nat.mul_comm _ _ ▸ Nat.le_of_lt (lt_mul_spacing m))

lemma le_of_mul_two_pow_le {i : Nat} (ha : 4503599627370496 ≤ a) (h : a * 2 ^ i ≤ 18446744073709551616 * scale) :
    i ≤ 1086 := by
  obtain ⟨k, hk, hscale⟩ := exists_scale_eq_two_pow
  have hlo : 4503599627370496 = 2 ^ 52 := by decide
  have hhi : 18446744073709551616 = 2 ^ 64 := by decide
  have hpow : 2 ^ (52 + i) ≤ 2 ^ (64 + k) := by
    rw [Nat.pow_add, Nat.pow_add, ← hlo, ← hhi, ← hscale]
    exact Nat.le_trans (Nat.mul_le_mul_right _ ha) h
  have := (Nat.pow_le_pow_iff_right (by decide : 1 < 2)).mp hpow
  omega

/-- The third reciprocal is the first. -/
lemma reciprocal_reciprocal_reciprocal {m : Nat} (h : OnGrid m) (hlo : 4503599627370496 ≤ m)
    (hhi : m ≤ 18446744073709551616 * scale) : reciprocal (reciprocal (reciprocal m)) = reciprocal m := by
  obtain ⟨a, i, rfl, ha, ha'⟩ := h.exists_significand hlo
  have hi := le_of_mul_two_pow_le ha hhi
  rw [reciprocal_mul_two_pow (j := 2043 - i) ha ha' (by omega),
    reciprocal_reciprocal_mul_two_pow (le_invert (by omega) ha') (invert_le ha) (by omega),
    invert_invert_invert (by omega) ha']

/-! ### Whole numbers nearby -/

/-- The nearest whole number to so many units, a half upward. -/
def wholes (u : Nat) : Nat := (2 * u + scale) / (2 * scale)

lemma wholes_eq_iff {u n : Nat} : wholes u = n ↔ 2 * (n * scale) ≤ 2 * u + scale ∧ 2 * u < 2 * (n * scale) + scale := by
  have hpos := scale_pos
  have hcomm : n * (2 * scale) = 2 * (n * scale) := Nat.mul_left_comm n 2 scale
  rw [wholes, Nat.div_eq_iff (by omega), hcomm]
  omega

lemma wholes_mul_scale (n : Nat) : wholes (n * scale) = n := by
  have hpos := scale_pos
  rw [wholes_eq_iff]
  omega

/-- A whole number is the nearest one to so many parts of which `e` make one. -/
lemma wholes_mul_eq_iff {c e u n : Nat} (hu : 0 < u) (h : scale = e * u) :
    wholes (c * u) = n ↔ 2 * (n * e) ≤ 2 * c + e ∧ 2 * c < 2 * (n * e) + e := by
  have hlow : 2 * (n * (e * u)) = 2 * (n * e) * u := by ring
  have hmid : 2 * (c * u) = 2 * c * u := (Nat.mul_assoc ..).symm
  rw [wholes_eq_iff, h, hlow, hmid, ← Nat.add_mul, ← Nat.add_mul, Nat.mul_le_mul_right_iff hu,
    Nat.mul_lt_mul_right hu]

lemma le_wholes {u n : Nat} (h : n * scale ≤ u) : n ≤ wholes u := by
  have hpos := scale_pos
  have hcomm : n * (2 * scale) = 2 * (n * scale) := Nat.mul_left_comm n 2 scale
  rw [wholes, Nat.le_div_iff_mul_le (by omega), hcomm]
  omega

/-- Rounded to a whole number, an overflow is no less than the upper end. -/
lemma roundTo_ofUnits {top : Nat} (htop : top * scale ≤ maxUnits) (num den : Nat) :
    (ofUnits false num den).roundTo 0 top = (min top (wholes (roundUnits num den)) : Nat) := by
  rw [ofUnits]
  split_ifs with h
  · rw [roundTo, clampInt, signed_false, ← wholes]
    omega
  · -- the magnitude is on the grid, so it lies above the largest one
    have hover : maxUnits < roundUnits num den := by
      by_contra hle
      exact h ((onGrid_roundUnits _ _).representable (Nat.not_lt.mp hle))
    have htop' := le_wholes (Nat.le_of_lt (Nat.lt_of_le_of_lt htop hover))
    rw [roundTo, if_neg (by decide), Nat.min_eq_left htop']

/-! ### Reciprocals of whole numbers -/

lemma le_scale : 4503599627370496 ≤ scale := by
  obtain ⟨w, hw⟩ := exists_scale_eq (c := 4503599627370496) (k := 52) (by decide) (by decide)
  rw [hw]
  exact Nat.le_mul_of_pos_right _ (Nat.two_pow_pos w)

lemma reciprocal_anti {m m' : Nat} (hpos : 0 < m) (h : m ≤ m') : reciprocal m' ≤ reciprocal m :=
  roundUnits_mono (by omega) hpos (Nat.mul_le_mul_left _ h)

lemma reciprocal_scale : reciprocal scale = scale := by
  have hone : OnGrid (1 * scale) := onGrid_mul_scale (by decide)
  rw [Nat.one_mul] at hone
  exact roundUnits_mul_self scale_pos hone

lemma reciprocal_two_mul_scale : 2 * reciprocal (2 * scale) = scale := by
  decide +kernel

lemma reciprocal_pos {m : Nat} (h : OnGrid m) (hlo : 4503599627370496 ≤ m) (hhi : m ≤ 18446744073709551616 * scale) :
    0 < reciprocal m := by
  obtain ⟨a, i, rfl, ha, ha'⟩ := h.exists_significand hlo
  have hi := le_of_mul_two_pow_le ha hhi
  have hinvert := le_invert (by omega) ha'
  rw [reciprocal_mul_two_pow (j := 2043 - i) ha ha' (by omega)]
  exact Nat.mul_pos (by omega) (Nat.two_pow_pos _)

lemma exists_mul_two_pow {n : Nat} (hpos : 0 < n) (h : n ≤ 4503599627370496) :
    ∃ k, k ≤ 52 ∧ 4503599627370496 ≤ n * 2 ^ k ∧ n * 2 ^ k ≤ 9007199254740992 := by
  have hlow := Nat.log2_self_le (n := n) (by omega)
  have hhigh := Nat.lt_log2_self (n := n)
  have hlog : n.log2 ≤ 52 := by
    have hlt : n.log2 < 53 := (Nat.log2_lt (by omega)).mpr (by omega)
    omega
  have hsplit : 2 ^ n.log2 * 2 ^ (52 - n.log2) = 4503599627370496 := by
    rw [← Nat.pow_add, Nat.add_sub_cancel' hlog]
  refine ⟨52 - n.log2, Nat.sub_le _ _, ?_, ?_⟩
  · rw [← hsplit]
    exact Nat.mul_le_mul_right _ hlow
  · have hle := Nat.mul_le_mul_right (2 ^ (52 - n.log2)) (Nat.le_of_lt hhigh)
    rw [Nat.pow_succ, Nat.mul_right_comm, hsplit] at hle
    exact hle

/-- The denominators whose reciprocal, rounded, has a reciprocal that is nearer to the next whole number. -/
def Drifts (n : Nat) : Prop :=
  2251799813685248 < n ∧ n < 4503599627370496 ∧ invert (invert (2 * n)) = 2 * n + 1

instance (n : Nat) : Decidable (Drifts n) := inferInstanceAs (Decidable (_ ∧ _))

example : Drifts 4444444444444444 := by decide +kernel

/-- A whole number below `2 ^ 52` is next to the reciprocal of its reciprocal, unless it drifts. -/
lemma wholes_reciprocal_iff {n : Nat} (hlo : 0 < n) (hhi : n ≤ 4503599627370496) :
    wholes (reciprocal (reciprocal (n * scale))) = n ↔ ¬Drifts n := by
  obtain ⟨k, hk, ha, ha'⟩ := exists_mul_two_pow hlo hhi
  obtain ⟨w, hw⟩ := exists_scale_eq (c := 2 ^ k) rfl (by omega)
  have hsplit : n * scale = n * 2 ^ k * 2 ^ w := by rw [hw, Nat.mul_assoc]
  have hw' : w ≤ 1086 := by
    refine le_of_mul_two_pow_le ha ?_
    rw [← hsplit]
    exact Nat.mul_le_mul_right _ (by omega)
  rw [hsplit, reciprocal_reciprocal_mul_two_pow ha ha' (by omega), wholes_mul_eq_iff (Nat.two_pow_pos w) hw]
  obtain ⟨hup, hdown⟩ := invert_invert_near ha ha'
  have hfixed : invert (invert 4503599627370496) = 4503599627370496 ∧
      invert (invert 9007199254740992) = 9007199254740992 := by decide
  match k with
  | 0 =>
    -- only `2 ^ 52` itself
    obtain rfl : n = 4503599627370496 := by omega
    rw [Nat.pow_zero, Nat.mul_one, hfixed.1]
    exact iff_of_true (by omega) (by unfold Drifts; omega)
  | 1 =>
    rw [Nat.pow_one, Nat.mul_comm n] at *
    by_cases hends : n = 2251799813685248 ∨ n = 4503599627370496
    · obtain rfl | rfl := hends
      · rw [hfixed.1]
        exact iff_of_true (by omega) (by unfold Drifts; omega)
      · rw [hfixed.2]
        exact iff_of_true (by omega) (by unfold Drifts; omega)
    · rw [Drifts]
      omega
  | k + 2 =>
    have hfour : 4 * n ≤ n * 2 ^ (k + 2) := by
      rw [Nat.mul_comm 4]
      exact Nat.mul_le_mul_left _ (Nat.pow_le_pow_right Nat.two_pos (Nat.le_add_left 2 k))
    have hpow : 4 ≤ 2 ^ (k + 2) := Nat.pow_le_pow_right Nat.two_pos (Nat.le_add_left 2 k)
    generalize n * 2 ^ (k + 2) = a at *
    generalize 2 ^ (k + 2) = e at *
    exact iff_of_true (by omega) (by unfold Drifts; omega)

/-- A reciprocal that is about a whole number beyond `2 ^ 52` is this number, and is the reciprocal of its reciprocal. -/
lemma reciprocal_reciprocal_of_wholes {m n : Nat} (hgrid : OnGrid m) (hpos : 0 < m) (hm : m ≤ scale)
    (h : wholes (reciprocal m) = n) (hlo : 4503599627370496 < n) (hhi : n < 18446744073709551616) :
    reciprocal m = n * scale ∧ reciprocal (reciprocal (n * scale)) = n * scale := by
  obtain ⟨hup, hdown⟩ := wholes_eq_iff.mp h
  have hnext := Nat.mul_le_mul_right scale (Nat.succ_le_of_lt hlo)
  have hlast := Nat.mul_le_mul_right scale (Nat.succ_le_of_lt hhi)
  rw [Nat.succ_mul] at hnext hlast
  have hmul : reciprocal m = n * scale := by
    -- at this size there are whole numbers only
    have hspacing : spacing (4503599627370496 * scale) = scale := by
      obtain ⟨k, -, hk⟩ := exists_scale_eq_two_pow
      rw [hk]
      exact spacing_unique (Nat.le_refl _) (Nat.mul_lt_mul_of_pos_right (by decide) (Nat.two_pow_pos k))
    have hdvd : scale ∣ reciprocal m := by
      refine Nat.dvd_trans ?_ (onGrid_roundUnits _ _)
      have hcoarse := spacing_dvd_spacing (spacing_mono (show 4503599627370496 * scale ≤ reciprocal m by omega))
      rwa [hspacing] at hcoarse
    obtain ⟨q, hq⟩ := hdvd
    rw [Nat.mul_comm] at hq
    rw [hq, wholes_mul_scale] at h
    rw [hq, h]
  have hlow : 4503599627370496 ≤ m := by
    by_contra hlt
    obtain ⟨j, hj⟩ : ∃ j, j = 2043 := ⟨_, rfl⟩
    have hinvert := reciprocal_mul_two_pow (a := 4503599627370496) (i := 0) (j := j) (by decide) (by decide) (by omega)
    have hanti := reciprocal_anti hpos (Nat.le_of_lt (Nat.not_le.mp hlt))
    rw [Nat.pow_zero, Nat.mul_one] at hinvert
    have hle := le_of_mul_two_pow_le (i := j) (le_invert (a := 4503599627370496) (by decide) (by decide)) (by omega)
    omega
  refine ⟨hmul, ?_⟩
  rw [← hmul]
  exact reciprocal_reciprocal_reciprocal hgrid hlow (by omega)

end Binary64

end Totality
