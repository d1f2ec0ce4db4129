import Mathlib.Tactic.Lemma
import Totality.Proofs.Number.Numeral
import Totality.Proofs.Number.Order

/-!
# Products, quotients and the order

Rounding keeps the order, and so do the operations that are rounded: differences with one number, quotients by a positive
number, products with a number of either sign, and the nearest whole number.
-/

namespace Totality.Binary64

variable {x y z : Binary64}

/-! ### Places and signs -/

/-- The order of places is kept where their magnitudes are changed alike. -/
lemma signed_le_signed {φ : Nat → Nat} (hmono : ∀ {m n}, m ≤ n → φ m ≤ φ n) (hzero : φ 0 = 0) {s t : Bool} {m n : Nat}
    (h : signed s m ≤ signed t n) : signed s (φ m) ≤ signed t (φ n) := by
  cases s with
  | false =>
    cases t with
    | false => exact Int.ofNat_le.mpr (hmono (Int.ofNat_le.mp h))
    | true =>
      -- a magnitude that is not above a negative one
      obtain ⟨rfl, rfl⟩ : m = 0 ∧ n = 0 := by
        simp only [signed, if_true, Bool.false_eq_true, if_false] at h
        omega
      rw [hzero]
      exact Int.le_refl 0
  | true =>
    cases t with
    | false =>
      simp only [signed, if_true, Bool.false_eq_true, if_false]
      omega
    | true =>
      have hle : n ≤ m := by
        simp only [signed, if_true] at h
        omega
      have := hmono hle
      simp only [signed, if_true]
      omega

lemma signed_not (s : Bool) (n : Nat) : signed (!s) n = -signed s n := by
  cases s with
  | false => rfl
  | true => exact (Int.neg_neg _).symm

lemma place_neg (x : Binary64) : (-x).place = x.place.map fun p => -p := by
  cases x with
  | nan => rfl
  | infinity s =>
    change (infinity !s).place = _
    rw [place_infinity, place_infinity, signed_not, Option.map_some]
  | finite s n hn => exact congrArg some (signed_not s n)

protected lemma neg_le_neg_iff : (-x).le (-y) ↔ y.le x := by
  simp only [le, place_neg]
  cases x.place with
  | none => cases y.place <;> simp
  | some p =>
    cases y.place with
    | none => simp
    | some q => simp

lemma exists_of_isFinite (h : x.isFinite) : ∃ s n hn, x = .finite s n hn := by
  cases x with
  | nan => cases h
  | infinity s => cases h
  | finite s n hn => exact ⟨s, n, hn, rfl⟩

/-- Finite numbers in order are so by their signs and units. -/
lemma exists_signed_le_signed (hx : x.isFinite) (hy : y.isFinite) (h : x.le y) :
    ∃ s m hm t n hn, x = .finite s m hm ∧ y = .finite t n hn ∧ signed s m ≤ signed t n := by
  obtain ⟨s, m, hm, rfl⟩ := exists_of_isFinite hx
  obtain ⟨t, n, hn, rfl⟩ := exists_of_isFinite hy
  exact ⟨s, m, hm, t, n, hn, rfl, rfl, (le_iff_of_place (place_eq_units hx) (place_eq_units hy)).mp h⟩

/-- Every number but not-a-number lies between the infinities. -/
lemma infinity_true_le (h : x ≠ .nan) : (infinity true).le x := by
  obtain ⟨p, hp⟩ := exists_place h
  rw [le_iff_of_place (place_infinity true) hp, signed, if_pos rfl]
  obtain ⟨hx, hunits⟩ | ⟨-, hplace⟩ | ⟨-, hplace⟩ := finite_or_infinity_of_place hp
  · have := units_mem_horizon hx
    omega
  · omega
  · omega

lemma le_infinity_false (h : x ≠ .nan) : x.le (infinity false) := by
  have hneg : -x ≠ .nan := by
    cases x <;> simp_all [Neg.neg, neg]
  exact Binary64.neg_le_neg_iff.mp (infinity_true_le hneg)

/-- Numbers in order are finite, or the lower or the upper one is an infinity. -/
lemma finite_or_infinity_of_le (h : x.le y) :
    x.isFinite ∧ y.isFinite ∨ x = infinity true ∧ y ≠ .nan ∨ x ≠ .nan ∧ y = infinity false := by
  obtain ⟨hx, hy⟩ := ne_nan_of_le h
  by_cases hlt : x.lt y
  · rcases finite_or_infinity_of_lt hlt with hfinite | ⟨hbelow, -⟩ | ⟨-, habove⟩
    · exact Or.inl hfinite
    · exact Or.inr (Or.inl ⟨hbelow, hy⟩)
    · exact Or.inr (Or.inr ⟨hx, habove⟩)
  · -- both are at the same place
    have hge := (not_lt_iff_le hy hx).mp hlt
    obtain ⟨p, hp⟩ := exists_place hx
    obtain ⟨q, hq⟩ := exists_place hy
    have hpq : p = q := Int.le_antisymm ((le_iff_of_place hp hq).mp h) ((le_iff_of_place hq hp).mp hge)
    obtain ⟨hfinite, -⟩ | ⟨-, habove⟩ | ⟨hbelow, -⟩ := finite_or_infinity_of_place hp
    · exact Or.inl ⟨hfinite, isFinite_of_eqv hfinite ((eqv_iff_of_place hq hp).mpr hpq.symm)⟩
    · obtain ⟨hfinite, hunits⟩ | ⟨hinfinity, -⟩ | ⟨-, hbelow⟩ := finite_or_infinity_of_place hq
      · have := units_mem_horizon hfinite
        omega
      · exact Or.inr (Or.inr ⟨hx, hinfinity⟩)
      · have := maxUnits_lt_horizon
        omega
    · exact Or.inr (Or.inl ⟨hbelow, hy⟩)

/-! ### Differences and quotients -/

lemma clampPlace_mono {z w : Int} (h : z ≤ w) : clampPlace z ≤ clampPlace w := by
  have hround := roundInt_mono h
  rw [clampPlace, clampPlace, clampInt, clampInt]
  omega

protected lemma sub_le_sub_right (hx : x.isFinite) (hy : y.isFinite) (hz : z.isFinite) (h : x.le y) :
    (x - z).le (y - z) := by
  have hunits := (le_iff_of_place (place_eq_units hx) (place_eq_units hy)).mp h
  rw [le_iff_of_place (place_sub hx hz) (place_sub hy hz)]
  exact clampPlace_mono (by omega)

lemma finite_div_finite (s t : Bool) {m n : Nat} (hm : Representable m) (hn : Representable n) (hpos : 0 < n) :
    Binary64.finite s m hm / .finite t n hn = ofUnits (s != t) (m * scale) n := by
  change div _ _ = _
  rw [div, if_neg (by omega)]

protected lemma div_le_div_right (hx : x.isFinite) (hy : y.isFinite) {n : Nat} (hn : Representable n) (hpos : 0 < n)
    (h : x.le y) : (x / .finite false n hn).le (y / .finite false n hn) := by
  obtain ⟨s, a, ha, t, b, hb, rfl, rfl, hunits⟩ := exists_signed_le_signed hx hy h
  rw [finite_div_finite s false ha hn hpos, finite_div_finite t false hb hn hpos,
    le_iff_of_place (place_ofUnits _ _ _) (place_ofUnits _ _ _), Bool.bne_false, Bool.bne_false]
  refine signed_le_signed (φ := fun k => min (roundUnits (k * scale) n) horizon) ?_ ?_ hunits
  · intro k l hkl
    have hround := roundUnits_mono hpos hpos (Nat.mul_le_mul_right n (Nat.mul_le_mul_right scale hkl))
    omega
  · rw [Nat.zero_mul, roundUnits_zero hpos, Nat.zero_min]

/-! ### Products -/

lemma neg_ofUnits (s : Bool) (num den : Nat) : -ofUnits s num den = ofUnits (!s) num den := by
  rw [ofUnits, ofUnits]
  split_ifs <;> rfl

protected lemma neg_mul (x y : Binary64) : -x * y = -(x * y) := by
  cases x with
  | nan => rfl
  | infinity s =>
    cases y with
    | nan => rfl
    | infinity t => cases s <;> cases t <;> rfl
    | finite t n hn =>
      change mul _ _ = neg (mul _ _)
      simp only [Neg.neg, neg, mul]
      split_ifs
      · rfl
      · cases s <;> cases t <;> rfl
  | finite s m hm =>
    cases y with
    | nan => rfl
    | infinity t =>
      change mul _ _ = neg (mul _ _)
      simp only [Neg.neg, neg, mul]
      split_ifs
      · rfl
      · cases s <;> cases t <;> rfl
    | finite t n hn =>
      have hsign : ((!s) != t) = !(s != t) := by cases s <;> cases t <;> rfl
      change Binary64.finite (!s) m hm * _ = _
      rw [finite_mul_finite, finite_mul_finite, neg_ofUnits, hsign]

protected lemma mul_comm (x y : Binary64) : x * y = y * x := by
  cases x with
  | nan => cases y <;> rfl
  | infinity s =>
    cases y with
    | nan => rfl
    | infinity t => cases s <;> cases t <;> rfl
    | finite t n hn =>
      change mul _ _ = mul _ _
      simp only [mul, bne_comm]
  | finite s m hm =>
    cases y with
    | nan => rfl
    | infinity t =>
      change mul _ _ = mul _ _
      simp only [mul, bne_comm]
    | finite t n hn => rw [finite_mul_finite, finite_mul_finite, Nat.mul_comm, bne_comm]

lemma zero_mul_finite (s t : Bool) {n : Nat} (hn : Representable n) : zero s * finite t n hn = zero (s != t) := by
  have hzero : roundUnits (0 * n) scale = 0 := by rw [Nat.zero_mul, roundUnits_zero scale_pos]
  change finite s 0 _ * _ = _
  rw [finite_mul_finite]
  simp only [ofUnits, hzero]
  exact dif_pos representable_zero

lemma mul_infinity_of_pos {m : Nat} (hm : Representable m) (hpos : 0 < m) (s : Bool) :
    Binary64.finite false m hm * infinity s = infinity s := by
  change mul _ _ = _
  rw [mul, if_neg (by omega), Bool.false_bne]

/-- Multiplied with a positive number, numbers keep their order. -/
protected lemma mul_le_mul_left {m : Nat} (hm : Representable m) (hpos : 0 < m) (h : x.le y) :
    (Binary64.finite false m hm * x).le (.finite false m hm * y) := by
  have hplace : ∀ {w : Binary64}, w ≠ .nan → Binary64.finite false m hm * w ≠ .nan := by
    intro w hw
    cases w with
    | nan => exact absurd rfl hw
    | infinity s =>
      rw [mul_infinity_of_pos hm hpos]
      rintro ⟨⟩
    | finite s n hn =>
      rw [finite_mul_finite, ofUnits]
      split_ifs <;> rintro ⟨⟩
  obtain ⟨hx, hy⟩ | ⟨rfl, hy⟩ | ⟨hx, rfl⟩ := finite_or_infinity_of_le h
  · obtain ⟨s, a, ha, t, b, hb, rfl, rfl, hunits⟩ := exists_signed_le_signed hx hy h
    rw [finite_mul_finite, finite_mul_finite, le_iff_of_place (place_ofUnits _ _ _) (place_ofUnits _ _ _),
      Bool.false_bne, Bool.false_bne]
    refine signed_le_signed (φ := fun k => min (roundUnits (m * k) scale) horizon) ?_ ?_ hunits
    · intro k l hkl
      have hround := roundUnits_mono scale_pos scale_pos (Nat.mul_le_mul_right scale (Nat.mul_le_mul_left m hkl))
      omega
    · rw [Nat.mul_zero, roundUnits_zero scale_pos, Nat.zero_min]
  · rw [mul_infinity_of_pos hm hpos]
    exact infinity_true_le (hplace hy)
  · rw [mul_infinity_of_pos hm hpos]
    exact le_infinity_false (hplace hx)

/-- A number that is not negative is a zero or positive. -/
lemma zero_or_pos_of_zero_le (h : (zero false).le x) :
    (∃ s, x = zero s) ∨ (∃ n hn, 0 < n ∧ x = .finite false n hn) ∨ x = infinity false := by
  by_cases hpos : (zero false).lt x
  · obtain ⟨n, hn, hx, hn'⟩ | hx := finite_or_infinity_of_pos hpos
    · exact Or.inr (Or.inl ⟨n, hn, hn', hx⟩)
    · exact Or.inr (Or.inr hx)
  · obtain ⟨-, hnan⟩ := ne_nan_of_le h
    have hle := (not_lt_iff_le hnan (ne_nan_of_isFinite rfl)).mp hpos
    have heqv := le_and_le_iff_eqv.mp ⟨hle, h⟩
    obtain ⟨s, n, hn, rfl⟩ := exists_of_isFinite (isFinite_of_eqv rfl heqv)
    have hunits := (eqv_iff_of_place (place_eq_units rfl) (place_zero false)).mp heqv
    obtain rfl : n = 0 := by
      cases s <;> simp only [units, signed, if_true, if_false, Bool.false_eq_true] at hunits <;> omega
    exact Or.inl ⟨s, rfl⟩

/-- A product of numbers that are not negative is none, unless it is not-a-number. -/
lemma zero_le_mul (hx : (zero false).le x) (hy : (zero false).le y) : x * y = .nan ∨ (zero false).le (x * y) := by
  have hinfinity : (zero false).le (infinity false) := by decide +kernel
  have hzero : ∀ s, (zero false).le (zero s) := by decide +kernel
  obtain ⟨s, rfl⟩ | ⟨m, hm, hpos, rfl⟩ | rfl := zero_or_pos_of_zero_le hx
  · cases y with
    | nan => exact Or.inl rfl
    | infinity t => exact Or.inl rfl
    | finite t n hn =>
      rw [zero_mul_finite]
      exact Or.inr (hzero _)
  · refine Or.inr (le_trans ?_ (Binary64.mul_le_mul_left hm hpos hy))
    rw [Binary64.mul_comm]
    rw [zero_mul_finite]
    exact hzero _
  · obtain ⟨s, rfl⟩ | ⟨n, hn, hpos, rfl⟩ | rfl := zero_or_pos_of_zero_le hy
    · exact Or.inl rfl
    · rw [Binary64.mul_comm, mul_infinity_of_pos hn hpos]
      exact Or.inr hinfinity
    · exact Or.inr hinfinity

/-- Multiplied with a number that is not negative, such numbers keep their order, unless the smaller product is
not-a-number. -/
lemma mul_le_mul_of_nonneg (hx : (zero false).le x) (hxy : x.le y) (hy : y.isFinite) (hz : (zero false).le z) :
    x * z = .nan ∨ (x * z).le (y * z) := by
  obtain ⟨s, rfl⟩ | ⟨m, hm, hpos, rfl⟩ | rfl := zero_or_pos_of_zero_le hz
  · have hzeros : ∀ s t, (zero s).le (zero t) := by decide +kernel
    have hx' : x.isFinite := by
      obtain ⟨hfinite, -⟩ | ⟨rfl, -⟩ | ⟨-, rfl⟩ := finite_or_infinity_of_le hxy
      · exact hfinite
      · exact absurd hx (by decide +kernel)
      · cases hy
    obtain ⟨t, a, ha, rfl⟩ := exists_of_isFinite hx'
    obtain ⟨u, b, hb, rfl⟩ := exists_of_isFinite hy
    rw [Binary64.mul_comm, zero_mul_finite, Binary64.mul_comm (.finite u b hb), zero_mul_finite]
    exact Or.inr (hzeros _ _)
  · rw [Binary64.mul_comm x, Binary64.mul_comm y]
    exact Or.inr (Binary64.mul_le_mul_left hm hpos hxy)
  · -- below an infinite product only that of a zero is not infinite
    obtain ⟨s, rfl⟩ | ⟨n, hn, hpos, rfl⟩ | rfl := zero_or_pos_of_zero_le hx
    · exact Or.inl rfl
    · obtain ⟨s, rfl⟩ | ⟨k, hk, hpos', rfl⟩ | rfl := zero_or_pos_of_zero_le (le_trans hx hxy)
      · have hunits := (le_iff_of_place (place_eq_units rfl) (place_zero s)).mp hxy
        rw [units, signed_false] at hunits
        omega
      · rw [mul_infinity_of_pos hn hpos, mul_infinity_of_pos hk hpos']
        exact Or.inr (by decide +kernel)
      · cases hy
    · obtain ⟨hfinite, -⟩ | ⟨heq, -⟩ | ⟨-, rfl⟩ := finite_or_infinity_of_le hxy
      · cases hfinite
      · cases heq
      · cases hy

lemma exists_one : ∃ h, one = .finite false scale h := by
  obtain ⟨h, heq⟩ := exists_ofInt_eq_finite (z := 1) (k := 1) rfl (by decide)
  simp only [Nat.one_mul] at h heq
  exact ⟨h, heq⟩

protected lemma one_mul (x : Binary64) : one * x = x := by
  obtain ⟨hone, heq⟩ := exists_one
  rw [heq]
  cases x with
  | nan => rfl
  | infinity s => exact mul_infinity_of_pos hone scale_pos s
  | finite s n hn =>
    have hround : roundUnits (scale * n) scale = n := by
      rw [Nat.mul_comm]
      exact roundUnits_mul_self scale_pos hn.onGrid
    rw [finite_mul_finite, ofUnits_of_representable hn hround, Bool.false_bne]

/-! ### Whole numbers -/

/-- A whole number of 64 binary digits is not rounded away, and not far beyond them. -/
lemma exists_ofUnits_eq_finite {n : Nat} (hpos : 0 < n) (hn : n ≤ 18446744073709551616) :
    ∃ m hm, m = roundUnits (n * scale) 1 ∧ scale ≤ m ∧ m ≤ 18446744073709551616 * scale ∧
      ∀ s, ofUnits s (n * scale) 1 = .finite s m hm := by
  have hone : roundUnits (1 * scale) 1 = scale := by
    rw [roundUnits_self (onGrid_mul_scale (by decide)), Nat.one_mul]
  have hword : OnGrid (18446744073709551616 * scale) := by
    obtain ⟨w, hw⟩ := exists_scale_eq (c := 1) (k := 0) rfl (Nat.zero_le _)
    have hpow : 18446744073709551616 * scale = 1 * 2 ^ (64 + w) := by
      rw [hw, Nat.pow_add]
      omega
    rw [hpow]
    exact onGrid_mul_two_pow (by decide) _
  have hmax : 18446744073709551616 * scale ≤ maxUnits := by decide +kernel
  have hlow : scale ≤ roundUnits (n * scale) 1 := by
    calc scale = roundUnits (1 * scale) 1 := hone.symm
      _ ≤ roundUnits (n * scale) 1 := roundUnits_one_mono (Nat.mul_le_mul_right _ (by omega))
  have hhigh : roundUnits (n * scale) 1 ≤ 18446744073709551616 * scale := by
    calc roundUnits (n * scale) 1 ≤ roundUnits (18446744073709551616 * scale) 1 :=
          roundUnits_one_mono (Nat.mul_le_mul_right _ hn)
      _ = 18446744073709551616 * scale := roundUnits_self hword
  have hrepresentable : Representable (roundUnits (n * scale) 1) :=
    (onGrid_roundUnits _ _).representable (Nat.le_trans hhigh hmax)
  exact ⟨_, hrepresentable, rfl, hlow, hhigh, ofUnits_of_representable hrepresentable rfl⟩

/-- A whole number that fits a word is not rounded away. -/
lemma exists_ofInt_eq_finite_of_pos {k : Int} (hpos : 0 < k) (hk : k ≤ -wordMin) :
    ∃ m hm, 0 < m ∧ ofInt k = .finite false m hm ∧ ofInt (-k) = .finite true m hm := by
  obtain ⟨n, rfl⟩ : ∃ n : Nat, k = n := ⟨k.toNat, by omega⟩
  simp only [wordMin] at hk
  obtain ⟨m, hm, -, hlow, -, hvalue⟩ := exists_ofUnits_eq_finite (n := n) (by omega) (by omega)
  refine ⟨m, hm, Nat.lt_of_lt_of_le scale_pos hlow, ?_, ?_⟩
  · rw [ofInt, Int.natAbs_natCast, decide_eq_false (by omega), hvalue]
  · rw [ofInt, Int.natAbs_neg, Int.natAbs_natCast, decide_eq_true (by omega), hvalue]

lemma roundTo_ofInt {z : Int} (hz : z.natAbs ≤ 9007199254740992) : (ofInt z).roundTo wordMin wordMax = z := by
  obtain ⟨hz', hvalue⟩ := exists_ofInt_eq_finite rfl hz
  have hwhole : (2 * (z.natAbs * scale) + scale) / (2 * scale) = z.natAbs := by
    have hpos := scale_pos
    rw [show 2 * (z.natAbs * scale) = 2 * scale * z.natAbs by rw [Nat.mul_comm z.natAbs, Nat.mul_assoc],
      Nat.mul_add_div (by omega), Nat.div_eq_of_lt (by omega), Nat.add_zero]
  rw [hvalue, roundTo, hwhole, clampInt, wordMin, wordMax]
  rcases Int.lt_or_le z 0 with hneg | hnonneg
  · rw [decide_eq_true hneg, signed, if_pos rfl]
    omega
  · rw [decide_eq_false (Int.not_lt.mpr hnonneg), signed_false]
    omega

lemma ofInt_zero : ofInt 0 = zero false := by decide +kernel

/-- Nothing is a multiple of nothing, as far as whole numbers show it. -/
lemma roundTo_zero_mul (s : Bool) (x : Binary64) : (zero s * x).roundTo wordMin wordMax = 0 := by
  cases x with
  | nan => rfl
  | infinity t => rfl
  | finite t n hn =>
    have hnone : (2 * 0 + scale) / (2 * scale) = 0 := Nat.div_eq_of_lt (by have := scale_pos; omega)
    rw [zero_mul_finite, zero, roundTo, hnone]
    cases s != t <;> decide

lemma roundTo_mem {lo hi : Int} (hlo : lo ≤ 0) (hhi : 0 ≤ hi) (x : Binary64) :
    lo ≤ x.roundTo lo hi ∧ x.roundTo lo hi ≤ hi := by
  cases x with
  | nan => exact ⟨hlo, hhi⟩
  | infinity s =>
    rw [roundTo]
    split_ifs <;> omega
  | finite s n hn =>
    rw [roundTo, clampInt]
    omega

/-- The nearest whole numbers are in the same order. -/
lemma roundTo_mono {lo hi : Int} (h : x.le y) (hlo : lo ≤ 0) (hhi : 0 ≤ hi) : x.roundTo lo hi ≤ y.roundTo lo hi := by
  obtain ⟨hx, hy⟩ | ⟨rfl, -⟩ | ⟨-, rfl⟩ := finite_or_infinity_of_le h
  · obtain ⟨s, a, ha, t, b, hb, rfl, rfl, hunits⟩ := exists_signed_le_signed hx hy h
    have hround := signed_le_signed (φ := fun k => (2 * k + scale) / (2 * scale))
      (fun hkl => Nat.div_le_div_right (by omega))
      (Nat.div_eq_of_lt (by have := scale_pos; omega)) hunits
    simp only [roundTo, clampInt]
    omega
  · exact (roundTo_mem hlo hhi y).1
  · exact (roundTo_mem hlo hhi x).2

end Totality.Binary64
