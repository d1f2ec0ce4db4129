import Totality.Proofs.Number.Sum

/-!
# Running sums

A value that grows by one rounded step at a time strays from the exact sum by half a spacing at each addition, and by
what the step itself is off. Among multiples of a power of two it does not stray as long as they need no more than
53 bits.
-/

namespace Totality.Binary64

/-- A magnitude with so many steps added to it, one rounded sum after the other. -/
def runningSum (start step : Nat) : Nat → Nat
  | 0 => start
  | k + 1 => roundUnits (runningSum start step k + step) 1

lemma onGrid_runningSum {start : Nat} (h : OnGrid start) (step k : Nat) : OnGrid (runningSum start step k) := by
  cases k with
  | zero => exact h
  | succ k => exact onGrid_roundUnits _ 1

/-- Longer steps lead no less far. -/
lemma runningSum_mono {start step step' : Nat} (h : step ≤ step') (k : Nat) :
    runningSum start step k ≤ runningSum start step' k := by
  induction k with
  | zero => exact Nat.le_refl _
  | succ k ih => exact roundUnits_one_mono (Nat.add_le_add ih h)

/-! ### Distance from the exact sum -/

/-- `x` lies within half of `e` of the quotient `m / q`. -/
def Within (q m e x : Nat) : Prop := 2 * (q * x) ≤ 2 * m + q * e ∧ 2 * m ≤ 2 * (q * x) + q * e

lemma within_roundUnits (m : Nat) {q : Nat} (hq : 0 < q) : Within q m (spacing (m / q)) (roundUnits m q) := by
  have hround := two_mul_roundUnits_mul_le m hq
  rw [Nat.mul_comm _ q, Nat.mul_comm _ q] at hround
  exact hround

namespace Within

variable {q m e x : Nat}

lemma mono {e' : Nat} (h : Within q m e x) (he : e ≤ e') : Within q m e' x := by
  have := Nat.mul_le_mul_left q he
  exact ⟨Nat.le_trans h.1 (by omega), Nat.le_trans h.2 (by omega)⟩

lemma add {m' e' y : Nat} (h : Within q m e x) (h' : Within q m' e' y) : Within q (m + m') (e + e') (x + y) := by
  obtain ⟨hle, hge⟩ := h
  obtain ⟨hle', hge'⟩ := h'
  rw [Within, Nat.mul_add q x y, Nat.mul_add q e]
  omega

/-- Rounding adds half a spacing to the distance. -/
lemma round (h : Within q m e x) : Within q m (e + spacing x) (roundUnits x 1) := by
  obtain ⟨hle, hge⟩ := h
  have hround := two_mul_roundUnits_mul_le x Nat.one_pos
  rw [Nat.div_one, Nat.mul_one, Nat.mul_one] at hround
  have hup := Nat.mul_le_mul_left q hround.1
  have hdown := Nat.mul_le_mul_left q hround.2
  rw [Nat.mul_add, Nat.mul_left_comm] at hup hdown
  rw [Within, Nat.mul_add]
  rw [Nat.mul_left_comm q 2 x] at hup
  rw [Nat.mul_left_comm q 2 (roundUnits x 1)] at hdown
  omega

end Within

/-- A running sum of multiples of `u / q` is off by half of `σ` for the start, and by twice as much for each step, where
`σ` is the longest spacing on the way. -/
lemma within_runningSum {q u σ top : Nat} (hq : 0 < q) (hσ : ∀ n < top, spacing n ≤ σ) (a t : Nat) {k : Nat}
    (hroom : 2 * ((a + k * t) * u) + q * (2 * k * σ) < 2 * (q * top)) :
    Within q ((a + k * t) * u) ((2 * k + 1) * σ) (runningSum (roundUnits (a * u) q) (roundUnits (t * u) q) k) := by
  induction k with
  | zero =>
    rw [Nat.zero_mul, Nat.add_zero] at hroom ⊢
    have hlt : a * u / q < top := Nat.div_lt_of_lt_mul (by omega)
    rw [Nat.mul_zero, Nat.zero_add, Nat.one_mul]
    exact (within_roundUnits _ hq).mono (hσ _ hlt)
  | succ k ih =>
    have hexact : (a + (k + 1) * t) * u = (a + k * t) * u + t * u := by ring
    have herror : q * (2 * (k + 1) * σ) = q * (2 * k * σ) + q * (2 * σ) := by ring
    rw [hexact, herror] at hroom
    rw [hexact]
    have hsum := ih (by omega)
    have hstep : t * u / q < top := Nat.div_lt_of_lt_mul (by omega)
    have hnext := hsum.add ((within_roundUnits (t * u) hq).mono (hσ _ hstep))
    rw [show (2 * k + 1) * σ + σ = 2 * (k + 1) * σ by ring] at hnext
    -- the exact sum of the two is on the way, too
    have hlt : runningSum (roundUnits (a * u) q) (roundUnits (t * u) q) k + roundUnits (t * u) q < top := by
      have hle := hnext.1
      rw [herror] at hle
      exact Nat.lt_of_mul_lt_mul_left (a := q) (by omega)
    rw [runningSum, show (2 * (k + 1) + 1) * σ = 2 * (k + 1) * σ + σ by ring]
    exact hnext.round.mono (Nat.add_le_add_left (hσ _ hlt) _)

/-! ### Sums without rounding -/

/-- A running sum of multiples of a power of two is exact as long as it needs no more than 53 bits. -/
lemma runningSum_mul_two_pow {x y k : Nat} (j : Nat) (h : x + k * y ≤ 9007199254740992) :
    runningSum (x * 2 ^ j) (y * 2 ^ j) k = (x + k * y) * 2 ^ j := by
  induction k with
  | zero => rw [runningSum, Nat.zero_mul, Nat.add_zero]
  | succ k ih =>
    have hsum : x + k * y + y = x + (k + 1) * y := by ring
    rw [← hsum] at h ⊢
    rw [runningSum, ih (by omega), ← Nat.add_mul, roundUnits_self (onGrid_mul_two_pow h j)]

/-- Beyond that it leads no less far than the exact sum is cut. -/
lemma min_mul_two_pow_le_runningSum {x y k cap : Nat} (j : Nat) (h : cap ≤ 9007199254740992) :
    min (x + k * y) cap * 2 ^ j ≤ runningSum (x * 2 ^ j) (y * 2 ^ j) k := by
  induction k with
  | zero =>
    rw [runningSum, Nat.zero_mul, Nat.add_zero]
    exact Nat.mul_le_mul_right _ (Nat.min_le_left _ _)
  | succ k ih =>
    have hsum : x + (k + 1) * y = x + k * y + y := by ring
    have hle : min (x + (k + 1) * y) cap ≤ min (x + k * y) cap + y := by omega
    have hself := roundUnits_self
      (onGrid_mul_two_pow (Nat.le_trans (Nat.min_le_right (x + (k + 1) * y) cap) h) j)
    calc min (x + (k + 1) * y) cap * 2 ^ j = roundUnits (min (x + (k + 1) * y) cap * 2 ^ j) 1 := hself.symm
      _ ≤ roundUnits (runningSum (x * 2 ^ j) (y * 2 ^ j) k + y * 2 ^ j) 1 := by
        apply roundUnits_one_mono
        calc min (x + (k + 1) * y) cap * 2 ^ j ≤ (min (x + k * y) cap + y) * 2 ^ j := Nat.mul_le_mul_right _ hle
          _ = min (x + k * y) cap * 2 ^ j + y * 2 ^ j := Nat.add_mul _ _ _
          _ ≤ _ := Nat.add_le_add_right ih _

/-! ### Numbers of one sign -/

lemma clampPlace_signed (negative : Bool) (n : Nat) :
    clampPlace (signed negative n) = signed negative (min (roundUnits n 1) horizon) := by
  cases negative with
  | false =>
    rw [signed_false, clampPlace, clampInt, roundInt_natCast, signed_false]
    omega
  | true =>
    simp only [signed, if_true, clampPlace, clampInt, roundInt_neg]
    omega

/-- A step away from zero is a step of the running sum, until this overflows. -/
lemma place_add_signed {x y : Binary64} {negative : Bool} {m n : Nat} (hm : OnGrid m)
    (hx : x.place = some (signed negative (min m horizon))) (hy : y.isFinite) (hn : y.units = signed negative n) :
    (x + y).place = some (signed negative (min (roundUnits (m + n) 1) horizon)) := by
  have hmax := maxUnits_lt_horizon
  have hself := roundUnits_self hm
  have hmono : roundUnits m 1 ≤ roundUnits (m + n) 1 := roundUnits_one_mono (Nat.le_add_right m n)
  rw [hself] at hmono
  rcases finite_or_infinity_of_place hx with ⟨hfinite, hunits⟩ | ⟨rfl, hp⟩ | ⟨rfl, hp⟩
  · have hle := (representable_units hfinite).2
    rw [hunits, natAbs_signed] at hle
    have hsum : x.units + y.units = signed negative (m + n) := by
      rw [hunits, hn, Nat.min_eq_left (by omega)]
      cases negative <;> simp only [signed, if_true, if_false, Bool.false_eq_true] <;> omega
    rw [place_add hfinite hy, hsum, clampPlace_signed]
  · rw [infinity_add hy, place_infinity, signed_false, ← hp, Option.some.injEq]
    cases negative <;> simp only [signed, if_true, if_false, Bool.false_eq_true] at hp ⊢ <;> omega
  · rw [infinity_add hy, place_infinity, Option.some.injEq]
    cases negative <;> simp only [signed, if_true, if_false, Bool.false_eq_true] at hp ⊢ <;> omega

end Totality.Binary64
