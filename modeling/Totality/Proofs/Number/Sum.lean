import Mathlib.Tactic.Lemma
import Mathlib.Tactic.Ring
import Totality.Proofs.Number.Rounding

/-!
# Rounded sums

A whole number of units, of either sign, rounds to the grid as its magnitude does. Adding a step to a number on
the grid leads to a later one from half the gap on; a step of half the gap is a tie, which moves odd significands
only.
-/

namespace Totality.Binary64

/-! ### Places on the grid -/

/-- A whole number of units rounded to the grid, as if the exponent had no upper bound. -/
def roundInt (z : Int) : Int := signed (decide (z < 0)) (roundUnits z.natAbs 1)

/-- The distance from a place on the grid up to the next one. -/
def gapAbove (z : Int) : Nat := if 0 ≤ z then spacing z.natAbs else gapBelow z.natAbs

lemma roundInt_natCast (n : Nat) : roundInt n = roundUnits n 1 := by
  have : ¬(n : Int) < 0 := by omega
  simp [roundInt, signed, this]

lemma roundInt_neg (n : Nat) : roundInt (-n) = -(roundUnits n 1 : Int) := by
  rcases Nat.eq_zero_or_pos n with rfl | hn
  · decide
  · have : -(n : Int) < 0 := by omega
    simp [roundInt, signed, hn]

@[simp] lemma gapAbove_natCast (n : Nat) : gapAbove n = spacing n := by
  simp [gapAbove]

lemma gapAbove_neg {n : Nat} (h : 0 < n) : gapAbove (-n) = gapBelow n := by
  have : ¬0 ≤ -(n : Int) := by omega
  simp [gapAbove, h.ne']

/-- A place is a magnitude or the negative of a positive one. -/
lemma exists_natAbs (z : Int) : (∃ n : Nat, z = n) ∨ ∃ n : Nat, 0 < n ∧ z = -n := by
  rcases Int.lt_or_le z 0 with h | h
  · exact Or.inr ⟨z.natAbs, by omega, by omega⟩
  · exact Or.inl ⟨z.natAbs, by omega⟩

lemma onGrid_roundInt (z : Int) : OnGrid (roundInt z).natAbs := by
  rw [roundInt, signed]
  split_ifs <;> simpa using onGrid_roundUnits z.natAbs 1

/-- A place on the grid rounds to itself. -/
lemma roundInt_self {z : Int} (h : OnGrid z.natAbs) : roundInt z = z := by
  have hself := roundUnits_self h
  obtain ⟨n, rfl⟩ | ⟨n, hn, rfl⟩ := exists_natAbs z
  · rw [roundInt_natCast]
    exact congrArg Nat.cast (by simpa using hself)
  · rw [roundInt_neg]
    exact congrArg (fun m : Nat => -(m : Int)) (by simpa using hself)

lemma roundUnits_one_mono {m n : Nat} (h : m ≤ n) : roundUnits m 1 ≤ roundUnits n 1 :=
  roundUnits_mono Nat.one_pos Nat.one_pos (by omega)

lemma roundInt_mono {z w : Int} (h : z ≤ w) : roundInt z ≤ roundInt w := by
  obtain ⟨m, rfl⟩ | ⟨m, hm, rfl⟩ := exists_natAbs z <;>
    obtain ⟨n, rfl⟩ | ⟨n, hn, rfl⟩ := exists_natAbs w
  · have := roundUnits_one_mono (m := m) (n := n) (by omega)
    rw [roundInt_natCast, roundInt_natCast]
    omega
  · omega
  · rw [roundInt_neg, roundInt_natCast]
    omega
  · have := roundUnits_one_mono (m := n) (n := m) (by omega)
    rw [roundInt_neg, roundInt_neg]
    omega

/-! ### Gaps -/

/-- There is no place on the grid within the gap above another. -/
lemma add_gapAbove_le {v w : Int} (hv : OnGrid v.natAbs) (hw : OnGrid w.natAbs) (h : v < w) :
    v + gapAbove v ≤ w := by
  obtain ⟨m, rfl⟩ | ⟨m, hm, rfl⟩ := exists_natAbs v <;>
    obtain ⟨n, rfl⟩ | ⟨n, hn, rfl⟩ := exists_natAbs w
  · have := OnGrid.add_spacing_le_of_lt hv hw (by simpa using h)
    simp at this ⊢
    omega
  · omega
  · have := OnGrid.gapBelow_le hv (by omega)
    rw [gapAbove_neg hm]
    simp at this
    omega
  · have := OnGrid.add_gapBelow_le hw hv (by omega)
    rw [gapAbove_neg hm]
    simp at this
    omega

/-- The gap above a place on the grid is at most twice as long as the way to it from an earlier place. -/
lemma gapAbove_le_two_mul_sub {v w : Int} (hv : OnGrid v.natAbs) (hw : OnGrid w.natAbs) (h : v < w) :
    (gapAbove w : Int) ≤ 2 * (w - v) := by
  have hgap := add_gapAbove_le hv hw h
  obtain ⟨n, rfl⟩ | ⟨n, hn, rfl⟩ := exists_natAbs w
  · -- the way up to a magnitude is the gap below it at least
    rw [gapAbove_natCast]
    have htwo := spacing_le_two_mul_gapBelow n
    obtain ⟨m, rfl⟩ | ⟨m, hm, rfl⟩ := exists_natAbs v
    · have := OnGrid.add_gapBelow_le hv hw (by simpa using h)
      simp at this
      omega
    · rcases Nat.eq_zero_or_pos n with rfl | hn
      · have := spacing_eq_one (n := 0) (by decide)
        omega
      · have := OnGrid.gapBelow_le hw (by simpa using hn)
        simp at this
        omega
  · -- the gaps above negative places fall
    obtain ⟨m, rfl⟩ | ⟨m, hm, rfl⟩ := exists_natAbs v
    · omega
    · have := gapBelow_mono hw hv (by omega)
      rw [gapAbove_neg hm] at hgap
      rw [gapAbove_neg hn]
      simp at this
      omega

/-- The gap above a place between two others is no longer than the longer one of theirs. -/
lemma gapAbove_le_max {a v b : Int} (ha : OnGrid a.natAbs) (hv : OnGrid v.natAbs) (hav : a ≤ v)
    (hvb : v ≤ b) : gapAbove v ≤ max (gapAbove a) (gapAbove b) := by
  obtain ⟨n, rfl⟩ | ⟨n, hn, rfl⟩ := exists_natAbs v
  · obtain ⟨k, rfl⟩ : ∃ k : Nat, b = k := ⟨b.toNat, by omega⟩
    have := spacing_mono (m := n) (n := k) (by omega)
    rw [gapAbove_natCast, gapAbove_natCast]
    omega
  · obtain ⟨m, rfl⟩ : ∃ m : Nat, a = -m := ⟨(-a).toNat, by omega⟩
    have := gapBelow_mono hv ha (by omega)
    rw [gapAbove_neg hn, gapAbove_neg (by omega)]
    simp at this
    omega

/-! ### Steps -/

/-- Rounding moves a number down by half the gap above its place at most. -/
lemma two_mul_le_two_mul_roundInt_add (z : Int) : 2 * z ≤ 2 * roundInt z + gapAbove (roundInt z) := by
  obtain ⟨n, rfl⟩ | ⟨n, hn, rfl⟩ := exists_natAbs z
  · have hgrid := onGrid_roundUnits n 1
    have := (roundUnits_le_iff Nat.one_pos hgrid).mp (Nat.le_refl _)
    rw [roundInt_natCast, gapAbove_natCast]
    omega
  · rw [roundInt_neg]
    have hgrid := onGrid_roundUnits n 1
    rcases Nat.eq_zero_or_pos (roundUnits n 1) with h0 | hpos
    · rw [h0]
      omega
    · have := (roundUnits_lt_iff Nat.one_pos hgrid hpos).not.mp (Nat.lt_irrefl _)
      rw [gapAbove_neg hpos]
      omega

/-- A step from a place on the grid leads to a later place from half the gap on, where half the gap is a tie. -/
lemma lt_roundInt_add_iff {v : Int} {d : Nat} (hv : OnGrid v.natAbs) (hd : 0 < d) :
    v < roundInt (v + d) ↔
      gapAbove v < 2 * d ∨ gapAbove v = 2 * d ∧ v.natAbs / gapAbove v % 2 = 1 := by
  obtain ⟨n, rfl⟩ | ⟨n, hn, rfl⟩ := exists_natAbs v
  · rw [Int.natAbs_natCast] at hv ⊢
    have hle := @roundUnits_le_iff (n + d) 1 n Nat.one_pos hv
    have hcast : ((n : Int) + d) = (n + d : Nat) := by omega
    rw [hcast, roundInt_natCast, gapAbove_natCast]
    omega
  · rw [Int.natAbs_neg, Int.natAbs_natCast] at hv ⊢
    have hgap := hv.gapBelow_le hn
    rw [gapAbove_neg hn]
    rcases Nat.lt_or_ge d n with hlt | hge
    · have hle := @roundUnits_lt_iff (n - d) 1 n Nat.one_pos hv hn
      have hcast : (-(n : Int) + d) = -(n - d : Nat) := by omega
      rw [hcast, roundInt_neg]
      omega
    · have hcast : (-(n : Int) + d) = (d - n : Nat) := by omega
      rw [hcast, roundInt_natCast]
      exact iff_of_true (by omega) (Or.inl (by omega))

/-- A step that leads to a later place at all leads at least half its way. -/
lemma le_two_mul_roundInt_sub {v : Int} {d : Nat} (hv : OnGrid v.natAbs) (h : v < roundInt (v + d)) :
    (d : Int) ≤ 2 * (roundInt (v + d) - v) := by
  have hround := two_mul_le_two_mul_roundInt_add (v + d)
  have hgap := gapAbove_le_two_mul_sub hv (onGrid_roundInt _) h
  omega

/-- A step up never leads down. -/
lemma le_roundInt_add {v : Int} (hv : OnGrid v.natAbs) (d : Nat) : v ≤ roundInt (v + d) := by
  calc v = roundInt v := (roundInt_self hv).symm
    _ ≤ roundInt (v + d) := roundInt_mono (by omega)

/-! ### Sums of numbers -/

/-- The place of both infinities, less the sign. -/
def horizon : Nat := Nat.pow 2 2098

lemma onGrid_maxUnits : OnGrid maxUnits := by
  unfold OnGrid
  decide +kernel

lemma maxUnits_add_spacing : maxUnits + spacing maxUnits = horizon := by decide +kernel

lemma maxUnits_lt_horizon : maxUnits < horizon := by
  rw [← maxUnits_add_spacing]
  exact Nat.lt_add_of_pos_right (spacing_pos _)

/-- The magnitudes on the grid that overflow reach the place of the infinities. -/
lemma OnGrid.horizon_le {n : Nat} (h : OnGrid n) (hn : maxUnits < n) : horizon ≤ n :=
  maxUnits_add_spacing ▸ onGrid_maxUnits.add_spacing_le_of_lt h hn

lemma place_infinity (negative : Bool) : (infinity negative).place = some (signed negative horizon) := by
  rw [place, horizon]

/-- A number that is rounded has the place of what it rounds to, or that of an infinity. -/
lemma place_ofUnits (negative : Bool) (num den : Nat) :
    (ofUnits negative num den).place = some (signed negative (min (roundUnits num den) horizon)) := by
  have hgrid := onGrid_roundUnits num den
  have hmax := maxUnits_lt_horizon
  rw [ofUnits]
  split_ifs with h
  · rw [Nat.min_eq_left (Nat.le_trans h.2 (Nat.le_of_lt hmax))]
    rfl
  · have hn : maxUnits < roundUnits num den := by
      by_contra hle
      exact h (hgrid.representable (Nat.not_lt.mp hle))
    rw [Nat.min_eq_right (hgrid.horizon_le hn), place_infinity]

/-- The place that a number of units, rounded, comes to. -/
def clampPlace (z : Int) : Int := clampInt (-horizon) horizon (roundInt z)

lemma clampPlace_eq (z : Int) :
    clampPlace z = signed (decide (z < 0)) (min (roundUnits z.natAbs 1) horizon) := by
  rw [clampPlace, clampInt, roundInt, signed, signed]
  split_ifs <;> omega

lemma clampPlace_zero : clampPlace 0 = 0 := by
  rw [clampPlace, clampInt, roundInt_self (Nat.dvd_zero _)]
  omega

lemma lt_clampPlace_iff {w z : Int} (hw : w.natAbs ≤ maxUnits) : w < clampPlace z ↔ w < roundInt z := by
  have := maxUnits_lt_horizon
  rw [clampPlace, clampInt]
  omega

/-- The place of a finite number, and zero for the others. -/
def units : Binary64 → Int
  | .finite s n _ => signed s n
  | _ => 0

lemma place_eq_units {x : Binary64} (h : x.isFinite) : x.place = some x.units := by
  cases x <;> simp_all [isFinite, place, units]

lemma signed_false (n : Nat) : signed false n = n := rfl

lemma natAbs_signed (negative : Bool) (n : Nat) : (signed negative n).natAbs = n := by
  cases negative <;> simp [signed]

/-- A number with a place is finite, or an infinity at one of the ends of the places. -/
lemma finite_or_infinity_of_place {x : Binary64} {p : Int} (h : x.place = some p) :
    x.isFinite ∧ x.units = p ∨ x = infinity false ∧ p = horizon ∨ x = infinity true ∧ p = -horizon := by
  cases x with
  | nan => cases h
  | finite s n hn => exact Or.inl ⟨rfl, Option.some.inj h⟩
  | infinity s =>
    rw [place_infinity, Option.some.injEq] at h
    cases s with
    | false => exact Or.inr (Or.inl ⟨rfl, h.symm⟩)
    | true => exact Or.inr (Or.inr ⟨rfl, h.symm⟩)

lemma representable_units {x : Binary64} (h : x.isFinite) : Representable x.units.natAbs := by
  cases x with
  | finite s n hn => simpa [units, natAbs_signed] using hn
  | nan => simp [isFinite] at h
  | infinity s => simp [isFinite] at h

/-- A sum has the place of the exact sum, rounded. -/
lemma place_add {x y : Binary64} (hx : x.isFinite) (hy : y.isFinite) :
    (x + y).place = some (clampPlace (x.units + y.units)) := by
  cases x with
  | nan => simp [isFinite] at hx
  | infinity s => simp [isFinite] at hx
  | finite s m hm =>
    cases y with
    | nan => simp [isFinite] at hy
    | infinity t => simp [isFinite] at hy
    | finite t n hn =>
      change (if signed s m + signed t n = 0 then zero (s && t) else _).place = _
      simp only [units]
      generalize signed s m + signed t n = z
      split_ifs with hz
      · rw [hz, clampPlace_zero]
        cases s <;> cases t <;> rfl
      · rw [place_ofUnits, clampPlace_eq]

@[simp] lemma isFinite_neg (x : Binary64) : (-x).isFinite = x.isFinite := by
  cases x <;> rfl

@[simp] lemma units_neg (x : Binary64) : (-x).units = -x.units := by
  cases x with
  | nan => rfl
  | infinity s => rfl
  | finite s n hn =>
    change signed (!s) n = -signed s n
    cases s <;> simp [signed]

/-- A difference has the place of the exact difference, rounded. -/
lemma place_sub {x y : Binary64} (hx : x.isFinite) (hy : y.isFinite) :
    (x - y).place = some (clampPlace (x.units - y.units)) := by
  have hsub := place_add hx (y := -y) (by rwa [isFinite_neg])
  rw [units_neg, ← Int.sub_eq_add_neg] at hsub
  exact hsub

lemma infinity_add {y : Binary64} (hy : y.isFinite) (s : Bool) : infinity s + y = infinity s := by
  cases y with
  | finite t n hn => rfl
  | nan => simp [isFinite] at hy
  | infinity t => simp [isFinite] at hy

lemma finite_mul_finite (s t : Bool) {m n : Nat} (hm : Representable m) (hn : Representable n) :
    Binary64.finite s m hm * .finite t n hn = ofUnits (s != t) (m * n) scale := by
  change mul _ _ = _
  rw [mul]

lemma infinity_mul_finite (s t : Bool) {n : Nat} (hn : Representable n) (hpos : 0 < n) :
    infinity s * .finite t n hn = infinity (s != t) := by
  change mul _ _ = _
  rw [mul, if_neg (by omega)]

/-! ### Quotients of positive numbers -/

lemma exists_of_units_pos {x : Binary64} (h : 0 < x.units) :
    ∃ n hn, x = .finite false n hn ∧ x.units = n ∧ 0 < n := by
  cases x with
  | nan => simp [units] at h
  | infinity s => simp [units] at h
  | finite s n hn =>
    cases s with
    | true =>
      simp [units, signed] at h
      omega
    | false => exact ⟨n, hn, rfl, rfl, by simpa [units, signed] using h⟩

lemma place_div_of_pos {x y : Binary64} {m n : Nat} (hm : 0 < m) (hx : x.units = m) (hn : 0 < n)
    (hy : y.units = n) : (x / y).place = some ((min (roundUnits (m * scale) n) horizon : Nat) : Int) := by
  obtain ⟨m', hm', rfl, hxm, -⟩ := exists_of_units_pos (x := x) (by omega)
  obtain ⟨n', hn', rfl, hyn, -⟩ := exists_of_units_pos (x := y) (by omega)
  obtain rfl : m' = m := by omega
  obtain rfl : n' = n := by omega
  change (if n' = 0 then (if m' = 0 then Binary64.nan else .infinity (false != false)) else
    ofUnits (false != false) (m' * scale) n').place = _
  rw [if_neg (by omega), place_ofUnits]
  rfl

end Totality.Binary64
