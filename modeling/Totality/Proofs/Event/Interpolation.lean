import Totality.Proofs.Event.Bracket
import Totality.Proofs.Event.Overshoot
import Totality.Proofs.Number.Numeral
import Totality.Proofs.Number.Products

/-!
# Interpolation stays between its readings

The fraction that a target makes of the way between two magnitudes is rounded, but not beyond one, and it is
not-a-number only where the whole way is infinite. So the instant in proportion lies between those of the readings, as
long as the microseconds between them are numbers without rounding.
-/

namespace Totality

open Binary64

namespace Binary64

/-- A rounded fraction of one, or not-a-number. -/
def IsFraction (x : Binary64) : Prop := x = .nan ∨ ∃ n h, x = .finite false n h ∧ n ≤ scale

variable {x y : Binary64}

lemma onGrid_scale : OnGrid scale := by
  have hgrid := onGrid_mul_scale (k := 1) (by decide)
  rwa [Nat.one_mul] at hgrid

/-- A magnitude has at most one part of a greater one. -/
lemma isFraction_div {m n : Nat} (hm : Representable m) (hn : Representable n) (hpos : 0 < n) (hle : m ≤ n) :
    IsFraction (Binary64.finite false m hm / .finite false n hn) := by
  have hround : roundUnits (m * scale) n ≤ scale := by
    have hself := roundUnits_mul_self hpos onGrid_scale
    calc roundUnits (m * scale) n ≤ roundUnits (scale * n) n := by
          apply roundUnits_mono hpos hpos
          rw [Nat.mul_comm m]
          exact Nat.mul_le_mul_right _ (Nat.mul_le_mul_left _ hle)
      _ = scale := hself
  have hrepresentable : Representable (roundUnits (m * scale) n) := by
    have hmax := mul_scale_le_maxUnits (k := 1) (by decide)
    rw [Nat.one_mul] at hmax
    exact (onGrid_roundUnits _ _).representable (Nat.le_trans hround hmax)
  have hdiv : Binary64.finite false m hm / .finite false n hn = ofUnits false (m * scale) n := by
    change div _ _ = _
    rw [div, if_neg (by omega)]
    rfl
  rw [hdiv, ofUnits_of_representable hrepresentable rfl]
  exact Or.inr ⟨_, hrepresentable, rfl, hround⟩

lemma isFraction_zero : IsFraction (.zero false) := Or.inr ⟨0, representable_zero, rfl, Nat.zero_le _⟩

/-- A positive number has at most one part of a greater one, unless both are infinite. -/
lemma isFraction_div_of_le (hpos : (zero false).lt x) (hle : x.le y) : IsFraction (x / y) := by
  rcases finite_or_infinity_of_pos hpos with ⟨m, hm, rfl, -⟩ | rfl
  · rcases finite_or_infinity_of_pos (lt_of_lt_of_le hpos hle) with ⟨n, hn, rfl, hn'⟩ | rfl
    · have hplace := (le_iff_of_place (place_eq_units (x := .finite false m hm) rfl)
        (place_eq_units (x := .finite false n hn) rfl)).mp hle
      exact isFraction_div hm hn hn' (Int.ofNat_le.mp hplace)
    · exact isFraction_zero
  · rcases finite_or_infinity_of_pos (lt_of_lt_of_le hpos hle) with ⟨n, hn, rfl, -⟩ | rfl
    · -- nothing finite is above an infinity
      have hmem := units_mem_horizon (x := .finite false n hn) rfl
      have hplace := (le_iff_of_place (place_infinity false) (place_eq_units (x := .finite false n hn) rfl)).mp hle
      rw [signed_false] at hplace
      omega
    · exact Or.inl rfl

/-- What a target is above one number is not more than what a greater number is. -/
lemma sub_le_sub_of_lt {low high : Binary64} (hx : x.isFinite) (hlow : low.lt x) (hhigh : x.lt high) :
    (x - low).le (high - low) := by
  rcases finite_or_infinity_of_lt hlow with ⟨hlow', -⟩ | ⟨rfl, -⟩ | ⟨-, rfl⟩
  · rcases finite_or_infinity_of_lt hhigh with ⟨-, hhigh'⟩ | ⟨rfl, -⟩ | ⟨-, rfl⟩
    · have hplace := (lt_iff_of_place (place_eq_units hx) (place_eq_units hhigh')).mp hhigh
      rw [le_iff_of_place (place_sub hx hlow') (place_sub hhigh' hlow')]
      exact clampPlace_mono (by omega)
    · cases hx
    · rw [infinity_false_sub hlow', le_iff_of_place (place_sub hx hlow') (place_infinity false), signed_false,
        clampPlace, clampInt]
      omega
  · have hhigh' : high.isFinite ∨ high = infinity false := by
      rcases finite_or_infinity_of_lt hhigh with ⟨-, hhigh'⟩ | ⟨rfl, -⟩ | ⟨-, rfl⟩
      · exact Or.inl hhigh'
      · cases hx
      · exact Or.inr rfl
    rw [sub_infinity_true (Or.inl hx), sub_infinity_true hhigh', le_iff_of_place (place_infinity _) (place_infinity _)]
  · cases hx

/-- The fraction of the way to a target between two numbers. -/
lemma isFraction_of_lt {low high : Binary64} (hx : x.isFinite) (hlow : low.lt x) (hhigh : x.lt high) :
    IsFraction ((x - low) / (high - low)) :=
  isFraction_div_of_le (zero_lt_sub hlow) (sub_le_sub_of_lt hx hlow hhigh)

end Binary64

namespace Duration

lemma tdiv_thousand (z : Int) :
    0 ≤ z ∧ z.tdiv 1000 = z / 1000 ∨ z < 0 ∧ z.tdiv 1000 = -(-z / 1000) := by
  rcases Int.lt_or_le z 0 with hneg | hnonneg
  · refine Or.inr ⟨hneg, ?_⟩
    rw [← Int.tdiv_eq_ediv_of_nonneg (by omega), Int.neg_tdiv, Int.neg_neg]
  · exact Or.inl ⟨hnonneg, Int.tdiv_eq_ediv_of_nonneg hnonneg⟩

/-- A duration that is short enough fits a word in whole microseconds. -/
lemma wordMicros_eq {d : Duration} (hd : d.nanos.natAbs < 9007199254740992000) :
    d.wordMicros = d.nanos.tdiv 1000 := by
  have hdiv := tdiv_thousand d.nanos
  rw [wordMicros, if_pos]
  simp only [wordMin, wordMax]
  omega

end Duration

namespace Binary64

/-- A fraction of a whole number is rounded to one between nothing and that number. -/
lemma roundTo_ofInt_mul {z : Int} (hz : z.natAbs < 9007199254740992) {f : Binary64} (hf : f.IsFraction) :
    ∃ n ≤ z.natAbs, (ofInt z * f).roundTo wordMin wordMax = signed (decide (z < 0)) n := by
  rcases hf with rfl | ⟨n, hn, rfl, hle⟩
  · refine ⟨0, Nat.zero_le _, ?_⟩
    have hnan : ofInt z * .nan = .nan := by
      change mul _ _ = _
      cases ofInt z <;> rfl
    rw [hnan, roundTo]
    cases decide (z < 0) <;> rfl
  · have hle' := Nat.le_of_lt hz
    obtain ⟨hz', hfactor⟩ := exists_ofInt_eq_finite rfl hle'
    have hround : roundUnits (z.natAbs * scale * n) scale ≤ z.natAbs * scale := by
      calc roundUnits (z.natAbs * scale * n) scale ≤ roundUnits (z.natAbs * scale) 1 := by
            apply roundUnits_mono scale_pos Nat.one_pos
            rw [Nat.mul_one]
            exact Nat.mul_le_mul_left _ hle
        _ = z.natAbs * scale := roundUnits_self (onGrid_mul_scale hle')
    have hrepresentable : Representable (roundUnits (z.natAbs * scale * n) scale) :=
      (onGrid_roundUnits _ _).representable (Nat.le_trans hround (mul_scale_le_maxUnits hle'))
    rw [hfactor, finite_mul_finite, ofUnits_of_representable hrepresentable rfl, roundTo, Bool.bne_false]
    have hquotient : (2 * roundUnits (z.natAbs * scale * n) scale + scale) / (2 * scale) ≤ z.natAbs := by
      apply Nat.le_of_lt_succ
      apply Nat.div_lt_of_lt_mul
      have htop : 2 * scale * (z.natAbs + 1) = 2 * (z.natAbs * scale) + 2 * scale := by ring
      have hpos := scale_pos
      rw [Nat.succ_eq_add_one, htop]
      omega
    refine ⟨_, hquotient, ?_⟩
    generalize (2 * roundUnits (z.natAbs * scale * n) scale + scale) / (2 * scale) = q at *
    rw [clampInt, wordMin, wordMax]
    cases decide (z < 0) <;> simp only [signed, if_true, if_false, Bool.false_eq_true] <;> omega

end Binary64

namespace Duration

/-- A fraction of a duration lies between nothing and the whole of it. -/
lemma scale_between {d : Duration} (hd : d.nanos.natAbs < 9007199254740992000) {f : Binary64} (hf : f.IsFraction) :
    min 0 d.nanos ≤ (d.scale f).nanos ∧ (d.scale f).nanos ≤ max 0 d.nanos := by
  have hdiv := tdiv_thousand d.nanos
  have hmicros : (d.nanos.tdiv 1000).natAbs < 9007199254740992 := by omega
  obtain ⟨n, hn, hround⟩ := roundTo_ofInt_mul hmicros hf
  rw [scale, wordMicros_eq hd, hround, nanos_ofMicros]
  rcases Int.lt_or_le (d.nanos.tdiv 1000) 0 with hneg | hnonneg
  · rw [decide_eq_true hneg, signed, if_pos rfl]
    omega
  · rw [decide_eq_false (Int.not_lt.mpr hnonneg), signed_false]
    omega

end Duration

namespace Curve

variable {curve : List (Reading Instant)} {target : Binary64} {low high : Reading Instant}

/-- The instant in proportion between two readings lies between theirs. -/
lemma between_eq_reached (ht : target.isFinite) (hlow : low.magnitude.lt target) (hhigh : target.lt high.magnitude)
    (hshort : (high.time.nanos - low.time.nanos).natAbs < 9007199254740992000) :
    ∃ t, between low high target = .reached t ∧ min low.time.nanos high.time.nanos ≤ t.nanos ∧
      t.nanos ≤ max low.time.nanos high.time.nanos := by
  obtain ⟨hge, hle⟩ := Duration.scale_between (d := high.time.since low.time) hshort (isFraction_of_lt ht hlow hhigh)
  have hsince : (high.time.since low.time).nanos = high.time.nanos - low.time.nanos := rfl
  rw [between, TimeScale.add?_instant, TimeScale.since_instant]
  generalize (high.time.since low.time).scale ((target - low.magnitude) / (high.magnitude - low.magnitude)) = d at *
  split
  · next t htime =>
    rw [Instant.add?_eq_some_iff] at htime
    exact ⟨t, rfl, by omega, by omega⟩
  · next hnone =>
    -- the calendar has all instants between two of its own
    have hlowMem := low.time.mem
    have hhighMem := high.time.mem
    refine absurd ?_ (Instant.add?_eq_none_iff.mp hnone)
    rw [InCalendar]
    omega

/-- Two neighbours with the target strictly between them are its bounds. -/
lemma bounds?_of_neighbours (h : Ascending curve) {i : Nat} (hlow : curve[i]? = some low)
    (hhigh : curve[i + 1]? = some high) (hlt : low.magnitude.lt target) (hlt' : target.lt high.magnitude) :
    bounds? curve target = some (i, i + 1) := by
  obtain ⟨hlowNan, hnan⟩ := ne_nan_of_le (le_of_lt hlt)
  have hhighNan := (ne_nan_of_le (le_of_lt hlt')).2
  have hfront : i < front curve target ↔ _ := lt_front_iff h hlow
  have hfront' : i + 1 < front curve target ↔ _ := lt_front_iff h hhigh
  have hback : curve.length - back curve target ≤ i ↔ _ := length_sub_back_le_iff h hlow
  have hback' : curve.length - back curve target ≤ i + 1 ↔ _ := length_sub_back_le_iff h hhigh
  have hlength := back_le_length curve target
  have hi := (List.getElem?_eq_some_iff.mp hhigh).1
  rw [iff_true_right (le_of_lt hlt)] at hfront
  rw [iff_true_right (le_of_lt hlt')] at hback'
  rw [iff_false_right ((not_le_iff_lt hhighNan hnan).mpr hlt')] at hfront'
  rw [iff_false_right ((not_le_iff_lt hnan hlowNan).mpr hlt)] at hback
  rw [bounds?_eq, if_neg (by omega)]
  congr 2 <;> omega

/-- Between two neighbours on a limb the curve is reached between their instants. -/
lemma crossing_between_neighbours (h : Ascending curve) (ht : target.isFinite) {i : Nat} (hlow : curve[i]? = some low)
    (hhigh : curve[i + 1]? = some high) (hlt : low.magnitude.lt target) (hlt' : target.lt high.magnitude)
    (hshort : (high.time.nanos - low.time.nanos).natAbs < 9007199254740992000) :
    ∃ t, crossing curve target = .reached t ∧ min low.time.nanos high.time.nanos ≤ t.nanos ∧
      t.nanos ≤ max low.time.nanos high.time.nanos := by
  have hbounds := bounds?_of_neighbours h hlow hhigh hlt hlt'
  have hstraddled : Straddled curve target i (i + 1) := ⟨rfl, low, high, hlow, hhigh, hlt, hlt'⟩
  rw [hstraddled.crossing_eq hbounds hlow hhigh]
  exact between_eq_reached ht hlt hlt' hshort

end Curve

end Totality
