import Totality.Event.Curve
import Totality.Proofs.Calendar.Instant
import Totality.Proofs.Number.Products

/-!
# Multiples of a duration

A greater multiple of a duration is a longer one, or a shorter one if the duration runs backwards. Rounding to
microseconds and the range of the words do not change that.
-/

namespace Totality.Duration

open Binary64

variable {d : Duration} {f g : Binary64}

lemma wordMicros_mem (d : Duration) : wordMin ≤ d.wordMicros ∧ d.wordMicros ≤ wordMax := by
  rw [wordMicros]
  split_ifs with h
  · exact h
  · rw [clampInt, wordMin, wordMax]
    omega

/-- The whole microseconds of a duration have its sign. -/
lemma wordMicros_nonneg (h : 0 ≤ d.nanos) : 0 ≤ d.wordMicros := by
  have hmicros : 0 ≤ d.nanos.tdiv 1000 := Int.tdiv_nonneg h (by decide)
  have hmillis : 0 ≤ d.nanos.tdiv 1000000 := Int.tdiv_nonneg h (by decide)
  rw [wordMicros]
  split_ifs
  · exact hmicros
  · rw [clampInt, wordMin, wordMax]
    omega

lemma wordMicros_nonpos (h : d.nanos ≤ 0) : d.wordMicros ≤ 0 := by
  have hquotient : ∀ {k : Int}, 0 ≤ k → d.nanos.tdiv k ≤ 0 := by
    intro k hk
    have hneg := Int.tdiv_nonneg (a := -d.nanos) (by omega) hk
    rw [Int.neg_tdiv] at hneg
    omega
  have hmicros := hquotient (k := 1000) (by decide)
  have hmillis := hquotient (k := 1000000) (by decide)
  rw [wordMicros]
  split_ifs
  · exact hmicros
  · rw [clampInt, wordMin, wordMax]
    omega

lemma nanos_scale (d : Duration) (f : Binary64) :
    (d.scale f).nanos = (ofInt d.wordMicros * f).roundTo wordMin wordMax * 1000 := by
  rw [scale, nanos_ofMicros]

/-- No multiple of a duration without a microsecond is a microsecond long. -/
lemma scale_of_wordMicros_eq_zero (h : d.wordMicros = 0) (f : Binary64) : (d.scale f).nanos = 0 := by
  rw [nanos_scale, h, ofInt_zero, roundTo_zero_mul, Int.zero_mul]

lemma scale_zero (d : Duration) (s : Bool) : (d.scale (.zero s)).nanos = 0 := by
  rw [nanos_scale, Binary64.mul_comm, roundTo_zero_mul, Int.zero_mul]

lemma scale_nan (d : Duration) : (d.scale .nan).nanos = 0 := by
  rw [nanos_scale, Binary64.mul_comm]
  rfl

/-- The multiples of a duration that runs forwards are in the order of the factors. -/
lemma scale_le_scale (hd : 0 ≤ d.nanos) (h : f.le g) : (d.scale f).nanos ≤ (d.scale g).nanos := by
  have hle := (wordMicros_mem d).2
  rcases Int.lt_or_eq_of_le (wordMicros_nonneg hd) with hpos | hzero
  · obtain ⟨m, hm, hm', hfactor, -⟩ := exists_ofInt_eq_finite_of_pos hpos (Int.le_trans hle (by decide))
    have hround : _ ≤ Binary64.roundTo wordMin wordMax _ :=
      roundTo_mono (Binary64.mul_le_mul_left hm hm' h) (by decide) (by decide)
    rw [nanos_scale, nanos_scale, hfactor]
    omega
  · rw [scale_of_wordMicros_eq_zero hzero.symm, scale_of_wordMicros_eq_zero hzero.symm]

/-- Those of a duration that runs backwards are in the reverse order. -/
lemma scale_le_scale_of_nonpos (hd : d.nanos ≤ 0) (h : f.le g) : (d.scale g).nanos ≤ (d.scale f).nanos := by
  have hge := (wordMicros_mem d).1
  rcases Int.lt_or_eq_of_le (wordMicros_nonpos hd) with hneg | hzero
  · obtain ⟨m, hm, hm', -, hfactor⟩ := exists_ofInt_eq_finite_of_pos (Int.neg_pos_of_neg hneg) (Int.neg_le_neg hge)
    have hreverse : (Binary64.finite true m hm * g).le (.finite true m hm * f) := by
      change (-Binary64.finite false m hm * g).le (-Binary64.finite false m hm * f)
      rw [Binary64.neg_mul, Binary64.neg_mul, Binary64.neg_le_neg_iff]
      exact Binary64.mul_le_mul_left hm hm' h
    have hround : _ ≤ Binary64.roundTo wordMin wordMax _ := roundTo_mono hreverse (by decide) (by decide)
    rw [Int.neg_neg] at hfactor
    rw [nanos_scale, nanos_scale, hfactor]
    omega
  · rw [scale_of_wordMicros_eq_zero hzero, scale_of_wordMicros_eq_zero hzero]

end Totality.Duration
