import Mathlib.Tactic.Lemma
import Totality.Proofs.Except
import Totality.Proofs.Script.Ascent
import Totality.Script.Statement

/-!
# The opening of a loop

A statement that opens a sweep is checked with a few rounded sums and one rounded quotient. What these checks say
about the exact places of the start, the step and the end is `Admitted`. The numbers of a loop stand in the fields of
its statement.
-/

namespace Totality

open Binary64

namespace Sweep

/-- What the checks of a statement say about the places of a sweep. -/
structure Admitted (s : Sweep) : Prop where
  isFinite_start : s.start.isFinite
  isFinite_step : s.step.isFinite
  isFinite_stop : s.stop.isFinite
  step_pos : 0 < s.step.units
  leaves_start : s.start.units < roundInt (s.start.units + s.step.units)
  leaves_stop : s.stop.units < roundInt (s.stop.units + s.step.units)
  /-- The quotient is off by less than `2 ^ -37`. -/
  quotient_le : 2 ^ 37 * roundInt (s.stop.units - s.start.units) ≤ (2 ^ 37 * maxIterations + 1) * s.step.units

/-! ### The rounded checks -/

lemma lt_units_of_not_le {x d : Binary64} (hx : x.isFinite) (hd : d.isFinite) (h : ¬(x + d).le x) :
    x.units < roundInt (x.units + d.units) := by
  have hmax := (representable_units hx).2
  rw [le, place_add hx hd, place_eq_units hx] at h
  exact (lt_clampPlace_iff hmax).mp (by simpa using h)

lemma units_pos_of_not_le {d : Binary64} (hd : d.isFinite) (h : ¬d.le (.zero false)) : 0 < d.units := by
  have hzero : (zero false).place = some 0 := rfl
  rw [le, place_eq_units hd, hzero] at h
  simpa using h

lemma scale_eq_mul_spacing : scale = 68719476736 * spacing (maxIterations * scale) := by decide +kernel

lemma onGrid_allowance : OnGrid (maxIterations * scale) := onGrid_mul_scale (by decide)

lemma allowance_lt_horizon : maxIterations * scale < horizon :=
  Nat.lt_of_le_of_lt (mul_scale_le_maxUnits (by decide)) maxUnits_lt_horizon

lemma place_allowance : (ofInt maxIterations).place = some ((maxIterations * scale : Nat) : Int) := by
  have hself := roundUnits_self onGrid_allowance
  rw [ofInt, place_ofUnits, Int.natAbs_natCast, hself, Nat.min_eq_left (Nat.le_of_lt allowance_lt_horizon)]
  rfl

/-- Rounding the quotient takes away less than `2 ^ -37`. -/
lemma quotient_le_of_roundUnits {n d : Nat} (hd : 0 < d) (h : roundUnits (n * scale) d ≤ maxIterations * scale) :
    2 ^ 37 * n ≤ (2 ^ 37 * maxIterations + 1) * d := by
  have hpos := spacing_pos (maxIterations * scale)
  have hscale := scale_eq_mul_spacing
  rw [roundUnits_le_iff hd onGrid_allowance] at h
  generalize spacing (maxIterations * scale) = u at *
  have hleft : 2 * (n * scale) = u * (2 ^ 37 * n) := by rw [hscale]; ring
  have hright : (2 * (maxIterations * scale) + u) * d = u * ((2 ^ 37 * maxIterations + 1) * d) := by
    rw [hscale]
    ring
  rw [hleft, hright] at h
  exact Nat.le_of_mul_le_mul_left (by omega) hpos

/-- Rounding the distance takes away a part in `2 ^ 53`. -/
lemma two_mul_le_of_quotient_le {distance d : Nat}
    (h : 2 ^ 37 * roundUnits distance 1 ≤ (2 ^ 37 * maxIterations + 1) * d) :
    2 * distance ≤ (2 * maxIterations + 1) * d := by
  have hgrid := onGrid_roundUnits distance 1
  have hdistance := (roundUnits_le_iff Nat.one_pos hgrid).mp (Nat.le_refl _)
  generalize roundUnits distance 1 = n at *
  have hsum : 2 * distance ≤ 2 * n ∨ 4503599627370496 * (2 * distance) ≤ 9007199254740993 * n := by
    obtain h1 | h1 := Nat.lt_or_eq_of_le (spacing_pos n)
    · have := mul_spacing_le h1
      omega
    · omega
  rw [maxIterations] at *
  omega

/-- A quotient that does not exceed the allowance hardly exceeds it before it is rounded. -/
lemma quotient_le_of_not_lt {a d b : Binary64} (ha : a.isFinite) (hb : b.isFinite) (hpos : 0 < d.units)
    (h : ¬(ofInt maxIterations).lt ((b - a) / d)) :
    2 ^ 37 * roundInt (b.units - a.units) ≤ (2 ^ 37 * maxIterations + 1) * d.units := by
  have hallow := allowance_lt_horizon
  have hplace := place_sub hb ha
  rw [clampPlace, clampInt] at hplace
  rcases Int.lt_or_le 0 (roundInt (b.units - a.units)) with hlt | hle
  · obtain ⟨distance, hdistance⟩ : ∃ n : Nat, roundInt (b.units - a.units) = n :=
      ⟨_, (Int.toNat_of_nonneg (by omega)).symm⟩
    obtain ⟨step, hstep⟩ : ∃ n : Nat, d.units = n := ⟨_, (Int.toNat_of_nonneg (by omega)).symm⟩
    rw [hdistance] at hplace hlt ⊢
    rw [lt, place_allowance] at h
    generalize b - a = x at *
    rcases finite_or_infinity_of_place hplace with ⟨hfinite, hunits⟩ | ⟨rfl, -⟩ | ⟨-, hleft⟩
    · have hmax := Nat.lt_of_le_of_lt (representable_units hfinite).2 maxUnits_lt_horizon
      have hx : x.units = distance := by omega
      rw [place_div_of_pos (by omega) hx (by omega) hstep, decide_eq_true_iff] at h
      have := @quotient_le_of_roundUnits distance step (by omega) (by omega)
      rw [hstep]
      exact_mod_cast this
    · -- an infinite distance gives an infinite quotient
      obtain ⟨n, hn, rfl, -, -⟩ := exists_of_units_pos hpos
      have hquotient : (infinity false / finite false n hn).place = some (horizon : Int) := place_infinity false
      rw [hquotient, decide_eq_true_iff] at h
      omega
    · omega
  · have : 0 ≤ (2 ^ 37 * (maxIterations : Int) + 1) * d.units := Int.mul_nonneg (by omega) (Int.le_of_lt hpos)
    omega

/-! ### The ascent of an admitted sweep -/

lemma Admitted.distance_le {s : Sweep} (h : s.Admitted) :
    2 * (s.stop.units - s.start.units) ≤ (2 * maxIterations + 1) * s.step.units := by
  have hquotient := h.quotient_le
  have hpos := h.step_pos
  obtain ⟨step, hstep⟩ : ∃ n : Nat, s.step.units = n := ⟨_, (Int.toNat_of_nonneg (by omega)).symm⟩
  rw [hstep] at hquotient ⊢
  rcases Int.lt_or_le 0 (s.stop.units - s.start.units) with hlt | hle
  · obtain ⟨distance, hdistance⟩ : ∃ n : Nat, s.stop.units - s.start.units = n :=
      ⟨_, (Int.toNat_of_nonneg (by omega)).symm⟩
    rw [hdistance, roundInt_natCast] at hquotient
    rw [hdistance]
    exact_mod_cast @two_mul_le_of_quotient_le distance step (by exact_mod_cast hquotient)
  · have : 0 ≤ (2 * (maxIterations : Int) + 1) * step := Int.mul_nonneg (by omega) (Int.natCast_nonneg _)
    omega

/-- The places of the values of a sweep. -/
def Admitted.ascent {s : Sweep} (h : s.Admitted) : Ascent where
  start := s.start.units
  step := s.step.units.toNat
  stop := s.stop.units
  onGrid_start := (representable_units h.isFinite_start).onGrid
  onGrid_stop := (representable_units h.isFinite_stop).onGrid
  step_pos := by
    have := h.step_pos
    omega
  leaves_start := by
    rw [Int.toNat_of_nonneg (Int.le_of_lt h.step_pos)]
    exact h.leaves_start
  leaves_stop := by
    rw [Int.toNat_of_nonneg (Int.le_of_lt h.step_pos)]
    exact h.leaves_stop
  distance_le := by
    rw [Int.toNat_of_nonneg (Int.le_of_lt h.step_pos)]
    exact h.distance_le

lemma Admitted.ascent_start {s : Sweep} (h : s.Admitted) : h.ascent.start = s.start.units := rfl

lemma Admitted.ascent_stop {s : Sweep} (h : s.Admitted) : h.ascent.stop = s.stop.units := rfl

lemma Admitted.ascent_step {s : Sweep} (h : s.Admitted) : (h.ascent.step : Int) = s.step.units :=
  Int.toNat_of_nonneg (Int.le_of_lt h.step_pos)

end Sweep

/-! ### Statements -/

namespace Statement

lemma finiteField_eq_ok_iff {name : String} {value : List Char} {x : Binary64} :
    finiteField name value = .ok x ↔ Binary64.read (Text.trim value) = .ok x ∧ x.isFinite := by
  rw [finiteField]
  constructor
  · intro h
    split at h
    · next y hread =>
      split_ifs at h with hy
      · cases h
        exact ⟨hread, hy⟩
      · cases h
    · cases h
  · rintro ⟨hread, hx⟩
    simp only [hread, hx, if_true]

lemma readCapture_ne_openLoop (fields : List (List Char)) (l : Loop) : readCapture fields ≠ .ok (.openLoop l) := by
  intro h
  unfold readCapture at h
  split at h
  · simp only [bind_eq_ok] at h
    obtain ⟨d, -, shutter, -, f, -, i, -, h⟩ := h
    cases h
  · cases h

lemma readPlay_ne_openLoop (fields : List (List Char)) (l : Loop) : readPlay fields ≠ .ok (.openLoop l) := by
  intro h
  unfold readPlay at h
  split at h
  · simp only [bind_eq_ok] at h
    obtain ⟨d, -, h⟩ := h
    cases h
  · cases h

/-- A loop is opened by its kind and what follows it. -/
lemma exists_readLoop_of_read {line : List Char} {l : Loop} (h : read line = .ok (.openLoop l)) :
    ∃ kind fields, Text.splitAt ',' line = "FOR".toList :: kind :: fields ∧
      readLoop kind fields = .ok (.openLoop l) := by
  unfold read at h
  split at h
  · cases h
  · next name fields hline =>
    split_ifs at h with _ _ _ hname
    · cases h
    · exact absurd h (readCapture_ne_openLoop _ _)
    · exact absurd h (readPlay_ne_openLoop _ _)
    · split at h
      · exact ⟨_, _, by rw [hline, hname], h⟩
      · cases h
    · split at h <;> cases h

lemma exists_of_readSweep {start step stop : List Char} {l : Loop} (h : readSweep start step stop = .ok (.openLoop l)) :
    ∃ s : Sweep, l = .sweep s ∧ s.Admitted ∧ Binary64.read (Text.trim start) = .ok s.start ∧
      Binary64.read (Text.trim step) = .ok s.step ∧ Binary64.read (Text.trim stop) = .ok s.stop := by
  simp only [readSweep, bind_eq_ok, finiteField_eq_ok_iff] at h
  obtain ⟨a, ⟨hstart, ha⟩, d, ⟨hstep, hd⟩, b, ⟨hstop, hb⟩, h⟩ := h
  simp only [invalid] at h
  split_ifs at h with hpos hlost hmany
  cases h
  rw [Bool.or_eq_true, not_or] at hlost
  have hpos := Sweep.units_pos_of_not_le hd hpos
  exact ⟨_, rfl, ⟨ha, hd, hb, hpos, Sweep.lt_units_of_not_le ha hd hlost.1, Sweep.lt_units_of_not_le hb hd hlost.2,
    Sweep.quotient_le_of_not_lt ha hb hpos hmany⟩, hstart, hstep, hstop⟩

lemma exists_of_readCadence {direction delay iterations : List Char} {l : Loop}
    (h : readCadence direction delay iterations = .ok (.openLoop l)) :
    ∃ c : Cadence, l = .cadence c ∧ c.iterations ≤ maxIterations ∧ c.delay.isFinite ∧
      Binary64.read (Text.trim delay) = .ok c.delay := by
  simp only [readCadence, bind_eq_ok, finiteField_eq_ok_iff] at h
  obtain ⟨code, -, seconds, ⟨hread, hfinite⟩, n, -, h⟩ := h
  simp only [invalid] at h
  split_ifs at h with hmany
  cases h
  exact ⟨_, rfl, by dsimp only; omega, hfinite, hread⟩

/-- The fields of a line that opens a loop say of which kind it is. -/
lemma cases_of_read_openLoop {line : List Char} {l : Loop} (h : read line = .ok (.openLoop l)) :
    (∃ start step stop, Text.splitAt ',' line = ["FOR".toList, "(VAR)".toList, start, step, stop] ∧
      readSweep start step stop = .ok (.openLoop l)) ∨
    ∃ direction delay iterations,
      Text.splitAt ',' line = ["FOR".toList, "(INTERVALOMETER)".toList, direction, delay, iterations] ∧
      readCadence direction delay iterations = .ok (.openLoop l) := by
  obtain ⟨kind, fields, hline, h⟩ := exists_readLoop_of_read h
  unfold readLoop at h
  split_ifs at h with hsweep hcadence
  · subst hsweep
    split at h
    · exact Or.inl ⟨_, _, _, hline, h⟩
    · cases h
  · subst hcadence
    split at h
    · exact Or.inr ⟨_, _, _, hline, h⟩
    · cases h

/-- A sweep is opened by three numbers that have passed the checks. -/
lemma exists_fields_of_read_sweep {line : List Char} {s : Sweep} (h : read line = .ok (.openLoop (.sweep s))) :
    s.Admitted ∧ ∃ start step stop, Text.splitAt ',' line = ["FOR".toList, "(VAR)".toList, start, step, stop] ∧
      Binary64.read (Text.trim start) = .ok s.start ∧ Binary64.read (Text.trim step) = .ok s.step ∧
      Binary64.read (Text.trim stop) = .ok s.stop := by
  obtain ⟨start, step, stop, hline, h⟩ | ⟨_, _, _, -, h⟩ := cases_of_read_openLoop h
  · obtain ⟨s', hs, hadmitted, hread⟩ := exists_of_readSweep h
    cases hs
    exact ⟨hadmitted, start, step, stop, hline, hread⟩
  · obtain ⟨c, hc, -⟩ := exists_of_readCadence h
    cases hc

/-- A cadence is opened by a direction, a delay and a number of repetitions. -/
lemma exists_fields_of_read_cadence {line : List Char} {c : Cadence} (h : read line = .ok (.openLoop (.cadence c))) :
    c.iterations ≤ maxIterations ∧ c.delay.isFinite ∧ ∃ direction delay iterations,
      Text.splitAt ',' line = ["FOR".toList, "(INTERVALOMETER)".toList, direction, delay, iterations] ∧
      Binary64.read (Text.trim delay) = .ok c.delay := by
  obtain ⟨_, _, _, -, h⟩ | ⟨direction, delay, iterations, hline, h⟩ := cases_of_read_openLoop h
  · obtain ⟨s, hs, -⟩ := exists_of_readSweep h
    cases hs
  · obtain ⟨c', hc, hmany, hfinite, hread⟩ := exists_of_readCadence h
    cases hc
    exact ⟨hmany, hfinite, direction, delay, iterations, hline, hread⟩

end Statement

/-- A statement that opens a sweep has passed its checks. -/
lemma Sweep.admitted_of_read {line : List Char} {s : Sweep}
    (h : Statement.read line = .ok (.openLoop (.sweep s))) : s.Admitted :=
  (Statement.exists_fields_of_read_sweep h).1

end Totality
