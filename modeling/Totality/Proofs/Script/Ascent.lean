import Mathlib.Tactic.Lemma
import Totality.Proofs.Number.Sum
import Totality.Script.Statement

/-!
# Rounded ascents

A sweep walks up the grid by one rounded step at a time. Its statement is read only if the step leads on from
both ends and the quotient of distance and step is small. The walk comes to rest below its end exactly where the
step is half a gap, a tie, at one of the ends; otherwise each step makes half its way at least.
-/

namespace Totality

open Binary64

/-- The places of a sweep: ends on the grid, and a step that leads on from both of them. -/
structure Ascent where
  start : Int
  step : Nat
  stop : Int
  onGrid_start : OnGrid start.natAbs
  onGrid_stop : OnGrid stop.natAbs
  step_pos : 0 < step
  leaves_start : start < roundInt (start + step)
  leaves_stop : stop < roundInt (stop + step)
  /-- No more exact steps than allowed lead from start to end, but for half a step of rounding. -/
  distance_le : 2 * (stop - start) ≤ (2 * maxIterations + 1) * step

namespace Ascent

/-- The place after so many steps, as if there were no end. -/
def place (a : Ascent) : Nat → Int
  | 0 => a.start
  | k + 1 => roundInt (a.place k + a.step)

/-- A place on the way that the step does not lead on from. -/
def RestsAt (a : Ascent) (v : Int) : Prop :=
  OnGrid v.natAbs ∧ a.start ≤ v ∧ v < a.stop ∧ ¬v < roundInt (v + a.step)

/-- The ascent rests for ever: its step is half the spacing at an end above zero, or at a start below zero from
which the first step does not lead to the last number with this spacing. -/
def Stalls (a : Ascent) : Prop :=
  a.start < a.stop ∧
    (0 < a.stop ∧ spacing a.stop.natAbs = 2 * a.step ∨
      a.start < 0 ∧ spacing a.start.natAbs = 2 * a.step ∧ 9007199254740994 * a.step < a.start.natAbs)

variable (a : Ascent)

/-! ### Places on the way -/

lemma onGrid_place (k : Nat) : OnGrid (a.place k).natAbs := by
  cases k with
  | zero => exact a.onGrid_start
  | succ k => exact onGrid_roundInt _

lemma place_le_succ (k : Nat) : a.place k ≤ a.place (k + 1) := le_roundInt_add (a.onGrid_place k) a.step

lemma place_mono {j k : Nat} (h : j ≤ k) : a.place j ≤ a.place k := by
  induction h with
  | refl => exact Int.le_refl _
  | step _ ih => exact Int.le_trans ih (a.place_le_succ _)

lemma start_le_place (k : Nat) : a.start ≤ a.place k := a.place_mono (Nat.zero_le k)

/-- As long as each step leads on, there are as many places as steps. -/
lemma add_le_place {n : Nat} (hon : ∀ k < n, a.place k < a.place (k + 1)) : a.start + n ≤ a.place n := by
  induction n with
  | zero => simp [place]
  | succ n ih =>
    have hprev := ih fun k hk => hon k (Nat.lt_succ_of_lt hk)
    have hnext := hon n (Nat.lt_succ_self n)
    omega

/-- An ascent does not get past a place where it rests. -/
lemma place_le_of_restsAt {v : Int} (h : a.RestsAt v) (k : Nat) : a.place k ≤ v := by
  obtain ⟨-, hstart, -, hrest⟩ := h
  induction k with
  | zero => exact hstart
  | succ k ih =>
    calc a.place (k + 1) ≤ roundInt (v + a.step) := roundInt_mono (by omega)
      _ ≤ v := Int.not_lt.mp hrest

lemma restsAt_place {k : Nat} (hstop : a.place k < a.stop) (hrest : ¬a.place k < a.place (k + 1)) :
    a.RestsAt (a.place k) :=
  ⟨a.onGrid_place k, a.start_le_place k, hstop, hrest⟩

/-! ### Where an ascent rests -/

/-- From a place with a gap of two steps above, the step leads on only from an odd multiple of the gap. -/
lemma lt_roundInt_iff_of_gapAbove {v : Int} {d : Nat} (hv : OnGrid v.natAbs) (hd : 0 < d)
    (hgap : gapAbove v = 2 * d) : v < roundInt (v + d) ↔ v.natAbs / (2 * d) % 2 = 1 := by
  rw [lt_roundInt_add_iff hv hd, hgap]
  omega

lemma gapAbove_start_le : gapAbove a.start ≤ 2 * a.step := by
  have := (lt_roundInt_add_iff a.onGrid_start a.step_pos).mp a.leaves_start
  omega

lemma gapAbove_stop_le : gapAbove a.stop ≤ 2 * a.step := by
  have := (lt_roundInt_add_iff a.onGrid_stop a.step_pos).mp a.leaves_stop
  omega

/-- The gap above a place of rest is two steps, since the gaps at the ends are no longer. -/
lemma gapAbove_of_restsAt {v : Int} (h : a.RestsAt v) : gapAbove v = 2 * a.step := by
  obtain ⟨hv, hstart, hstop, hrest⟩ := h
  have hmax := gapAbove_le_max a.onGrid_start hv hstart (Int.le_of_lt hstop)
  have := a.gapAbove_start_le
  have := a.gapAbove_stop_le
  rw [lt_roundInt_add_iff hv a.step_pos] at hrest
  omega

/-- From a place of rest at zero or above, the spacing at the end is no finer. -/
lemma spacing_stop_of_restsAt {n : Nat} (h : a.RestsAt n) : 0 < a.stop ∧ spacing a.stop.natAbs = 2 * a.step := by
  have hgap := a.gapAbove_of_restsAt h
  obtain ⟨-, -, hstop, -⟩ := h
  have hle := a.gapAbove_stop_le
  have hmono := spacing_mono (m := n) (n := a.stop.natAbs) (by omega)
  rw [gapAbove, if_pos (by omega)] at hle
  rw [gapAbove_natCast] at hgap
  omega

/-- Below zero, the gap above the start is that above the place of rest, but the start is an odd multiple. -/
lemma spacing_start_of_restsAt {n : Nat} (hn : 0 < n) (h : a.RestsAt (-n)) :
    a.start < 0 ∧ spacing a.start.natAbs = 2 * a.step ∧ 9007199254740994 * a.step < a.start.natAbs := by
  have hgap := a.gapAbove_of_restsAt h
  obtain ⟨hv, hstart, -, hrest⟩ := h
  have hd := a.step_pos
  obtain ⟨m, hm⟩ : ∃ m : Nat, a.start = -m := ⟨a.start.natAbs, by omega⟩
  have hmpos : 0 < m := by omega
  have hgrid := a.onGrid_start
  have hle := a.gapAbove_start_le
  have hleaves := a.leaves_start
  rw [lt_roundInt_iff_of_gapAbove hv hd hgap] at hrest
  rw [hm] at hgrid hle hleaves ⊢
  rw [Int.natAbs_neg, Int.natAbs_natCast] at *
  rw [gapAbove_neg hn] at hgap
  rw [gapAbove_neg hmpos] at hle
  have hmono := gapBelow_mono hv hgrid (by omega)
  have hgapm : gapBelow m = 2 * a.step := by omega
  rw [lt_roundInt_iff_of_gapAbove (by simpa using hgrid) hd (by rw [gapAbove_neg hmpos, hgapm]),
    Int.natAbs_neg, Int.natAbs_natCast] at hleaves
  have hspacing := gapBelow_eq_spacing_of_odd (n := m) (by rw [hgapm]; exact hleaves)
  have hlt : n < m := by
    rcases Nat.lt_or_eq_of_le (by omega : n ≤ m) with hlt | rfl
    · exact hlt
    · exact absurd hleaves hrest
  have hnext := hv.add_gapBelow_le hgrid hlt
  have hspacingn : spacing n = 2 * a.step := by
    have := gapBelow_le_spacing n
    have := spacing_mono (Nat.le_of_lt hlt)
    omega
  -- the place of rest is not the first with its spacing, whose gap below is shorter
  have hfirst : n ≠ 4503599627370496 * spacing n := by
    intro heq
    rw [gapBelow, if_pos ⟨by omega, heq⟩] at hgap
    omega
  have := mul_spacing_le (n := n) (by omega)
  exact ⟨by omega, by omega, by omega⟩

lemma stalls_of_restsAt {v : Int} (h : a.RestsAt v) : a.Stalls := by
  have hlt : a.start < a.stop := Int.lt_of_le_of_lt h.2.1 h.2.2.1
  obtain ⟨n, rfl⟩ | ⟨n, hn, rfl⟩ := exists_natAbs v
  · exact ⟨hlt, Or.inl (a.spacing_stop_of_restsAt h)⟩
  · exact ⟨hlt, Or.inr (a.spacing_start_of_restsAt hn h)⟩

/-- An end above zero with a spacing of two steps has a place of rest next below it. -/
lemma exists_restsAt_of_stop (hlt : a.start < a.stop) (hpos : 0 < a.stop)
    (hspacing : spacing a.stop.natAbs = 2 * a.step) : ∃ v, a.RestsAt v := by
  have hd := a.step_pos
  have hgrid := a.onGrid_stop
  have hleaves := a.leaves_stop
  have hstart := a.onGrid_start
  rw [lt_roundInt_iff_of_gapAbove hgrid hd (by rw [gapAbove, if_pos (by omega), hspacing])] at hleaves
  have hfirst : a.stop.natAbs ≠ 4503599627370496 * spacing a.stop.natAbs := by
    intro heq
    rw [hspacing] at heq
    rw [Nat.div_eq_of_eq_mul_left (by omega) heq] at hleaves
    omega
  have hgap := (gapBelow_eq_spacing hfirst).trans hspacing
  obtain ⟨p, hp, hpgrid, hpspacing, hquot⟩ := hgrid.exists_pred (by omega)
  rw [hgap] at hp hpspacing hquot
  refine ⟨p, by simpa using hpgrid, ?_, by omega, ?_⟩
  · obtain ⟨k, hk⟩ | ⟨k, -, hk⟩ := exists_natAbs a.start
    · rw [hk, Int.natAbs_natCast] at hstart
      have := hstart.add_gapBelow_le hgrid (by omega)
      omega
    · omega
  · rw [lt_roundInt_iff_of_gapAbove (by simpa using hpgrid) hd (by rw [gapAbove_natCast, hpspacing]),
      Int.natAbs_natCast]
    omega

/-- A start below zero with a spacing of two steps has a place of rest next above it, unless this is the last
place with that spacing. -/
lemma exists_restsAt_of_start (hlt : a.start < a.stop) (hneg : a.start < 0)
    (hspacing : spacing a.start.natAbs = 2 * a.step) (hfar : 9007199254740994 * a.step < a.start.natAbs) :
    ∃ v, a.RestsAt v := by
  have hd := a.step_pos
  have hgrid := a.onGrid_start
  have hleaves := a.leaves_start
  have hnext := add_gapAbove_le hgrid a.onGrid_stop hlt
  have hgap := (gapBelow_eq_spacing (n := a.start.natAbs) (by omega)).trans hspacing
  have hgapStart : gapAbove a.start = 2 * a.step := by rw [gapAbove, if_neg (by omega), hgap]
  rw [lt_roundInt_iff_of_gapAbove hgrid hd hgapStart] at hleaves
  obtain ⟨p, hp, hpgrid, hpspacing, hquot⟩ := hgrid.exists_pred (by omega)
  rw [hgap] at hp hpspacing hquot
  have hpgap := (gapBelow_eq_spacing (n := p) (by omega)).trans hpspacing
  have hrest : ¬-(p : Int) < roundInt (-p + a.step) := by
    rw [lt_roundInt_iff_of_gapAbove (by simpa using hpgrid) hd (by rw [gapAbove_neg (by omega), hpgap]),
      Int.natAbs_neg, Int.natAbs_natCast]
    omega
  refine ⟨-p, by simpa using hpgrid, by omega, ?_, hrest⟩
  -- the step leads on from the end, so the place of rest is not the end
  rcases Int.lt_or_eq_of_le (by omega : -(p : Int) ≤ a.stop) with hbelow | heq
  · exact hbelow
  · rw [heq] at hrest
    exact absurd a.leaves_stop hrest

lemma exists_restsAt (h : a.Stalls) : ∃ v, a.RestsAt v := by
  obtain ⟨hlt, ⟨hpos, hspacing⟩ | ⟨hneg, hspacing, hfar⟩⟩ := h
  · exact a.exists_restsAt_of_stop hlt hpos hspacing
  · exact a.exists_restsAt_of_start hlt hneg hspacing hfar

/-- An ascent stays below its end for ever if and only if it stalls. -/
lemma forall_place_lt_stop_iff : (∀ k, a.place k < a.stop) ↔ a.Stalls := by
  constructor
  · intro hbelow
    by_contra hstalls
    have hon : ∀ k, a.place k < a.place (k + 1) := by
      intro k
      by_contra hrest
      exact hstalls (a.stalls_of_restsAt (a.restsAt_place (hbelow k) hrest))
    have := a.add_le_place (n := (a.stop - a.start).toNat) fun k _ => hon k
    have := hbelow (a.stop - a.start).toNat
    have := hbelow 0
    omega
  · intro hstalls k
    obtain ⟨v, hv⟩ := a.exists_restsAt hstalls
    exact Int.lt_of_le_of_lt (a.place_le_of_restsAt hv k) hv.2.2.1

/-! ### How many steps an ascent makes -/

/-- An ascent that does not stall makes half the way of its steps at least. -/
lemma mul_step_le (hstalls : ¬a.Stalls) {k : Nat} (hbelow : ∀ j < k, a.place j < a.stop) :
    2 * a.start + k * a.step ≤ 2 * a.place k := by
  induction k with
  | zero => simp [place]
  | succ k ih =>
    have hk := ih fun j hj => hbelow j (Nat.lt_succ_of_lt hj)
    have hnext : a.place k < a.place (k + 1) := by
      by_contra hrest
      exact hstalls (a.stalls_of_restsAt (a.restsAt_place (hbelow k (Nat.lt_succ_self k)) hrest))
    have hhalf : (a.step : Int) ≤ 2 * (a.place (k + 1) - a.place k) :=
      le_two_mul_roundInt_sub (a.onGrid_place k) hnext
    have hsucc : ((k + 1 : Nat) : Int) * a.step = k * a.step + a.step := by
      rw [Int.natCast_succ, Int.add_mul, Int.one_mul]
    omega

/-- An ascent that does not stall reaches its end in about twice the steps that are allowed. -/
lemma steps_le (hstalls : ¬a.Stalls) {k : Nat} (hbelow : ∀ j < k, a.place j < a.stop) :
    k ≤ 2 * maxIterations + 1 := by
  cases k with
  | zero => exact Nat.zero_le _
  | succ k =>
    have hway := a.mul_step_le hstalls fun j hj => hbelow j (Nat.lt_succ_of_lt hj)
    have hlast := hbelow k (Nat.lt_succ_self k)
    have hdistance := a.distance_le
    have hlt : (k : Int) * a.step < (2 * maxIterations + 1) * a.step := by omega
    have := Int.lt_of_mul_lt_mul_right hlt (Int.natCast_nonneg _)
    omega

/-! ### Ascents without rounding -/

/-- Among multiples of a power of two that need no more than 53 bits, each step makes its whole way up to the
end. -/
lemma min_le_place {j : Nat} (hstart : ((2 ^ j : Nat) : Int) ∣ a.start) (hstep : 2 ^ j ∣ a.step)
    (hlo : -(9007199254740992 * 2 ^ j : Nat) ≤ a.start) (hhi : a.stop ≤ (9007199254740992 * 2 ^ j : Nat)) (k : Nat) :
    min (a.start + k * a.step) a.stop ≤ a.place k := by
  induction k with
  | zero =>
    rw [place]
    omega
  | succ k ih =>
    have hsucc : ((k + 1 : Nat) : Int) * a.step = k * a.step + a.step := by
      rw [Int.natCast_succ, Int.add_mul, Int.one_mul]
    rw [hsucc]
    rcases Int.lt_or_le (a.start + (k * a.step + a.step)) a.stop with hlt | hle
    · have hdvd : ((2 ^ j : Nat) : Int) ∣ a.start + (k * a.step + a.step) :=
        Int.dvd_add hstart (Int.dvd_add (Int.dvd_mul_of_dvd_right (Int.natCast_dvd_natCast.mpr hstep))
          (Int.natCast_dvd_natCast.mpr hstep))
      have hnonneg : 0 ≤ (k : Int) * a.step := Int.mul_nonneg (Int.natCast_nonneg _) (Int.natCast_nonneg _)
      have hgrid : OnGrid (a.start + (k * a.step + a.step)).natAbs :=
        onGrid_of_dvd (Int.natCast_dvd.mp hdvd) (by omega)
      calc min (a.start + (k * a.step + a.step)) a.stop = roundInt (a.start + (k * a.step + a.step)) := by
            rw [roundInt_self hgrid]
            omega
        _ ≤ a.place (k + 1) := roundInt_mono (by omega)
    · calc min (a.start + (k * a.step + a.step)) a.stop = roundInt a.stop := by
            rw [roundInt_self a.onGrid_stop]
            omega
        _ ≤ a.place (k + 1) := roundInt_mono (by omega)

end Ascent

end Totality
