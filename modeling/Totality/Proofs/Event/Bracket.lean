import Mathlib.Tactic.Lemma
import Totality.Event.Table
import Totality.Proofs.Number.Order

/-!
# The readings that bracket a target

On an ascending curve the readings that do not exceed a target come first, and those that do not fall short of it come
last. Where the two meet, the readings on the target are in both; where they do not, the target lies strictly between
two neighbours.
-/

namespace Totality

/-- On a list along which a property is only lost, the front that has it is known by each of its places. -/
lemma lt_length_takeWhile_iff {α : Type} {p : α → Bool} {as : List α} (h : as.Pairwise fun a b => p b → p a) {i : Nat}
    {a : α} (ha : as[i]? = some a) : i < (as.takeWhile p).length ↔ p a := by
  induction as generalizing i with
  | nil => cases ha
  | cons b as ih =>
    obtain ⟨hb, has⟩ := List.pairwise_cons.mp h
    rw [List.takeWhile_cons]
    cases i with
    | zero =>
      cases ha
      split_ifs with hp
      · exact iff_of_true (Nat.succ_pos _) hp
      · exact iff_of_false (Nat.lt_irrefl 0) hp
    | succ i =>
      rw [List.getElem?_cons_succ] at ha
      split_ifs with hp
      · rw [List.length_cons, Nat.succ_lt_succ_iff]
        exact ih has ha
      · exact iff_of_false (Nat.not_lt_zero _) fun hpa => hp (hb a (List.mem_of_getElem? ha) hpa)

namespace Curve

open Binary64

variable {curve : List (Reading Instant)} {target : Binary64}

/-! ### The front and the back -/

/-- How many readings at the front do not exceed the target. -/
def front (curve : List (Reading Instant)) (target : Binary64) : Nat :=
  (curve.takeWhile fun r => r.magnitude.le target).length

/-- How many readings at the back do not fall short of the target. -/
def back (curve : List (Reading Instant)) (target : Binary64) : Nat :=
  (curve.reverse.takeWhile fun r => target.le r.magnitude).length

lemma bounds?_eq (curve : List (Reading Instant)) (target : Binary64) :
    bounds? curve target =
      if front curve target = 0 ∨ back curve target = 0 then none
      else some (front curve target - 1, curve.length - back curve target) := rfl

lemma front_le_length (curve : List (Reading Instant)) (target : Binary64) : front curve target ≤ curve.length :=
  (List.takeWhile_sublist _).length_le

lemma back_le_length (curve : List (Reading Instant)) (target : Binary64) : back curve target ≤ curve.length := by
  have hle : back curve target ≤ curve.reverse.length := (List.takeWhile_sublist _).length_le
  rwa [List.length_reverse] at hle

section Ascending

variable (h : Ascending curve) {i : Nat} {r : Reading Instant}

include h

lemma lt_front_iff (hr : curve[i]? = some r) : i < front curve target ↔ r.magnitude.le target := by
  refine lt_length_takeWhile_iff (h.imp ?_) hr
  intro a b hab hb
  exact le_trans hab hb

lemma length_sub_back_le_iff (hr : curve[i]? = some r) :
    curve.length - back curve target ≤ i ↔ target.le r.magnitude := by
  have hi : i < curve.length := (List.getElem?_eq_some_iff.mp hr).1
  have hreverse : curve.reverse[curve.length - 1 - i]? = some r := by
    rw [List.getElem?_reverse (by omega), show curve.length - 1 - (curve.length - 1 - i) = i by omega]
    exact hr
  have hpairwise : curve.reverse.Pairwise fun a b => target.le b.magnitude → target.le a.magnitude := by
    rw [List.pairwise_reverse]
    apply h.imp
    intro a b hab ha
    exact le_trans ha hab
  have hback : curve.length - 1 - i < back curve target ↔ target.le r.magnitude :=
    lt_length_takeWhile_iff hpairwise hreverse
  have hle := back_le_length curve target
  rw [← hback]
  omega

lemma front_eq_zero_iff : front curve target = 0 ↔ ∀ r ∈ curve, ¬r.magnitude.le target := by
  constructor
  · intro hzero r hr hle
    obtain ⟨i, hi⟩ := List.getElem?_of_mem hr
    have hlt := (lt_front_iff h hi).mpr hle
    omega
  · intro hnone
    by_contra hne
    have hlength := front_le_length curve target
    have hfirst : curve[0]? = some curve[0] := List.getElem?_eq_getElem (by omega)
    exact hnone _ (List.mem_of_getElem? hfirst) ((lt_front_iff h hfirst).mp (Nat.pos_of_ne_zero hne))

lemma back_eq_zero_iff : back curve target = 0 ↔ ∀ r ∈ curve, ¬target.le r.magnitude := by
  have hlength := back_le_length curve target
  constructor
  · intro hzero r hr hle
    obtain ⟨i, hi⟩ := List.getElem?_of_mem hr
    have hlt := (List.getElem?_eq_some_iff.mp hi).1
    have hback := (length_sub_back_le_iff h hi).mpr hle
    omega
  · intro hnone
    by_contra hne
    have hlast : curve[curve.length - 1]? = some curve[curve.length - 1] := List.getElem?_eq_getElem (by omega)
    exact hnone _ (List.mem_of_getElem? hlast) ((length_sub_back_le_iff h hlast).mp (by omega))

/-- Only a reading by itself is not-a-number. -/
lemma ne_nan_or_singleton : (∀ r ∈ curve, r.magnitude ≠ .nan) ∨ ∃ r, curve = [r] ∧ r.magnitude = .nan := by
  cases curve with
  | nil => exact Or.inl (List.forall_mem_nil _)
  | cons a rest =>
    cases rest with
    | nil =>
      by_cases hnan : a.magnitude = .nan
      · exact Or.inr ⟨a, rfl, hnan⟩
      · refine Or.inl ?_
        rintro r hr
        rw [List.mem_singleton.mp hr]
        exact hnan
    | cons b rest =>
      have ha := (List.pairwise_cons.mp h).1
      refine Or.inl ?_
      rintro r hr
      rcases List.mem_cons.mp hr with rfl | hr
      · exact (ne_nan_of_le (ha b List.mem_cons_self)).1
      · exact (ne_nan_of_le (ha r hr)).2

end Ascending

/-! ### What the bounds are -/

/-- The readings from `hi` to `lo` are those on the target. -/
def RunOn (curve : List (Reading Instant)) (target : Binary64) (lo hi : Nat) : Prop :=
  hi ≤ lo ∧ ∀ i r, curve[i]? = some r → (hi ≤ i ∧ i ≤ lo ↔ r.magnitude.eqv target)

/-- The target lies strictly between the readings at `lo` and `hi`, which are neighbours. -/
def Straddled (curve : List (Reading Instant)) (target : Binary64) (lo hi : Nat) : Prop :=
  hi = lo + 1 ∧ ∃ low high, curve[lo]? = some low ∧ curve[hi]? = some high ∧ low.magnitude.lt target ∧
    target.lt high.magnitude

lemma bounds?_eq_none_iff (h : Ascending curve) (ht : target ≠ .nan) :
    bounds? curve target = none ↔ curve = [] ∨ (∃ r, curve = [r] ∧ r.magnitude = .nan) ∨
      (∀ r ∈ curve, target.lt r.magnitude) ∨ ∀ r ∈ curve, r.magnitude.lt target := by
  have hnone : bounds? curve target = none ↔
      (∀ r ∈ curve, ¬r.magnitude.le target) ∨ ∀ r ∈ curve, ¬target.le r.magnitude := by
    rw [bounds?_eq, ite_eq_left_iff, ← front_eq_zero_iff h, ← back_eq_zero_iff h]
    exact ⟨fun hsome => by_contra fun hne => Option.some_ne_none _ (hsome hne), fun hzero hne => absurd hzero hne⟩
  rw [hnone]
  rcases ne_nan_or_singleton h with hnan | ⟨r, rfl, hr⟩
  · have hbelow : (∀ r ∈ curve, ¬r.magnitude.le target) ↔ ∀ r ∈ curve, target.lt r.magnitude :=
      forall₂_congr fun r hr => not_le_iff_lt (hnan r hr) ht
    have habove : (∀ r ∈ curve, ¬target.le r.magnitude) ↔ ∀ r ∈ curve, r.magnitude.lt target :=
      forall₂_congr fun r hr => not_le_iff_lt ht (hnan r hr)
    rw [hbelow, habove]
    constructor
    · exact fun hout => Or.inr (Or.inr hout)
    · rintro (rfl | ⟨r, rfl, hr⟩ | hout)
      · exact Or.inl (List.forall_mem_nil _)
      · exact absurd hr (hnan r (List.mem_singleton_self r))
      · exact hout
  · refine iff_of_true (Or.inl ?_) (Or.inr (Or.inl ⟨r, rfl, hr⟩))
    rw [List.forall_mem_singleton]
    exact fun hle => (ne_nan_of_le hle).1 hr

/-- The bounds are places of the curve; a reading does not exceed the target up to the lower one, and does not fall short
of it from the upper one on. -/
lemma of_bounds?_eq_some (h : Ascending curve) {lo hi : Nat} (hbounds : bounds? curve target = some (lo, hi)) :
    lo < curve.length ∧ hi < curve.length ∧
      ∀ i r, curve[i]? = some r → (i ≤ lo ↔ r.magnitude.le target) ∧ (hi ≤ i ↔ target.le r.magnitude) := by
  have hfront := front_le_length curve target
  have hback := back_le_length curve target
  rw [bounds?_eq] at hbounds
  split_ifs at hbounds with hzero
  rw [not_or] at hzero
  cases hbounds
  refine ⟨by omega, by omega, fun i r hr => ⟨?_, length_sub_back_le_iff h hr⟩⟩
  rw [← lt_front_iff h hr]
  omega

lemma runOn_or_straddled (h : Ascending curve) (ht : target ≠ .nan) {lo hi : Nat}
    (hbounds : bounds? curve target = some (lo, hi)) :
    RunOn curve target lo hi ∨ Straddled curve target lo hi := by
  obtain ⟨hlo, hhi, hplaces⟩ := of_bounds?_eq_some h hbounds
  rcases Nat.lt_or_ge lo hi with hlt | hle
  · have hlow : curve[lo]? = some curve[lo] := List.getElem?_eq_getElem hlo
    have hhigh : curve[hi]? = some curve[hi] := List.getElem?_eq_getElem hhi
    have hnan : ∀ r ∈ curve, r.magnitude ≠ .nan := by
      rcases ne_nan_or_singleton h with hnan | ⟨r, rfl, -⟩
      · exact hnan
      · rw [List.length_singleton] at hlo hhi
        omega
    -- a reading between the two would exceed the target and fall short of it
    have hnext : hi = lo + 1 := by
      by_contra hne
      have hmid : curve[lo + 1]? = some curve[lo + 1] := List.getElem?_eq_getElem (by omega)
      obtain ⟨habove, hbelow⟩ := hplaces _ _ hmid
      rcases le_or_le (hnan _ (List.mem_of_getElem? hmid)) ht with hle | hle
      · have := habove.mpr hle
        omega
      · have := hbelow.mpr hle
        omega
    refine Or.inr ⟨hnext, _, _, hlow, hhigh, ?_, ?_⟩
    · rw [← not_le_iff_lt ht (hnan _ (List.mem_of_getElem? hlow)), ← (hplaces _ _ hlow).2]
      exact Nat.not_le.mpr hlt
    · rw [← not_le_iff_lt (hnan _ (List.mem_of_getElem? hhigh)) ht, ← (hplaces _ _ hhigh).1]
      exact Nat.not_le.mpr hlt
  · exact Or.inl ⟨hle, fun i r hr => by rw [(hplaces i r hr).1, (hplaces i r hr).2, and_comm, le_and_le_iff_eqv]⟩

/-! ### Where the curve is reached -/

lemma crossing_of_bounds? {lo hi : Nat} {low high : Reading Instant} (hbounds : bounds? curve target = some (lo, hi))
    (hlow : curve[lo]? = some low) (hhigh : curve[hi]? = some high) :
    crossing curve target =
      if lo = hi then .reached low.time
      else if (high.magnitude - low.magnitude).eqv (.zero false) then .reached (if lo < hi then low.time else high.time)
      else between low high target := by
  simp only [crossing, hbounds, hlow, hhigh]

lemma between_ne_outside (low high : Reading Instant) (target : Binary64) : between low high target ≠ .outside := by
  rw [between]
  split
  · nofun
  · nofun

lemma crossing_eq_outside_iff (h : Ascending curve) : crossing curve target = .outside ↔ bounds? curve target = none := by
  cases hbounds : bounds? curve target with
  | none => exact iff_of_true (by rw [crossing, hbounds]) rfl
  | some bounds =>
    obtain ⟨lo, hi⟩ := bounds
    obtain ⟨hlo, hhi, -⟩ := of_bounds?_eq_some h hbounds
    refine iff_of_false ?_ nofun
    rw [crossing_of_bounds? hbounds (List.getElem?_eq_getElem hlo) (List.getElem?_eq_getElem hhi)]
    split_ifs
    · nofun
    · nofun
    · exact between_ne_outside _ _ _

section Readings

variable {lo hi : Nat} {low high : Reading Instant}

/-- Two readings of a run have no difference in magnitude. -/
lemma RunOn.eqv_zero (h : RunOn curve target lo hi) (ht : target.isFinite) (hlow : curve[lo]? = some low)
    (hhigh : curve[hi]? = some high) :
    low.magnitude.eqv target ∧ high.magnitude.eqv target ∧ (high.magnitude - low.magnitude).eqv (.zero false) := by
  obtain ⟨hle, hrun⟩ := h
  have hlowEqv := (hrun lo low hlow).mp ⟨hle, Nat.le_refl lo⟩
  have hhighEqv := (hrun hi high hhigh).mp ⟨Nat.le_refl hi, hle⟩
  refine ⟨hlowEqv, hhighEqv, sub_eqv_zero ?_ ?_ (eqv_trans hhighEqv (eqv_symm hlowEqv))⟩
  · exact isFinite_of_eqv ht hlowEqv
  · exact isFinite_of_eqv ht hhighEqv

/-- Two readings with the target strictly between them differ in magnitude. -/
lemma Straddled.zero_lt (h : Straddled curve target lo hi) (hlow : curve[lo]? = some low)
    (hhigh : curve[hi]? = some high) : (zero false).lt (high.magnitude - low.magnitude) := by
  obtain ⟨-, low', high', hlow', hhigh', hlt, hlt'⟩ := h
  cases hlow.symm.trans hlow'
  cases hhigh.symm.trans hhigh'
  exact zero_lt_sub (lt_trans hlt hlt')

/-- A run is reached at its first reading. -/
lemma RunOn.crossing_eq (h : RunOn curve target lo hi) (ht : target.isFinite)
    (hbounds : bounds? curve target = some (lo, hi)) (hlow : curve[lo]? = some low) (hhigh : curve[hi]? = some high) :
    crossing curve target = .reached high.time := by
  have hle := h.1
  obtain ⟨-, -, hzero⟩ := h.eqv_zero ht hlow hhigh
  rw [crossing_of_bounds? hbounds hlow hhigh]
  split_ifs with heq hlt
  · subst heq
    cases hlow.symm.trans hhigh
    rfl
  · omega
  · rfl

lemma Straddled.crossing_eq (h : Straddled curve target lo hi) (hbounds : bounds? curve target = some (lo, hi))
    (hlow : curve[lo]? = some low) (hhigh : curve[hi]? = some high) :
    crossing curve target = between low high target := by
  have hnext := h.1
  rw [crossing_of_bounds? hbounds hlow hhigh, if_neg (by omega), if_neg (not_eqv_of_lt (h.zero_lt hlow hhigh))]

end Readings

/-- A target that is on the curve is bounded by the run of readings on it, from the first one on. -/
lemma exists_runOn_of_find? (h : Ascending curve) (ht : target ≠ .nan) {r : Reading Instant}
    (hr : curve.find? (fun r => r.magnitude.eqv target) = some r) :
    ∃ lo hi, bounds? curve target = some (lo, hi) ∧ RunOn curve target lo hi ∧ curve[hi]? = some r := by
  obtain ⟨heqv, i, hi, hri, hfirst⟩ := List.find?_eq_some_iff_getElem.mp hr
  have hget : curve[i]? = some r := by rw [List.getElem?_eq_getElem hi, hri]
  obtain ⟨hle, hge⟩ := le_and_le_iff_eqv.mpr heqv
  have hfront := (lt_front_iff h hget).mpr hle
  have hback := (length_sub_back_le_iff h hget).mpr hge
  have hbounds : bounds? curve target = some (front curve target - 1, curve.length - back curve target) := by
    rw [bounds?_eq, if_neg]
    omega
  obtain ⟨hlo, hhi, hplaces⟩ := of_bounds?_eq_some h hbounds
  have hhigh := List.getElem?_eq_getElem hhi
  rcases runOn_or_straddled h ht hbounds with hrun | hstraddled
  · -- no reading of the run stands before the first reading on the target
    have hstart : curve.length - back curve target = i := by
      by_contra hne
      have hbefore := hfirst (curve.length - back curve target) (by omega)
      rw [((hrun.2 _ _ hhigh).mp ⟨Nat.le_refl _, hrun.1⟩)] at hbefore
      cases hbefore
    exact ⟨_, _, hbounds, hrun, hstart ▸ hget⟩
  · -- a target strictly between two neighbours is on neither
    have hnext := hstraddled.1
    have hplace := hplaces i r hget
    have := hplace.1.mpr hle
    have := hplace.2.mpr hge
    omega

/-- A target that is on the curve is reached at the first reading on it. -/
lemma crossing_of_find? (h : Ascending curve) (ht : target.isFinite) {r : Reading Instant}
    (hr : curve.find? (fun r => r.magnitude.eqv target) = some r) : crossing curve target = .reached r.time := by
  obtain ⟨lo, hi, hbounds, hrun, hhigh⟩ := exists_runOn_of_find? h (ne_nan_of_isFinite ht) hr
  obtain ⟨hlo, -⟩ := of_bounds?_eq_some h hbounds
  exact hrun.crossing_eq ht hbounds (List.getElem?_eq_getElem hlo) hhigh

end Curve

namespace EventTable

lemma curve_ascending (table : EventTable Instant) (limb : Limb) : Curve.Ascending (table.curve limb) := by
  cases limb with
  | pre => exact table.pre_ascending
  | post => exact table.post_ascending

end EventTable

namespace Curve

open Binary64

/-- On a limb of a table, a finite target has no bounds if and only if there is no reading, or only one that is
not-a-number, or all magnitudes are on one side of the target; without bounds the limb is left. Otherwise the bounds are
places of the limb. Either the readings from the upper one to the lower one are those on the target, and the first of
them is where it is reached; or the target lies strictly between two neighbours, and the difference that is divided by
is positive. Bounds that are apart have no difference only where a magnitude is repeated on the target. -/
theorem bounds?_runOn_or_straddled (table : EventTable Instant) (limb : Limb) {target : Binary64}
    (ht : target.isFinite) :
    (bounds? (table.curve limb) target = none ↔
      table.curve limb = [] ∨ (∃ r, table.curve limb = [r] ∧ r.magnitude = .nan) ∨
        (∀ r ∈ table.curve limb, target.lt r.magnitude) ∨ ∀ r ∈ table.curve limb, r.magnitude.lt target) ∧
    (crossing (table.curve limb) target = .outside ↔ bounds? (table.curve limb) target = none) ∧
    (∀ lo hi, bounds? (table.curve limb) target = some (lo, hi) →
      ∃ low high, (table.curve limb)[lo]? = some low ∧ (table.curve limb)[hi]? = some high ∧
        (RunOn (table.curve limb) target lo hi ∧ low.magnitude.eqv target ∧ high.magnitude.eqv target ∧
            crossing (table.curve limb) target = .reached high.time ∨
          Straddled (table.curve limb) target lo hi ∧ (Binary64.zero false).lt (high.magnitude - low.magnitude) ∧
            crossing (table.curve limb) target = between low high target) ∧
        (lo ≠ hi ∧ (high.magnitude - low.magnitude).eqv (.zero false) ↔ hi < lo)) ∧
    ∀ r, (table.curve limb).find? (fun r => r.magnitude.eqv target) = some r →
      crossing (table.curve limb) target = .reached r.time := by
  have h := table.curve_ascending limb
  have hnan := ne_nan_of_isFinite ht
  refine ⟨bounds?_eq_none_iff h hnan, crossing_eq_outside_iff h, ?_, fun r => crossing_of_find? h ht⟩
  intro lo hi hbounds
  obtain ⟨hlo, hhi, -⟩ := of_bounds?_eq_some h hbounds
  have hlow := List.getElem?_eq_getElem hlo
  have hhigh := List.getElem?_eq_getElem hhi
  refine ⟨_, _, hlow, hhigh, ?_⟩
  rcases runOn_or_straddled h hnan hbounds with hrun | hstraddled
  · obtain ⟨hlowEqv, hhighEqv, hzero⟩ := hrun.eqv_zero ht hlow hhigh
    refine ⟨Or.inl ⟨hrun, hlowEqv, hhighEqv, hrun.crossing_eq ht hbounds hlow hhigh⟩, ?_⟩
    have hle := hrun.1
    rw [and_iff_left hzero]
    omega
  · have hlt := hstraddled.zero_lt hlow hhigh
    have hnext := hstraddled.1
    refine ⟨Or.inr ⟨hstraddled, hlt, hstraddled.crossing_eq hbounds hlow hhigh⟩, ?_⟩
    exact iff_of_false (fun hflat => not_eqv_of_lt hlt hflat.2) (by omega)

/-- A reading of so many tenths, so many minutes after the start of 1970. -/
def minuteReading (tenths minutes : Nat) : Reading Instant :=
  ⟨.ofUnits false (tenths * Binary64.scale) 10, (Instant.ofNanos? (minutes * 60000000000)).getD default⟩

/-- A magnitude that is repeated between a lower and a higher one. -/
def plateau : EventTable Instant :=
  (EventTable.ofReadings [] [minuteReading 1 0, minuteReading 2 1, minuteReading 2 2, minuteReading 3 3] []
    none).toOption.getD default

theorem plateau_reached :
    (minuteReading 2 0).magnitude.isFinite ∧
      bounds? (plateau.curve .pre) (minuteReading 2 0).magnitude = some (2, 1) ∧
      crossing (plateau.curve .pre) (minuteReading 2 0).magnitude = .reached (minuteReading 2 1).time := by
  have hfinite : (minuteReading 2 0).magnitude.isFinite := by decide +kernel
  have hfirst : (plateau.curve .pre).find? (fun r => r.magnitude.eqv (minuteReading 2 0).magnitude) =
      some (minuteReading 2 1) := by
    decide +kernel
  refine ⟨hfinite, by decide +kernel, ?_⟩
  exact (bounds?_runOn_or_straddled plateau .pre hfinite).2.2.2 _ hfirst

end Curve

end Totality
