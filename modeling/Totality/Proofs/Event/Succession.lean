import Totality.Proofs.Calendar.TimeScale
import Totality.Proofs.Event.Interpolation
import Totality.Proofs.Event.Percentages
import Totality.Proofs.Event.Proportion

/-!
# Percentages are passed in turn

If the instants of a limb's readings come in turn, then so do those of the percentages between them: forwards before
maximum, and backwards after it, where the readings are kept with rising magnitude. Each lies between the readings that
bracket it, so that a later segment never begins before an earlier one is over. Readings within a leap second, which are
at no instant, can be out of turn.
-/

namespace Totality

open Binary64

namespace Binary64

variable {low high x y : Binary64}

/-- What a target is above one number is finite if the way to a greater number is. -/
lemma isFinite_sub_of_lt (hx : x.isFinite) (hlow : low.lt x) (hhigh : x.lt high) (hway : (high - low).isFinite) :
    low.isFinite ∧ (x - low).isFinite := by
  have hle := sub_le_sub_of_lt hx hlow hhigh
  have hpos := zero_lt_sub hlow
  constructor
  · obtain ⟨hfinite, -⟩ | ⟨rfl, -⟩ | ⟨hfinite, -⟩ := finite_or_infinity_of_lt hlow
    · exact hfinite
    · have hhigh' : high.isFinite ∨ high = infinity false := by
        obtain ⟨-, hfinite⟩ | ⟨rfl, -⟩ | ⟨-, rfl⟩ := finite_or_infinity_of_lt hhigh
        · exact Or.inl hfinite
        · cases hx
        · exact Or.inr rfl
      rw [sub_infinity_true hhigh'] at hway
      cases hway
    · exact hfinite
  · obtain ⟨n, hn, heq, -⟩ | hinfinity := finite_or_infinity_of_pos hpos
    · rw [heq]
      rfl
    · -- an infinity is below nothing finite
      rw [hinfinity] at hle
      obtain ⟨hfinite, -⟩ | ⟨heq, -⟩ | ⟨-, heq⟩ := finite_or_infinity_of_le hle
      · cases hfinite
      · cases heq
      · rw [heq] at hway
        cases hway

/-- The fraction of a way that is infinite is none, or not-a-number. -/
lemma fraction_of_infinite (hlow : low.lt x) :
    (x - low) / infinity false = zero false ∨ (x - low) / infinity false = nan := by
  obtain ⟨n, hn, heq, -⟩ | hinfinity := finite_or_infinity_of_pos (zero_lt_sub hlow)
  · rw [heq]
    exact Or.inl rfl
  · rw [hinfinity]
    exact Or.inr rfl

lemma lt_of_le_of_lt {z : Binary64} (h : x.le y) (h' : y.lt z) : x.lt z := by
  simp only [lt, le] at *
  split at h <;> split at h' <;> simp_all
  omega

end Binary64

/-! ### Within a segment -/

namespace Duration

variable {low high x y : Binary64}

/-- Between two numbers, a greater one makes no shorter part of a duration that runs forwards, and no longer part of one
that runs backwards. -/
lemma scale_fraction_le (hx : x.isFinite) (hy : y.isFinite) (hlow : low.lt x) (hxy : x.le y) (hhigh : y.lt high)
    (d : Duration) :
    (0 ≤ d.nanos → (d.scale ((x - low) / (high - low))).nanos ≤ (d.scale ((y - low) / (high - low))).nanos) ∧
      (d.nanos ≤ 0 → (d.scale ((y - low) / (high - low))).nanos ≤ (d.scale ((x - low) / (high - low))).nanos) := by
  have hlow' : low.lt y := lt_of_lt_of_le hlow hxy
  have hhigh' : x.lt high := lt_of_le_of_lt hxy hhigh
  obtain ⟨n, hn, hway, hpos⟩ | hway := finite_or_infinity_of_pos (zero_lt_sub (lt_trans hlow hhigh'))
  · have hfinite : (high - low).isFinite := by rw [hway]; rfl
    obtain ⟨hlowFinite, hxFinite⟩ := isFinite_sub_of_lt hx hlow hhigh' hfinite
    obtain ⟨-, hyFinite⟩ := isFinite_sub_of_lt hy hlow' hhigh hfinite
    have hle := Binary64.div_le_div_right hxFinite hyFinite hn hpos (Binary64.sub_le_sub_right hx hy hlowFinite hxy)
    rw [hway]
    exact ⟨fun hd => scale_le_scale hd hle, fun hd => scale_le_scale_of_nonpos hd hle⟩
  · -- on an infinite way nobody gets ahead
    have hstill : ∀ {z : Binary64}, low.lt z → (d.scale ((z - low) / infinity false)).nanos = 0 := by
      intro z hz
      rcases fraction_of_infinite hz with heq | heq
      · rw [heq, scale_zero]
      · rw [heq, scale_nan]
    rw [hway, hstill hlow, hstill hlow']
    exact ⟨fun _ => Int.le_refl 0, fun _ => Int.le_refl 0⟩

end Duration

/-- The order in which the instants of a limb's readings come. -/
def Limb.InTurn : Limb → Instant → Instant → Prop
  | .pre, s, t => s ≤ t
  | .post, s, t => t ≤ s

instance (limb : Limb) (s t : Instant) : Decidable (limb.InTurn s t) :=
  match limb with
  | .pre => inferInstanceAs (Decidable (s ≤ t))
  | .post => inferInstanceAs (Decidable (t ≤ s))

namespace Limb.InTurn

variable {limb : Limb} {r s t : Instant}

protected lemma refl (limb : Limb) (t : Instant) : limb.InTurn t t := by
  cases limb <;> exact Int.le_refl _

protected lemma trans (h : limb.InTurn r s) (h' : limb.InTurn s t) : limb.InTurn r t := by
  cases limb with
  | pre => exact Int.le_trans h h'
  | post => exact Int.le_trans h' h

end Limb.InTurn

/-- The instant lies between two others, whichever of them comes first. -/
def Instant.Between (r s t : Instant) : Prop := min r.nanos s.nanos ≤ t.nanos ∧ t.nanos ≤ max r.nanos s.nanos

instance (r s t : Instant) : Decidable (Instant.Between r s t) := inferInstanceAs (Decidable (_ ∧ _))

lemma Instant.Between.inTurn {limb : Limb} {r s t : Instant} (h : Instant.Between r s t) (hrs : limb.InTurn r s) :
    limb.InTurn r t ∧ limb.InTurn t s := by
  obtain ⟨hge, hle⟩ := h
  cases limb with
  | pre =>
    have hrs' : r.nanos ≤ s.nanos := hrs
    constructor
    · change r.nanos ≤ t.nanos
      omega
    · change t.nanos ≤ s.nanos
      omega
  | post =>
    have hrs' : s.nanos ≤ r.nanos := hrs
    constructor
    · change t.nanos ≤ r.nanos
      omega
    · change s.nanos ≤ t.nanos
      omega

/-- Two instants are so close that the microseconds between them are numbers without rounding. -/
def Instant.Near (s t : Instant) : Prop := (t.nanos - s.nanos).natAbs < 9007199254740992000

instance (s t : Instant) : Decidable (s.Near t) := inferInstanceAs (Decidable (_ < _))

namespace Curve

variable {curve : List (Reading Instant)} {limb : Limb} {x y : Binary64} {low high : Reading Instant}

/-- Between two readings in turn a greater target is reached in turn. -/
lemma between_inTurn (hx : x.isFinite) (hy : y.isFinite) (hlow : low.magnitude.lt x) (hxy : x.le y)
    (hhigh : y.lt high.magnitude) (hturn : limb.InTurn low.time high.time) {s t : Instant}
    (hs : between low high x = .reached s) (ht : between low high y = .reached t) : limb.InTurn s t := by
  have hparts := Duration.scale_fraction_le hx hy hlow hxy hhigh (high.time.since low.time)
  have hsum : ∀ {z : Binary64} {u : Instant}, between low high z = .reached u → u.nanos = low.time.nanos +
      ((high.time.since low.time).scale ((z - low.magnitude) / (high.magnitude - low.magnitude))).nanos := by
    intro z u hu
    rw [between, TimeScale.add?_instant] at hu
    split at hu
    · next hadd =>
      cases hu
      exact Instant.add?_eq_some_iff.mp hadd
    · cases hu
  have hsince : (high.time.since low.time).nanos = high.time.nanos - low.time.nanos := rfl
  have hs' := hsum hs
  have ht' := hsum ht
  cases limb with
  | pre =>
    have hle : low.time.nanos ≤ high.time.nanos := hturn
    have hpart := hparts.1 (by omega)
    change s.nanos ≤ t.nanos
    omega
  | post =>
    have hle : high.time.nanos ≤ low.time.nanos := hturn
    have hpart := hparts.2 (by omega)
    change t.nanos ≤ s.nanos
    omega

/-! ### Along a limb -/

/-- The instants of the readings come in turn, and neighbours are near. -/
structure Orderly (limb : Limb) (curve : List (Reading Instant)) : Prop where
  inTurn : curve.Pairwise fun a b => limb.InTurn a.time b.time
  near : curve.IsChain fun a b => a.time.Near b.time

lemma Orderly.inTurn_of_le (h : Orderly limb curve) {i j : Nat} (hij : i ≤ j) (hlow : curve[i]? = some low)
    (hhigh : curve[j]? = some high) : limb.InTurn low.time high.time := by
  obtain ⟨hi, rfl⟩ := List.getElem?_eq_some_iff.mp hlow
  obtain ⟨hj, rfl⟩ := List.getElem?_eq_some_iff.mp hhigh
  rcases Nat.lt_or_eq_of_le hij with hlt | rfl
  · exact List.pairwise_iff_getElem.mp h.inTurn i j hi hj hlt
  · exact .refl limb _

lemma Orderly.near_of_neighbours (h : Orderly limb curve) {i : Nat} (hlow : curve[i]? = some low)
    (hhigh : curve[i + 1]? = some high) : low.time.Near high.time := by
  obtain ⟨hi, rfl⟩ := List.getElem?_eq_some_iff.mp hlow
  obtain ⟨hi', rfl⟩ := List.getElem?_eq_some_iff.mp hhigh
  exact List.isChain_iff_getElem.mp h.near i hi'

/-- The readings that bracket a target. -/
def Bracketed {τ : Type} (curve : List (Reading τ)) (target : Binary64) (low high : Reading τ) : Prop :=
  ∃ lo hi, bounds? curve target = some (lo, hi) ∧ curve[lo]? = some low ∧ curve[hi]? = some high

/-- A target between two readings is reached between their instants. It comes in turn behind all readings below it, and
before all others. -/
lemma exists_crossing (hcurve : Ascending curve) (h : Orderly limb curve) (hx : x.isFinite)
    (hbracket : Bracketed curve x low high) :
    ∃ t, crossing curve x = .reached t ∧ Instant.Between low.time high.time t ∧
      (∀ r ∈ curve, r.magnitude.lt x → limb.InTurn r.time t) ∧ ∀ r ∈ curve, x.le r.magnitude → limb.InTurn t r.time := by
  obtain ⟨lo, hi, hbounds, hlow, hhigh⟩ := hbracket
  obtain ⟨-, -, hplaces⟩ := of_bounds?_eq_some hcurve hbounds
  have hnan := ne_nan_of_isFinite hx
  rcases runOn_or_straddled hcurve hnan hbounds with hrun | hstraddled
  · refine ⟨high.time, hrun.crossing_eq hx hbounds hlow hhigh, ⟨Int.min_le_right _ _, Int.le_max_right _ _⟩, ?_, ?_⟩
    · intro r hr hlt
      obtain ⟨i, hi'⟩ := List.getElem?_of_mem hr
      have hnot := (not_le_iff_lt hnan (ne_nan_of_le (le_of_lt hlt)).1).mpr hlt
      rw [← (hplaces i r hi').2] at hnot
      exact h.inTurn_of_le (by omega) hi' hhigh
    · intro r hr hle
      obtain ⟨i, hi'⟩ := List.getElem?_of_mem hr
      exact h.inTurn_of_le ((hplaces i r hi').2.mpr hle) hhigh hi'
  · have hstraddled' := hstraddled
    obtain ⟨rfl, low', high', hlow', hhigh', hlt, hlt'⟩ := hstraddled
    cases hlow.symm.trans hlow'
    cases hhigh.symm.trans hhigh'
    obtain ⟨t, ht, hge, hle⟩ := between_eq_reached hx hlt hlt' (h.near_of_neighbours hlow hhigh)
    have hbetween : Instant.Between low.time high.time t := ⟨hge, hle⟩
    obtain ⟨hafter, hbefore⟩ := hbetween.inTurn (h.inTurn_of_le (Nat.le_succ lo) hlow hhigh)
    refine ⟨t, (hstraddled'.crossing_eq hbounds hlow hhigh).trans ht, hbetween, ?_, ?_⟩
    · intro r hr hbelow
      obtain ⟨i, hi'⟩ := List.getElem?_of_mem hr
      exact (h.inTurn_of_le ((hplaces i r hi').1.mpr (le_of_lt hbelow)) hi' hlow).trans hafter
    · intro r hr habove
      obtain ⟨i, hi'⟩ := List.getElem?_of_mem hr
      exact hbefore.trans (h.inTurn_of_le ((hplaces i r hi').2.mpr habove) hhigh hi')

/-- A greater target is reached in turn. -/
lemma crossing_inTurn (hcurve : Ascending curve) (h : Orderly limb curve) (hx : x.isFinite) (hy : y.isFinite)
    (hxy : x.le y) {low' high' : Reading Instant} (hbracket : Bracketed curve x low high)
    (hbracket' : Bracketed curve y low' high') {s t : Instant} (hs : crossing curve x = .reached s)
    (ht : crossing curve y = .reached t) : limb.InTurn s t := by
  obtain ⟨s', hs', -, -, hbefore⟩ := exists_crossing hcurve h hx hbracket
  cases hs.symm.trans hs'
  obtain ⟨t', ht', -, hafter, -⟩ := exists_crossing hcurve h hy hbracket'
  cases ht.symm.trans ht'
  by_cases hreading : ∃ r ∈ curve, x.le r.magnitude ∧ r.magnitude.lt y
  · obtain ⟨r, hr, hxr, hry⟩ := hreading
    exact (hbefore r hr hxr).trans (hafter r hr hry)
  · -- no reading parts the two targets
    obtain ⟨lo, hi, hbounds, hlow, hhigh⟩ := hbracket'
    rcases runOn_or_straddled hcurve (ne_nan_of_isFinite hy) hbounds with hrun | hstraddled
    · cases ht.symm.trans (hrun.crossing_eq hy hbounds hlow hhigh)
      obtain ⟨-, heqv, -⟩ := hrun.eqv_zero hy hlow hhigh
      exact hbefore high' (List.mem_of_getElem? hhigh) (le_trans hxy (le_and_le_iff_eqv.mpr heqv).2)
    · have hsegment := hstraddled.crossing_eq hbounds hlow hhigh
      obtain ⟨rfl, low'', high'', hlow'', hhigh'', hlt, hlt'⟩ := hstraddled
      cases hlow.symm.trans hlow''
      cases hhigh.symm.trans hhigh''
      have hmem := List.mem_of_getElem? hlow
      have hbelow : low'.magnitude.lt x := by
        rw [← not_le_iff_lt (ne_nan_of_isFinite hx) (ne_nan_of_le (le_of_lt hlt)).1]
        exact fun hle => hreading ⟨low', hmem, hle, hlt⟩
      have habove : x.lt high'.magnitude := lt_of_le_of_lt hxy hlt'
      have hsame := bounds?_of_neighbours hcurve hlow hhigh hbelow habove
      have hinside : Straddled curve x lo (lo + 1) := ⟨rfl, low', high', hlow, hhigh, hbelow, habove⟩
      have hturn := h.inTurn_of_le (Nat.le_succ lo) hlow hhigh
      refine between_inTurn hx hy hbelow hxy hlt' hturn ?_ (hsegment.symm.trans ht)
      exact (hinside.crossing_eq hsame hlow hhigh).symm.trans hs

end Curve

/-! ### Events -/

namespace EventTable

open Curve

/-- The event asks for a percentage on a limb, is no instant's name, and has its fraction between two readings. -/
structure FallsBetween (table : EventTable Instant) (limb : Limb) (event : String) (p : Binary64)
    (low high : Reading Instant) : Prop where
  asks : Asks event limb p
  unnamed : table.instant? event = none
  bracketed : Bracketed (table.curve limb) (p / .ofInt 100) low high

/-- Percentages on a limb in turn are instants in turn, each between those of the readings that bracket it: later for a
greater percentage before maximum, and earlier after it. -/
theorem resolve_inTurn {table : EventTable Instant} {limb : Limb} (h : Orderly limb (table.curve limb))
    {event event' : String} {p q : Binary64} {low high low' high' : Reading Instant}
    (hp : table.FallsBetween limb event p low high) (hq : table.FallsBetween limb event' q low' high') (hpq : p.le q) :
    ∃ s t, table.resolve event = .ok s ∧ table.resolve event' = .ok t ∧ limb.InTurn s t ∧
      Instant.Between low.time high.time s ∧ Instant.Between low'.time high'.time t := by
  have hcurve := table.curve_ascending limb
  have hx := isFinite_hundredth hp.asks.isFinite
  have hy := isFinite_hundredth hq.asks.isFinite
  obtain ⟨s, hs, hbetween, -⟩ := exists_crossing hcurve h hx hp.bracketed
  obtain ⟨t, ht, hbetween', -⟩ := exists_crossing hcurve h hy hq.bracketed
  have hxy := hundredth_le_hundredth hp.asks.isFinite hq.asks.isFinite hpq
  refine ⟨s, t, ?_, ?_, crossing_inTurn hcurve h hx hy hxy hp.bracketed hq.bracketed hs ht, hbetween, hbetween'⟩
  · rw [resolve_of_asks hp.asks hp.unnamed, hs]
  · rw [resolve_of_asks hq.asks hq.unnamed, ht]

/-- Half an hour from a reading of nothing to that of a half and on to that of all, and the same back, with the half
twice. -/
def hours (instants : List (String × Instant)) : EventTable Instant :=
  (ofReadings instants [minuteReading 0 0, minuteReading 5 30, minuteReading 10 60]
    [minuteReading 10 90, minuteReading 5 120, minuteReading 5 125, minuteReading 0 150] none).toOption.getD default

theorem resolve_hours_inTurn :
    ∃ s t, (hours []).resolve "MAGPOST 25" = .ok s ∧ (hours []).resolve "MAGPOST 75" = .ok t ∧ Limb.post.InTurn s t ∧
      Instant.Between (minuteReading 0 150).time (minuteReading 5 125).time s ∧
      Instant.Between (minuteReading 5 120).time (minuteReading 10 90).time t := by
  have horderly : Orderly .post ((hours []).curve .post) := ⟨by decide +kernel, by decide +kernel⟩
  have hquarter : (hours []).FallsBetween .post "MAGPOST 25" (.ofInt 25) (minuteReading 0 150) (minuteReading 5 125) :=
    ⟨⟨_, _, rfl, rfl, by decide +kernel, by decide +kernel⟩, by decide +kernel, 0, 1, by decide +kernel,
      by decide +kernel, by decide +kernel⟩
  have hthree : (hours []).FallsBetween .post "MAGPOST 75" (.ofInt 75) (minuteReading 5 120) (minuteReading 10 90) :=
    ⟨⟨_, _, rfl, rfl, by decide +kernel, by decide +kernel⟩, by decide +kernel, 2, 3, by decide +kernel,
      by decide +kernel, by decide +kernel⟩
  have hle : (Binary64.ofInt 25).le (.ofInt 75) := by decide +kernel
  exact resolve_inTurn horderly hquarter hthree hle

/-- A reading of all in the middle of a leap second. -/
def leapHigh : Reading Stamp := ⟨.one, .leapMiddle⟩

/-- A reading of nothing one and a half seconds before. -/
def leapLow : Reading Stamp := ⟨.zero false, ((Instant.ofNanos? 59000000000).getD default).stamp⟩

/-- An instant that bears the name of a percentage takes its place, out of turn. And where the second of two readings
lies within a leap second, a part of the way between them can lead beyond it. -/
theorem resolve_out_of_turn :
    let named := hours [("MAGPRE 50", (minuteReading 0 5).time)]
    let leap := (ofReadings [] [leapLow, leapHigh] [] none).toOption.getD default
    (Orderly .pre (named.curve .pre) ∧ Asks "MAGPRE 25" .pre (.ofInt 25) ∧ Asks "MAGPRE 50" .pre (.ofInt 50) ∧
        (Binary64.ofInt 25).le (.ofInt 50) ∧
        Bracketed (named.curve .pre) (.ofInt 25 / .ofInt 100) (minuteReading 0 0) (minuteReading 5 30) ∧
        Bracketed (named.curve .pre) (.ofInt 50 / .ofInt 100) (minuteReading 5 30) (minuteReading 5 30) ∧
        ∃ s t, named.resolve "MAGPRE 25" = .ok s ∧ named.resolve "MAGPRE 50" = .ok t ∧ ¬Limb.pre.InTurn s t ∧
          ¬Instant.Between (minuteReading 5 30).time (minuteReading 5 30).time t) ∧
      leap.curve .pre = [leapLow, leapHigh] ∧
        leapLow.time.NotAfter leapHigh.time ∧ leapHigh.time.since leapLow.time = .ofMicros 1500000 ∧
        Asks "MAGPRE 80" .pre (.ofInt 80) ∧ Asks "MAGPRE 100" .pre (.ofInt 100) ∧
        (Binary64.ofInt 80).le (.ofInt 100) ∧
        Bracketed (leap.curve .pre) (.ofInt 80 / .ofInt 100) leapLow leapHigh ∧
        Bracketed (leap.curve .pre) (.ofInt 100 / .ofInt 100) leapHigh leapHigh ∧
        ∃ s, leap.resolve "MAGPRE 80" = .ok s ∧ leap.resolve "MAGPRE 100" = .ok leapHigh.time ∧
          ¬s.NotAfter leapHigh.time := by
  constructor
  · exact ⟨⟨by decide +kernel, by decide +kernel⟩, ⟨_, _, rfl, rfl, by decide +kernel, by decide +kernel⟩,
      ⟨_, _, rfl, rfl, by decide +kernel, by decide +kernel⟩, by decide +kernel,
      ⟨0, 1, by decide +kernel, by decide +kernel, by decide +kernel⟩,
      ⟨1, 1, by decide +kernel, by decide +kernel, by decide +kernel⟩,
      (minuteReading 0 15).time, (minuteReading 0 5).time, by decide +kernel, by decide +kernel, by decide +kernel,
      by decide +kernel⟩
  · exact ⟨by decide +kernel, by decide +kernel, by decide +kernel,
      ⟨_, _, rfl, rfl, by decide +kernel, by decide +kernel⟩, ⟨_, _, rfl, rfl, by decide +kernel, by decide +kernel⟩,
      by decide +kernel, ⟨0, 1, by decide +kernel, by decide +kernel, by decide +kernel⟩,
      ⟨1, 1, by decide +kernel, by decide +kernel, by decide +kernel⟩,
      ((Instant.ofNanos? 60200000000).getD default).stamp, by decide +kernel, by decide +kernel, by decide +kernel⟩

end EventTable

end Totality
