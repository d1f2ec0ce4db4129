import Totality.Proofs.Event.ExportedTable
import Totality.Proofs.Event.Succession

/-!
# Percentages within a partial phase

A percentage that the curve does not reach is placed between the two contacts of its partial phase. After maximum it lies
between them, the greater the percentage the earlier. Before maximum its share of the phase is multiplied with the
greatest magnitude. It lies behind the first contact, the greater the percentage the later, and before the second one
as long as the product is at most one.
-/

namespace Totality

open Binary64

namespace Duration

variable {d : Duration} {f g : Binary64}

/-- The whole of a duration is itself, to the microsecond. -/
lemma scale_one (hd : d.nanos.natAbs < 9007199254740992000) : (d.scale .one).nanos = d.nanos.tdiv 1000 * 1000 := by
  have hdiv := tdiv_thousand d.nanos
  rw [nanos_scale, wordMicros_eq hd, Binary64.mul_comm, Binary64.one_mul, roundTo_ofInt (by omega)]

lemma scale_nonneg (hd : 0 ≤ d.nanos) (hf : f = .nan ∨ (Binary64.zero false).le f) : 0 ≤ (d.scale f).nanos := by
  rcases hf with rfl | hf
  · rw [scale_nan]
  · have hle := scale_le_scale hd hf
    rwa [scale_zero] at hle

/-- What is at most the whole of a duration. -/
lemma scale_le (hd : 0 ≤ d.nanos) (hd' : d.nanos.natAbs < 9007199254740992000) (hf : ¬one.lt f) :
    (d.scale f).nanos ≤ d.nanos := by
  have hone : one ≠ .nan := by decide +kernel
  by_cases hnan : f = .nan
  · rw [hnan, scale_nan]
    exact hd
  · have hle := scale_le_scale hd ((not_lt_iff_le hnan hone).mp hf)
    have hdiv := tdiv_thousand d.nanos
    rw [scale_one hd'] at hle
    omega

/-- What is at least the whole of a duration, to the microsecond. -/
lemma lt_scale_add (hd : 0 ≤ d.nanos) (hd' : d.nanos.natAbs < 9007199254740992000) (hf : one.le f) :
    d.nanos < (d.scale f).nanos + 1000 := by
  have hle := scale_le_scale hd hf
  have hdiv := tdiv_thousand d.nanos
  rw [scale_one hd'] at hle
  omega

end Duration

/-- The contacts at which the partial phase of a limb begins and ends. -/
def Limb.contacts : Limb → String × String
  | .pre => ("C1", "C2")
  | .post => ("C3", "C4")

namespace EventTable

variable {table : EventTable Instant} {limb : Limb} {event : String} {first last : Instant} {p q f : Binary64}

/-- The partial phase of a limb has its contacts, which are in order and near. -/
structure Partial (table : EventTable Instant) (limb : Limb) (first last : Instant) : Prop where
  begins : table.instant? limb.contacts.1 = some first
  ends : table.instant? limb.contacts.2 = some last
  inOrder : first ≤ last
  near : first.Near last

/-- The event asks for a percentage that the curve does not reach. -/
structure Outside (table : EventTable Instant) (limb : Limb) (event : String) (p : Binary64) : Prop where
  asks : Asks event limb p
  nonneg : (zero false).le p
  atMost : p.le (.ofInt 100)
  bounds : Curve.bounds? (table.curve limb) (p / .ofInt 100) = none

/-- The share of the partial phase before maximum that a percentage takes. -/
def share (table : EventTable Instant) (p : Binary64) : Binary64 := p / .ofInt 100 * table.maxMagnitude

lemma Partial.nanos_nonneg (h : table.Partial limb first last) : 0 ≤ (last.since first).nanos :=
  Int.sub_nonneg_of_le h.inOrder

lemma Outside.resolve_eq (h : table.Outside limb event p) (hname : table.instant? event = none) :
    table.resolve event = table.fallback event (p / .ofInt 100) limb := by
  rw [resolve_of_asks h.asks hname, (Curve.crossing_eq_outside_iff (table.curve_ascending limb)).mpr h.bounds]

/-- The fraction of a percentage is a fraction. -/
lemma Outside.hundredth_mem (h : table.Outside limb event p) :
    (zero false).le (p / .ofInt 100) ∧ (p / .ofInt 100).le .one := by
  have hbottom : (zero false : Binary64) / .ofInt 100 = zero false := by decide +kernel
  have htop : Binary64.ofInt 100 / .ofInt 100 = .one := by decide +kernel
  have hhundred : (Binary64.ofInt 100).isFinite := by decide +kernel
  constructor
  · rw [← hbottom]
    exact hundredth_le_hundredth rfl h.asks.isFinite h.nonneg
  · rw [← htop]
    exact hundredth_le_hundredth h.asks.isFinite hhundred h.atMost

/-- A greater percentage after maximum lies earlier, and both lie between the contacts. -/
lemma exists_fallback_post (h : table.Partial .post first last) {event' : String} (hp : table.Outside .post event p)
    (hq : table.Outside .post event' q) (hpq : p.le q) :
    ∃ s t, table.fallback event (p / .ofInt 100) .post = .ok s ∧ table.fallback event' (q / .ofInt 100) .post = .ok t ∧
      first ≤ t ∧ t ≤ s ∧ s ≤ last := by
  have hd := h.nanos_nonneg
  have hsince : (last.since first).nanos = last.nanos - first.nanos := rfl
  have hle := Duration.scale_le_scale hd (hundredth_le_hundredth hp.asks.isFinite hq.asks.isFinite hpq)
  have hnonneg := Duration.scale_nonneg hd (Or.inr hp.hundredth_mem.1)
  have hwhole := Duration.scale_le hd h.near (f := q / .ofInt 100) fun hlt => by
    have hnan := ne_nan_of_le hq.hundredth_mem.2
    exact (not_lt_iff_le hnan.1 hnan.2).mpr hq.hundredth_mem.2 hlt
  have hneg : ∀ d : Duration, (-d).nanos = -d.nanos := fun _ => rfl
  obtain ⟨s, hs, hs'⟩ := Instant.exists_add?_of_between first last (t := last)
    (d := -(last.since first).scale (p / .ofInt 100)) (by rw [hneg]; omega) (by rw [hneg]; omega)
  obtain ⟨t, ht, ht'⟩ := Instant.exists_add?_of_between first last (t := last)
    (d := -(last.since first).scale (q / .ofInt 100)) (by rw [hneg]; omega) (by rw [hneg]; omega)
  rw [hneg] at hs' ht'
  refine ⟨s, t, ?_, ?_, ?_, ?_, ?_⟩
  · rw [fallback_post_eq h.begins h.ends, hs, Option.elim_some]
  · rw [fallback_post_eq h.begins h.ends, ht, Option.elim_some]
  · change first.nanos ≤ t.nanos
    omega
  · change t.nanos ≤ s.nanos
    omega
  · change s.nanos ≤ last.nanos
    omega

/-- A greater percentage before maximum lies later, and both lie behind the first contact, unless the calendar has no
such instant. It has one before the second contact for a share of at most one. -/
lemma fallback_pre_cases (h : table.Partial .pre first last) (hpeak : (zero false).le table.maxMagnitude)
    {event' : String} (hp : table.Outside .pre event p) (hq : table.Outside .pre event' q) (hpq : p.le q) :
    (one.lt (table.share q) ∧ table.fallback event' (q / .ofInt 100) .pre = .error (.outOfRange event')) ∨
      ∃ s t, table.fallback event (p / .ofInt 100) .pre = .ok s ∧ table.fallback event' (q / .ofInt 100) .pre = .ok t ∧
        first ≤ s ∧ s ≤ t ∧ (¬one.lt (table.share q) → t ≤ last) ∧
        (one.le (table.share q) → last.nanos < t.nanos + 1000) := by
  have hd := h.nanos_nonneg
  have hsince : (last.since first).nanos = last.nanos - first.nanos := rfl
  have hxy := hundredth_le_hundredth hp.asks.isFinite hq.asks.isFinite hpq
  have hnonneg := Duration.scale_nonneg hd (zero_le_mul hp.hundredth_mem.1 hpeak)
  have hle : ((last.since first).scale (table.share p)).nanos ≤ ((last.since first).scale (table.share q)).nanos := by
    rcases mul_le_mul_of_nonneg hp.hundredth_mem.1 hxy (isFinite_hundredth hq.asks.isFinite) hpeak with hnan | hle
    · rw [share, hnan, Duration.scale_nan]
      exact Duration.scale_nonneg hd (zero_le_mul hq.hundredth_mem.1 hpeak)
    · exact Duration.scale_le_scale hd hle
  change 0 ≤ ((last.since first).scale (table.share p)).nanos at hnonneg
  have hwhole : ¬one.lt (table.share q) → _ := Duration.scale_le hd h.near
  have hover : one.le (table.share q) → _ := Duration.lt_scale_add hd h.near
  rw [fallback_pre_eq h.begins h.ends, fallback_pre_eq h.begins h.ends, ← share, ← share]
  cases hadd : first.add? ((last.since first).scale (table.share q)) with
  | none =>
    refine Or.inl ⟨by_contra fun hshare => ?_, rfl⟩
    have := hwhole hshare
    obtain ⟨t, ht, -⟩ := Instant.exists_add?_of_between first last (t := first)
      (d := (last.since first).scale (table.share q)) (by omega) (by omega)
    cases hadd.symm.trans ht
  | some t =>
    have ht := Instant.add?_eq_some_iff.mp hadd
    obtain ⟨s, hs, hs'⟩ := Instant.exists_add?_of_between first t (t := first)
      (d := (last.since first).scale (table.share p)) (by omega) (by omega)
    refine Or.inr ⟨s, t, by rw [hs, Option.elim_some], rfl, ?_, ?_, fun hshare => ?_, fun hshare => ?_⟩
    · change first.nanos ≤ s.nanos
      omega
    · change s.nanos ≤ t.nanos
      omega
    · have := hwhole hshare
      change t.nanos ≤ last.nanos
      omega
    · have := hover hshare
      omega

/-- In the table of an export, percentages that the curve does not reach are in turn within the partial phase: after
maximum between its contacts, and before maximum behind the first contact. There they lie before the second contact if
the share is at most one, as it is where the greatest magnitude is, and otherwise not before it. -/
theorem resolve_outside {text : List Char} (hread : TimingExport.read text = .ok table) {event' : String} :
    (table.Partial .pre first last → table.Outside .pre event p → table.Outside .pre event' q → p.le q →
      ((one.lt (table.share q) ∧ table.resolve event' = .error (.outOfRange event')) ∨
        ∃ s t, table.resolve event = .ok s ∧ table.resolve event' = .ok t ∧ first ≤ s ∧ s ≤ t ∧
          (¬one.lt (table.share q) → t ≤ last) ∧ (one.le (table.share q) → last.nanos < t.nanos + 1000)) ∧
      (table.maxMagnitude.le one → ¬one.lt (table.share q))) ∧
    (table.Partial .post first last → table.Outside .post event p → table.Outside .post event' q → p.le q →
      ∃ s t, table.resolve event = .ok s ∧ table.resolve event' = .ok t ∧ first ≤ t ∧ t ≤ s ∧ s ≤ last) := by
  have hpeak := TimingExport.zero_le_maxMagnitude_of_read hread
  have hname : ∀ {limb : Limb} {event : String} {p : Binary64}, table.Outside limb event p →
      table.resolve event = table.fallback event (p / .ofInt 100) limb := fun hp =>
    hp.resolve_eq (TimingExport.instant?_of_asks_of_read hread hp.asks)
  constructor
  · intro h hp hq hpq
    rw [hname hp, hname hq]
    refine ⟨fallback_pre_cases h hpeak hp hq hpq, fun hone => ?_⟩
    have honeFinite : one.isFinite := by decide +kernel
    rcases mul_le_mul_of_nonneg hq.hundredth_mem.1 hq.hundredth_mem.2 honeFinite hpeak with hnan | hle
    · rw [share, hnan]
      decide +kernel
    · rw [Binary64.one_mul] at hle
      have hshare := le_trans hle hone
      have hnan := ne_nan_of_le hshare
      exact (not_lt_iff_le hnan.1 hnan.2).mpr hshare
  · intro h hp hq hpq
    rw [hname hp, hname hq]
    exact exists_fallback_post h hp hq hpq

/-! ### An eclipse without readings -/

/-- The contacts of 8 April 2024 from 17:00 to 20:00, an hour apart, and a greatest magnitude. -/
def phases (peak : String) : List Char :=
  ("1st Contact  2024/04/08  17:00:00.0\n2nd Contact  2024/04/08  18:00:00.0\n3rd Contact  2024/04/08  19:00:00.0\n" ++
    "4th Contact  2024/04/08  20:00:00.0\nMagnitude at maximum : " ++ peak).toList

/-- So many minutes after the first contact of this eclipse. -/
def phaseTime (minutes : Nat) : Instant :=
  (Instant.ofNanos? (1712595600000000000 + minutes * 60000000000)).getD default

/-- Both partial phases of this eclipse last an hour, and no reading lies in them. -/
lemma exists_phases (peak : String) {x : Binary64}
    (hread : (TimingExport.read (phases peak)).map
      (fun table => (table.instants, table.pre, table.post, table.maxMagnitude)) =
      .ok ([("C1", phaseTime 0), ("C2", phaseTime 60), ("C3", phaseTime 120), ("C4", phaseTime 180)], [], [], x)) :
    ∃ table, TimingExport.read (phases peak) = .ok table ∧ table.maxMagnitude = x ∧
      table.Partial .pre (phaseTime 0) (phaseTime 60) ∧ table.Partial .post (phaseTime 120) (phaseTime 180) ∧
      ∀ {limb event p}, Asks event limb p → (zero false).le p → p.le (.ofInt 100) → table.Outside limb event p := by
  rw [map_eq_ok] at hread
  obtain ⟨table, htable, hdata⟩ := hread
  simp only [Prod.mk.injEq] at hdata
  obtain ⟨hinstants, hpre, hpost, hmax⟩ := hdata
  refine ⟨table, htable, hmax, ?_, ?_, fun {limb event p} hasks hnonneg hatMost => ⟨hasks, hnonneg, hatMost, ?_⟩⟩
  · constructor
    · rw [instant?, hinstants]
      decide
    · rw [instant?, hinstants]
      decide
    · decide
    · decide
  · constructor
    · rw [instant?, hinstants]
      decide
    · rw [instant?, hinstants]
      decide
    · decide
    · decide
  · cases limb with
    | pre =>
      rw [curve, hpre]
      rfl
    | post =>
      rw [curve, hpost]
      rfl

theorem resolve_half_phases :
    ∃ table, TimingExport.read (phases "0.5") = .ok table ∧
      (∃ s t, table.resolve "MAGPRE 50" = .ok s ∧ table.resolve "MAGPRE 100" = .ok t ∧ phaseTime 0 ≤ s ∧ s ≤ t ∧
        t ≤ phaseTime 60) ∧
      ∃ s t, table.resolve "MAGPOST 50" = .ok s ∧ table.resolve "MAGPOST 100" = .ok t ∧ phaseTime 120 ≤ t ∧ t ≤ s ∧
        s ≤ phaseTime 180 := by
  obtain ⟨table, hread, hmax, hpre, hpost, houtside⟩ :=
    exists_phases "0.5" (x := .ofUnits false Binary64.scale 2) (by decide +kernel)
  have hfifty : (zero false).le (.ofInt 50) ∧ (Binary64.ofInt 50).le (.ofInt 100) := by decide +kernel
  have hhundred : (zero false).le (.ofInt 100) ∧ (Binary64.ofInt 100).le (.ofInt 100) := by decide +kernel
  have hasks : Asks "MAGPRE 50" .pre (.ofInt 50) ∧ Asks "MAGPRE 100" .pre (.ofInt 100) ∧
      Asks "MAGPOST 50" .post (.ofInt 50) ∧ Asks "MAGPOST 100" .post (.ofInt 100) :=
    ⟨⟨_, _, rfl, rfl, by decide +kernel, by decide +kernel⟩, ⟨_, _, rfl, rfl, by decide +kernel, by decide +kernel⟩,
      ⟨_, _, rfl, rfl, by decide +kernel, by decide +kernel⟩, ⟨_, _, rfl, rfl, by decide +kernel, by decide +kernel⟩⟩
  refine ⟨table, hread, ?_, ?_⟩
  · obtain ⟨hcases, hone⟩ := (resolve_outside hread).1 hpre (houtside hasks.1 hfifty.1 hfifty.2)
      (houtside hasks.2.1 hhundred.1 hhundred.2) hfifty.2
    have hshare := hone (by rw [hmax]; decide +kernel)
    obtain ⟨s, t, hs, ht, hfirst, hst, hlast, -⟩ := hcases.resolve_left fun hout => hshare hout.1
    exact ⟨s, t, hs, ht, hfirst, hst, hlast hshare⟩
  · exact (resolve_outside hread).2 hpost (houtside hasks.2.2.1 hfifty.1 hfifty.2)
      (houtside hasks.2.2.2 hhundred.1 hhundred.2) hfifty.2

/-- With a greatest magnitude above one the whole of it lies behind the second contact. -/
theorem resolve_total_phases :
    ∃ table, TimingExport.read (phases "1.0136") = .ok table ∧ table.Partial .pre (phaseTime 0) (phaseTime 60) ∧
      table.Partial .post (phaseTime 120) (phaseTime 180) ∧ table.Outside .pre "MAGPRE 100" (.ofInt 100) ∧
      ∃ t, table.resolve "MAGPRE 100" = .ok t ∧ phaseTime 60 < t := by
  have hread : (TimingExport.read (phases "1.0136")).map (fun table => table.resolve "MAGPRE 100") =
      .ok (.ok ⟨1712599248960000000, by decide⟩) := by
    decide +kernel
  obtain ⟨table, htable, -, hpre, hpost, houtside⟩ :=
    exists_phases "1.0136" (x := .ofUnits false (10136 * Binary64.scale) 10000) (by decide +kernel)
  rw [htable] at hread
  refine ⟨table, htable, hpre, hpost, houtside ?_ (by decide +kernel) (by decide +kernel), _, Except.ok.inj hread,
    by decide⟩
  exact ⟨_, _, rfl, rfl, by decide +kernel, by decide +kernel⟩

end EventTable

end Totality
