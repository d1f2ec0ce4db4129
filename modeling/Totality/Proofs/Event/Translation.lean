import Totality.Proofs.Calendar.Instant
import Totality.Proofs.Event.Map
import Totality.Proofs.Except

/-!
# Events of a table that is moved in time

If all instants of an event table lie a duration later, so do all events. An interpolation looks at magnitudes and at
the time between two instants, and neither of them changes.
-/

namespace Totality

/-! ### Instants -/

/-- The point of time a duration later, or the same one where the calendar ends before. -/
def TimeScale.moved {τ : Type} [TimeScale τ] (d : Duration) (t : τ) : τ := (add? t d).getD t

namespace Instant

/-- The calendar has the instant a duration later. -/
def Movable (d : Duration) (t : Instant) : Prop := InCalendar (t.nanos + d.nanos)

instance (d : Duration) (t : Instant) : Decidable (t.Movable d) := inferInstanceAs (Decidable (InCalendar _))

/-- The second instant lies behind the first by exactly a duration. -/
def Trails (d : Duration) (t t' : Instant) : Prop := t'.nanos = t.nanos + d.nanos

variable {d e : Duration} {s t t' : Instant}

lemma trails_moved (h : t.Movable d) : t.Trails d (TimeScale.moved d t) := by
  rw [TimeScale.moved, TimeScale.add?_instant]
  cases hadd : t.add? d with
  | none => exact absurd h (add?_eq_none_iff.mp hadd)
  | some t' => exact add?_eq_some_iff.mp hadd

lemma since_moved (hs : s.Movable d) (ht : t.Movable d) :
    (TimeScale.moved d t).since (TimeScale.moved d s) = t.since s := by
  simp only [since, Duration.mk.injEq]
  rw [trails_moved hs, trails_moved ht]
  omega

/-- Moved on by one duration, two instants keep their distance, unless one of them leaves the calendar. -/
lemma Trails.add?_cases (h : t.Trails d t') :
    (∃ u u', t.add? e = some u ∧ t'.add? e = some u' ∧ u.Trails d u') ∨ t.add? e = none ∨ t'.add? e = none := by
  cases hu : t.add? e with
  | none => exact Or.inr (Or.inl rfl)
  | some u =>
    cases hu' : t'.add? e with
    | none => exact Or.inr (Or.inr rfl)
    | some u' =>
      refine Or.inl ⟨u, u', rfl, rfl, ?_⟩
      rw [add?_eq_some_iff] at hu hu'
      rw [Trails] at *
      omega

end Instant

/-! ### Curves -/

/-- A magnitude outside two curves, or reached on both, on the second one later by exactly a duration. -/
inductive Crossing.Trails (d : Duration) : Crossing Instant → Crossing Instant → Prop where
  | outside : Crossing.Trails d .outside .outside
  | reached {t t' : Instant} (h : t.Trails d t') : Crossing.Trails d (.reached t) (.reached t')

namespace Curve

variable {curve : List (Reading Instant)} {d : Duration} {target : Binary64}

lemma between_moved {low high : Reading Instant} (hlow : low.time.Movable d) (hhigh : high.time.Movable d)
    (hin : between low high target ≠ .overflow)
    (hin' : between (low.map (TimeScale.moved d)) (high.map (TimeScale.moved d)) target ≠ .overflow) :
    ∃ t t', between low high target = .reached t ∧
      between (low.map (TimeScale.moved d)) (high.map (TimeScale.moved d)) target = .reached t' ∧ t.Trails d t' := by
  simp only [between, TimeScale.add?_instant, TimeScale.since_instant, Reading.magnitude_map, Reading.time_map,
    Instant.since_moved hlow hhigh] at *
  rcases (Instant.trails_moved hlow).add?_cases with ⟨t, t', ht, ht', h⟩ | hnone | hnone
  · exact ⟨t, t', by rw [ht], by rw [ht'], h⟩
  · simp [hnone] at hin
  · simp [hnone] at hin'

lemma crossing_map_moved (hcurve : ∀ r ∈ curve, r.time.Movable d) (hin : crossing curve target ≠ .overflow)
    (hin' : crossing (curve.map (.map (TimeScale.moved d))) target ≠ .overflow) :
    (crossing curve target).Trails d (crossing (curve.map (.map (TimeScale.moved d))) target) := by
  simp only [crossing, bounds?_map, List.getElem?_map] at *
  cases hbounds : bounds? curve target with
  | none => exact .outside
  | some bounds =>
    obtain ⟨lo, hi⟩ := bounds
    rw [hbounds] at hin hin'
    cases hlow : curve[lo]? with
    | none => simpa [hlow] using Crossing.Trails.outside
    | some low =>
      cases hhigh : curve[hi]? with
      | none => simpa [hlow, hhigh] using Crossing.Trails.outside
      | some high =>
        have hmlow := hcurve low (List.mem_of_getElem? hlow)
        have hmhigh := hcurve high (List.mem_of_getElem? hhigh)
        simp only [hlow, hhigh, Option.map_some, Reading.magnitude_map] at *
        by_cases hsame : lo = hi
        · simp only [hsame, if_true]
          exact .reached (Instant.trails_moved hmlow)
        by_cases hflat : (high.magnitude - low.magnitude).eqv (.zero false)
        · simp only [hsame, hflat, if_true, if_false]
          split_ifs
          · exact .reached (Instant.trails_moved hmlow)
          · exact .reached (Instant.trails_moved hmhigh)
        · simp only [hsame, hflat, if_false] at *
          obtain ⟨t, t', ht, ht', h⟩ := between_moved hmlow hmhigh hin hin'
          rw [ht, ht']
          exact .reached h

end Curve

/-! ### Tables -/

/-- There is no result, since a sum that was needed for it is out of the calendar. -/
def OffCalendar {α : Type} (x : Except ResolutionError α) : Prop :=
  ∃ name, x = .error (.outOfRange name) ∨ x = .error (.overflow name)

@[simp] lemma offCalendar_outOfRange {α : Type} (name : String) :
    OffCalendar (.error (.outOfRange name) : Except ResolutionError α) := ⟨name, Or.inl rfl⟩

@[simp] lemma offCalendar_overflow {α : Type} (name : String) :
    OffCalendar (.error (.overflow name) : Except ResolutionError α) := ⟨name, Or.inr rfl⟩

namespace EventTable

/-- The table with all its instants and readings moved. -/
abbrev moved {τ : Type} [TimeScale τ] (d : Duration) (table : EventTable τ) : EventTable τ :=
  table.map (TimeScale.moved d)

/-- The calendar has all instants and readings of a table when they are moved. -/
structure Movable (d : Duration) (table : EventTable Instant) : Prop where
  instants : ∀ p ∈ table.instants, p.2.Movable d
  curve : ∀ limb, ∀ r ∈ table.curve limb, r.time.Movable d

/-- A sum on the way to the instant of an event leaves the calendar. -/
def Escapes (table : EventTable Instant) (event : String) : Prop := OffCalendar (table.resolve event)

variable {table : EventTable Instant} {d : Duration} {event : String}

lemma Movable.of_instant? (h : table.Movable d) {name : String} {t : Instant} (ht : table.instant? name = some t) :
    t.Movable d := by
  obtain ⟨p, hp, rfl⟩ := Option.map_eq_some_iff.mp ht
  exact h.instants p (List.mem_of_find?_eq_some hp)

lemma contact_moved (h : table.Movable d) (event contact : String) :
    Agree (fun t t' => t.Movable d ∧ t' = TimeScale.moved d t) (table.contact event contact)
      ((table.moved d).contact event contact) := by
  rw [EventTable.contact, EventTable.contact, instant?_map]
  cases ht : table.instant? contact with
  | none => exact .error _
  | some t => exact .ok ⟨h.of_instant? ht, rfl⟩

lemma fallback_moved (h : table.Movable d) {fraction : Binary64} {limb : Limb}
    (hin : ¬OffCalendar (table.fallback event fraction limb))
    (hin' : ¬OffCalendar ((table.moved d).fallback event fraction limb)) :
    Agree (Instant.Trails d) (table.fallback event fraction limb) ((table.moved d).fallback event fraction limb) := by
  cases limb with
  | pre =>
    refine (contact_moved h event "C1").bind fun first first' hfirst hfirst' ⟨hm, heq⟩ => ?_
    refine (contact_moved h event "C2").bind fun second second' hsecond hsecond' ⟨hm', heq'⟩ => ?_
    subst heq heq'
    simp only [fallback, hfirst, hfirst', hsecond, hsecond', bind, Except.bind, maxMagnitude_map,
      TimeScale.add?_instant, TimeScale.since_instant, Instant.since_moved hm hm'] at *
    rcases (Instant.trails_moved hm).add?_cases with ⟨u, u', hu, hu', htrails⟩ | hnone | hnone
    · rw [hu, hu']
      exact .ok htrails
    · simp [hnone] at hin
    · simp [hnone] at hin'
  | post =>
    -- the last contact is the base here, and not the first one of the two
    refine (contact_moved h event "C3").bind fun third third' hthird hthird' ⟨hm, heq⟩ => ?_
    refine (contact_moved h event "C4").bind fun fourth fourth' hfourth hfourth' ⟨hm', heq'⟩ => ?_
    subst heq heq'
    simp only [fallback, hthird, hthird', hfourth, hfourth', bind, Except.bind, TimeScale.add?_instant,
      TimeScale.since_instant, Instant.since_moved hm hm'] at *
    rcases (Instant.trails_moved hm').add?_cases with ⟨u, u', hu, hu', htrails⟩ | hnone | hnone
    · rw [hu, hu']
      exact .ok htrails
    · simp [hnone] at hin
    · simp [hnone] at hin'

lemma resolveMagnitude_moved (h : table.Movable d) {percent : List Char} {limb : Limb}
    (hin : ¬OffCalendar (table.resolveMagnitude event percent limb))
    (hin' : ¬OffCalendar ((table.moved d).resolveMagnitude event percent limb)) :
    Agree (Instant.Trails d) (table.resolveMagnitude event percent limb)
      ((table.moved d).resolveMagnitude event percent limb) := by
  simp only [resolveMagnitude, curve_map] at *
  cases hfraction : fraction? percent with
  | none => exact .error _
  | some fraction =>
    simp only [hfraction] at *
    have hover : Curve.crossing (table.curve limb) fraction ≠ .overflow := by
      intro hover
      simp [hover] at hin
    have hover' : Curve.crossing ((table.curve limb).map (.map (TimeScale.moved d))) fraction ≠ .overflow := by
      intro hover
      simp [hover] at hin'
    have htrails := Curve.crossing_map_moved (h.curve limb) hover hover'
    generalize Curve.crossing (table.curve limb) fraction = x at *
    generalize Curve.crossing ((table.curve limb).map (.map (TimeScale.moved d))) fraction = x' at *
    cases htrails with
    | outside => exact fallback_moved h hin hin'
    | reached htrails => exact .ok htrails

/-- The moved table has an event where the table has it, later by exactly as much, or both lack it for the same
reason. -/
lemma resolve_moved (h : table.Movable d) (hin : ¬table.Escapes event) (hin' : ¬(table.moved d).Escapes event) :
    Agree (Instant.Trails d) (table.resolve event) ((table.moved d).resolve event) := by
  simp only [Escapes, resolve, instant?_map] at *
  cases ht : table.instant? event with
  | some t => exact .ok (Instant.trails_moved (h.of_instant? ht))
  | none =>
    simp only [ht, Option.map_none] at *
    split
    · next word percent hwords =>
      simp only [hwords] at *
      cases hlimb : limbOf? word with
      | none => exact .error _
      | some limb =>
        simp only [hlimb] at *
        exact resolveMagnitude_moved h hin hin'
    · exact .error _

end EventTable

end Totality
