import Totality.Proofs.Event.Overshoot
import Totality.Proofs.Event.PartialPhase

/-!
# Contact times without cutting

A multiple of a partial phase is a number of microseconds in a word of 64 bits, and where it does not fit, the nearest
number that does is taken in its place. What an event would be if it were refused instead is `resolveExactly`.
-/

namespace Totality

open Binary64 Calendar

/-- A number that fits a 64-bit signed word. -/
def Word (z : Int) : Prop := wordMin ≤ z ∧ z ≤ wordMax

instance (z : Int) : Decidable (Word z) := inferInstanceAs (Decidable (_ ∧ _))

/-! ### Nearest whole numbers -/

namespace Binary64

/-- The nearest whole number, a half away from zero, if there is one. -/
def nearest? : Binary64 → Option Int
  | .finite s n _ => some (signed s ((2 * n + scale) / (2 * scale)))
  | _ => none

variable {x : Binary64} {z : Int}

lemma roundTo_of_nearest? (h : x.nearest? = some z) (lo hi : Int) : x.roundTo lo hi = clampInt lo hi z := by
  cases x with
  | nan => cases h
  | infinity s => cases h
  | finite s n hn =>
    obtain rfl := Option.some.inj h
    rfl

lemma roundTo_of_word (h : x.nearest? = some z) (hz : Word z) : x.roundTo wordMin wordMax = z := by
  rw [roundTo_of_nearest? h, clampInt, Int.min_eq_right hz.2, Int.max_eq_right hz.1]

/-- Without a nearest whole number, an end of the range is taken. -/
lemma roundTo_of_nearest?_eq_none (hx : x ≠ .nan) (h : x.nearest? = none) (lo hi : Int) :
    x.roundTo lo hi = lo ∨ x.roundTo lo hi = hi := by
  cases x with
  | nan => exact absurd rfl hx
  | infinity s => cases s <;> simp [roundTo]
  | finite s n hn => cases h

lemma mul_ne_nan {y : Binary64} (hx : x.isFinite) (hy : y.isFinite) : x * y ≠ .nan := by
  obtain ⟨s, m, hm, rfl⟩ := exists_of_isFinite hx
  obtain ⟨t, n, hn, rfl⟩ := exists_of_isFinite hy
  rw [finite_mul_finite, ofUnits]
  split <;> simp

lemma isFinite_ofInt (hz : Word z) : (ofInt z).isFinite := by
  rw [Word, wordMin, wordMax] at hz
  rcases Int.lt_trichotomy z 0 with hneg | rfl | hpos
  · obtain ⟨m, hm, -, -, hvalue⟩ := exists_ofInt_eq_finite_of_pos (k := -z) (by omega) (by rw [wordMin]; omega)
    rw [Int.neg_neg] at hvalue
    rw [hvalue]
    rfl
  · rw [ofInt_zero]
    rfl
  · obtain ⟨m, hm, -, hvalue, -⟩ := exists_ofInt_eq_finite_of_pos hpos (by rw [wordMin]; omega)
    rw [hvalue]
    rfl

end Binary64

namespace Duration

/-- A multiple of a duration, rounded to microseconds, if their number fits a word. -/
def exactScale? (d : Duration) (factor : Binary64) : Option Duration :=
  ((Binary64.ofInt (d.nanos.tdiv 1000) * factor).nearest?.filter Word).map ofMicros

/-- If the number of microseconds of a duration fits, that of a multiple fits or has been cut. -/
lemma exactScale?_eq_none {d : Duration} {factor : Binary64} (hd : Word (d.nanos.tdiv 1000))
    (h : d.exactScale? factor ≠ some (d.scale factor)) : d.exactScale? factor = none := by
  cases hexact : d.exactScale? factor with
  | none => rfl
  | some e =>
    obtain ⟨z, hz, rfl⟩ := Option.map_eq_some_iff.mp hexact
    obtain ⟨hnearest, hword⟩ := Option.filter_eq_some_iff.mp hz
    have hmicros : d.wordMicros = d.nanos.tdiv 1000 := if_pos hd
    rw [hexact, scale, hmicros, roundTo_of_word hnearest (of_decide_eq_true hword)] at h
    exact absurd rfl h

/-- A multiple of which the number of microseconds does not fit has been cut to a number as great as any word. -/
lemma le_natAbs_scale_of_exactScale? {d : Duration} {factor : Binary64} (hd : Word (d.nanos.tdiv 1000))
    (hfactor : factor.isFinite) (h : d.exactScale? factor = none) :
    9223372036854775807000 ≤ (d.scale factor).nanos.natAbs := by
  have hmicros : d.wordMicros = d.nanos.tdiv 1000 := if_pos hd
  have hnan : Binary64.ofInt (d.nanos.tdiv 1000) * factor ≠ .nan :=
    mul_ne_nan (isFinite_ofInt hd) hfactor
  rw [exactScale?, Option.map_eq_none_iff] at h
  rw [scale, hmicros, nanos_ofMicros]
  generalize Binary64.ofInt (d.nanos.tdiv 1000) * factor = x at *
  cases hx : x.nearest? with
  | none =>
    rcases roundTo_of_nearest?_eq_none hnan hx wordMin wordMax with hround | hround
    · rw [hround]
      decide
    · rw [hround]
      decide
  | some z =>
    rw [hx, Option.filter_eq_none_iff] at h
    have hword : ¬Word z := by simpa using h z rfl
    rw [roundTo_of_nearest? hx, clampInt]
    simp only [Word, wordMin, wordMax] at *
    omega

end Duration

/-! ### The middle of the calendar -/

namespace Instant

/-- An instant within 27000 years of 1970. -/
def Central (t : Instant) : Prop := t.nanos.natAbs ≤ 880000000000000000000

variable {t : Instant} {d : Duration}

/-- Two of them are less than `2 ^ 63` microseconds apart. -/
lemma Central.word {first last : Instant} (hfirst : first.Central) (hlast : last.Central) :
    Word ((last.since first).nanos.tdiv 1000) := by
  have hsince : (last.since first).nanos = last.nanos - first.nanos := rfl
  have hdiv := Duration.tdiv_thousand (last.since first).nanos
  rw [Central] at hfirst hlast
  rw [Word, wordMin, wordMax]
  omega

/-- From there, a word of microseconds can lead out of the calendar. -/
lemma Central.add?_eq_none (h : t.Central) (hd : 9223372036854775807000 ≤ d.nanos.natAbs) : t.add? d = none := by
  rw [add?_eq_none_iff, InCalendar, firstNano, lastNano, firstDay, lastDay, dayNanos]
  rw [Central] at h
  omega

end Instant

/-! ### Falling back on the contacts -/

/-- The instant in a partial phase that is so far behind its first contact, or before its last one. -/
def Limb.move? (limb : Limb) (first last : Instant) (d : Duration) : Option Instant :=
  match limb with
  | .pre => first.add? d
  | .post => last.add? (-d)

namespace EventTable

/-- By what the length of the partial phase is multiplied for a fraction. -/
def stretch (table : EventTable Instant) (fraction : Binary64) : Limb → Binary64
  | .pre => fraction * table.maxMagnitude
  | .post => fraction

/-- The contacts of each partial phase lie less than `2 ^ 63` microseconds apart. -/
def ContactsNear (table : EventTable Instant) : Prop :=
  ∀ (limb : Limb) (first last : Instant), table.instant? limb.contacts.1 = some first →
    table.instant? limb.contacts.2 = some last → Word ((last.since first).nanos.tdiv 1000)

/-- The contacts of each partial phase lie within 27000 years of 1970. -/
def ContactsCentral (table : EventTable Instant) : Prop :=
  ∀ (limb : Limb) (first last : Instant), table.instant? limb.contacts.1 = some first →
    table.instant? limb.contacts.2 = some last → first.Central ∧ last.Central

/-- The fraction and the limb of an event that is placed between contacts. -/
def fallsBack? (table : EventTable Instant) (event : String) : Option (Binary64 × Limb) :=
  match table.instant? event, Text.words event.toList with
  | none, [word, percent] => do
    let limb ← limbOf? word
    let fraction ← fraction? percent
    if Curve.crossing (table.curve limb) fraction = .outside then some (fraction, limb) else none
  | _, _ => none

/-- The place of a fraction within a partial phase, refused if it is not a word of microseconds from the contact. -/
def exactFallback (table : EventTable Instant) (event : String) (fraction : Binary64) (limb : Limb) :
    Except ResolutionError Instant := do
  let first ← table.contact event limb.contacts.1
  let last ← table.contact event limb.contacts.2
  match (last.since first).exactScale? (table.stretch fraction limb) |>.bind (limb.move? first last) with
  | some t => .ok t
  | none => .error (.outOfRange event)

/-- The instant of an event, with nothing cut: what does not fit a word or the calendar is out of range. -/
def resolveExactly (table : EventTable Instant) (event : String) : Except ResolutionError Instant :=
  match table.fallsBack? event with
  | some (fraction, limb) => table.exactFallback event fraction limb
  | none =>
    match table.resolve event with
    | .error (.overflow name) => .error (.outOfRange name)
    | result => result

/-- The event is placed between contacts, but at a number of microseconds that is not the one that was meant. -/
def Misfits (table : EventTable Instant) (event : String) : Prop :=
  ∃ fraction limb first last, table.fallsBack? event = some (fraction, limb) ∧
    table.instant? limb.contacts.1 = some first ∧ table.instant? limb.contacts.2 = some last ∧
    (last.since first).exactScale? (table.stretch fraction limb) ≠
      some ((last.since first).scale (table.stretch fraction limb))

variable {table : EventTable Instant} {event : String} {fraction : Binary64} {limb : Limb} {first last : Instant}

lemma ContactsCentral.near (h : table.ContactsCentral) : table.ContactsNear := by
  intro limb first last hfirst hlast
  obtain ⟨hfirst', hlast'⟩ := h limb first last hfirst hlast
  exact hfirst'.word hlast'

lemma fallback_of_contacts (hfirst : table.instant? limb.contacts.1 = some first)
    (hlast : table.instant? limb.contacts.2 = some last) (event : String) (fraction : Binary64) :
    table.fallback event fraction limb =
      (limb.move? first last ((last.since first).scale (table.stretch fraction limb))).elim
        (.error (.outOfRange event)) .ok := by
  cases limb with
  | pre => exact fallback_pre_eq hfirst hlast event fraction
  | post => exact fallback_post_eq hfirst hlast event fraction

lemma exactFallback_of_contacts (hfirst : table.instant? limb.contacts.1 = some first)
    (hlast : table.instant? limb.contacts.2 = some last) (event : String) (fraction : Binary64) :
    table.exactFallback event fraction limb =
      ((last.since first).exactScale? (table.stretch fraction limb) |>.bind (limb.move? first last)).elim
        (.error (.outOfRange event)) .ok := by
  have hbind : ∀ {α β : Type} (a : α) (k : α → Except ResolutionError β), (Except.ok a >>= k) = k a := fun _ _ => rfl
  simp only [exactFallback, contact_of_instant? hfirst, contact_of_instant? hlast, hbind]
  cases (last.since first).exactScale? (table.stretch fraction limb) |>.bind (limb.move? first last) with
  | none => rfl
  | some t => rfl

lemma contact_of_none {name : String} (h : table.instant? name = none) (event : String) :
    table.contact event name = .error (.missingContact event name) := by
  rw [contact, h]

/-- Without one of its contacts, a phase has no times. -/
lemma exactFallback_of_missing (h : table.instant? limb.contacts.1 = none ∨ table.instant? limb.contacts.2 = none)
    (event : String) (fraction : Binary64) :
    table.exactFallback event fraction limb = table.fallback event fraction limb := by
  have hmissing : ∀ k k' : Instant → Instant → Except ResolutionError Instant,
      (table.contact event limb.contacts.1 >>= fun a => table.contact event limb.contacts.2 >>= k a) =
        table.contact event limb.contacts.1 >>= fun a => table.contact event limb.contacts.2 >>= k' a := by
    intro k k'
    rcases h with h | h
    · rw [contact_of_none h]
      rfl
    · rw [contact_of_none h]
      rfl
  cases limb with
  | pre => exact hmissing _ _
  | post => exact hmissing _ _

lemma resolve_of_fallsBack? (h : table.fallsBack? event = some (fraction, limb)) :
    table.resolve event = table.fallback event fraction limb := by
  rw [fallsBack?] at h
  split at h
  · next word percent hinstant hwords =>
    obtain ⟨l, hlimb, h⟩ := Option.bind_eq_some_iff.mp h
    obtain ⟨f, hfraction, h⟩ := Option.bind_eq_some_iff.mp h
    split at h
    · next hcrossing =>
      cases h
      simp only [resolve, hinstant, hwords, hlimb, resolveMagnitude, hfraction, hcrossing]
    · cases h
  · cases h

lemma resolveExactly_of_fallsBack? (h : table.fallsBack? event = some (fraction, limb)) :
    table.resolveExactly event = table.exactFallback event fraction limb := by
  simp only [resolveExactly, h]

lemma not_overshoots_of_fallsBack? (h : table.fallsBack? event = some (fraction, limb)) : ¬table.Overshoots event := by
  intro hover
  have hoverflow := resolve_eq_overflow_iff.mpr ⟨rfl, hover⟩
  rw [resolve_of_fallsBack? h] at hoverflow
  exact fallback_ne_overflow table _ _ _ _ hoverflow

/-- What is interpolated out of the calendar is out of range, with nothing cut. -/
lemma Overshoots.resolveExactly_eq (h : table.Overshoots event) :
    table.resolveExactly event = .error (.outOfRange event) := by
  have hoverflow : table.resolve event = .error (.overflow event) := resolve_eq_overflow_iff.mpr ⟨rfl, h⟩
  cases hfall : table.fallsBack? event with
  | none => simp only [resolveExactly, hfall, hoverflow]
  | some p => exact absurd h (not_overshoots_of_fallsBack? hfall)

/-- An event for which no number is cut is not resolved otherwise than exactly, unless it is interpolated out of the
calendar. -/
lemma resolveExactly_of_not_misfits (hover : ¬table.Overshoots event) (hfits : ¬table.Misfits event) :
    table.resolveExactly event = table.resolve event := by
  cases hfall : table.fallsBack? event with
  | none =>
    simp only [resolveExactly, hfall]
    split
    · next name hoverflow =>
      obtain ⟨rfl, hover'⟩ := resolve_eq_overflow_iff.mp hoverflow
      exact absurd hover' hover
    · rfl
  | some p =>
    obtain ⟨fraction, limb⟩ := p
    rw [resolveExactly_of_fallsBack? hfall, resolve_of_fallsBack? hfall]
    cases hfirst : table.instant? limb.contacts.1 with
    | none => exact exactFallback_of_missing (Or.inl hfirst) event fraction
    | some first =>
      cases hlast : table.instant? limb.contacts.2 with
      | none => exact exactFallback_of_missing (Or.inr hlast) event fraction
      | some last =>
        have hscale : (last.since first).exactScale? (table.stretch fraction limb) =
            some ((last.since first).scale (table.stretch fraction limb)) := by
          by_contra hne
          exact hfits ⟨fraction, limb, first, last, hfall, hfirst, hlast, hne⟩
        rw [exactFallback_of_contacts hfirst hlast, fallback_of_contacts hfirst hlast, hscale, Option.bind_some]

/-- As long as the contacts are near, what does not fit is to be refused. -/
lemma Misfits.resolveExactly_eq (h : table.Misfits event) (hnear : table.ContactsNear) :
    table.resolveExactly event = .error (.outOfRange event) := by
  obtain ⟨fraction, limb, first, last, hfall, hfirst, hlast, hscale⟩ := h
  have hexact := Duration.exactScale?_eq_none (hnear limb first last hfirst hlast) hscale
  rw [resolveExactly_of_fallsBack? hfall, exactFallback_of_contacts hfirst hlast, hexact, Option.bind_none,
    Option.elim_none]

/-- What does not fit is refused, or it is placed all the same. -/
lemma Misfits.resolve_cases (h : table.Misfits event) :
    table.resolve event = .error (.outOfRange event) ∨ ∃ t, table.resolve event = .ok t := by
  obtain ⟨fraction, limb, first, last, hfall, hfirst, hlast, -⟩ := h
  rw [resolve_of_fallsBack? hfall, fallback_of_contacts hfirst hlast]
  cases limb.move? first last ((last.since first).scale (table.stretch fraction limb)) with
  | none => exact Or.inl rfl
  | some t => exact Or.inr ⟨t, rfl⟩

/-- In the middle of the calendar, what does not fit is refused. -/
lemma Misfits.resolve_eq (h : table.Misfits event) (hcontacts : table.ContactsCentral)
    (hfinite : ∀ fraction limb, table.fallsBack? event = some (fraction, limb) →
      (table.stretch fraction limb).isFinite) :
    table.resolve event = .error (.outOfRange event) := by
  obtain ⟨fraction, limb, first, last, hfall, hfirst, hlast, hscale⟩ := h
  obtain ⟨hfirst', hlast'⟩ := hcontacts limb first last hfirst hlast
  have hword := hcontacts.near limb first last hfirst hlast
  have hgreat := Duration.le_natAbs_scale_of_exactScale? hword (hfinite _ _ hfall)
    (Duration.exactScale?_eq_none hword hscale)
  have hmove : limb.move? first last ((last.since first).scale (table.stretch fraction limb)) = none := by
    cases limb with
    | pre => exact hfirst'.add?_eq_none hgreat
    | post => exact hlast'.add?_eq_none (by rwa [Duration.nanos_neg, Int.natAbs_neg])
  rw [resolve_of_fallsBack? hfall, fallback_of_contacts hfirst hlast, hmove, Option.elim_none]

end EventTable

end Totality
