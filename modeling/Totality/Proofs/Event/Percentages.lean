import Mathlib.Tactic.SplitIfs
import Totality.Event.Table
import Totality.Proofs.Calendar.Instant
import Totality.Proofs.Number.Numeral
import Totality.Proofs.Number.Products
import Totality.Proofs.Text.Pieces

/-!
# Percentages on a limb

An event that names a limb and a percentage is the instant at which the limb reaches a hundredth of the number, or the
place of this fraction within the partial phase. Greater percentages have greater fractions.
-/

namespace Totality

open Binary64

namespace Binary64

variable {p q : Binary64}

lemma exists_ofInt_hundred : ∃ h, ofInt 100 = .finite false (100 * scale) h := exists_ofInt_eq_finite rfl (by decide)

lemma hundredth_le_hundredth (hp : p.isFinite) (hq : q.isFinite) (h : p.le q) : (p / ofInt 100).le (q / ofInt 100) := by
  obtain ⟨hhundred, heq⟩ := exists_ofInt_hundred
  rw [heq]
  exact Binary64.div_le_div_right hp hq hhundred (Nat.mul_pos (by decide) scale_pos) h

lemma isFinite_hundredth (hp : p.isFinite) : (p / ofInt 100).isFinite := by
  obtain ⟨hhundred, heq⟩ := exists_ofInt_hundred
  have hpos : 0 < 100 * scale := Nat.mul_pos (by decide) scale_pos
  cases p with
  | nan => cases hp
  | infinity s => cases hp
  | finite s n hn =>
    have hround : roundUnits (n * scale) (100 * scale) ≤ n := by
      calc roundUnits (n * scale) (100 * scale) ≤ roundUnits n 1 := by
            apply roundUnits_mono hpos Nat.one_pos
            rw [Nat.mul_one]
            exact Nat.mul_le_mul_left n (Nat.le_mul_of_pos_left scale (by decide))
        _ = n := roundUnits_self hn.onGrid
    have hrepresentable := (onGrid_roundUnits (n * scale) (100 * scale)).representable (Nat.le_trans hround hn.2)
    rw [heq, finite_div_finite s false hn hhundred hpos, ofUnits_of_representable hrepresentable rfl]
    rfl

end Binary64

/-! ### Events -/

/-- The word by which an event names a limb. -/
def Limb.word : Limb → List Char
  | .pre => "MAGPRE".toList
  | .post => "MAGPOST".toList

/-- The event of a percentage on a limb. -/
def Limb.event (limb : Limb) (percent : List Char) : String := String.ofList (limb.word ++ ' ' :: percent)

/-- The event names a limb and a text that is read as the percentage. -/
def Asks (event : String) (limb : Limb) (p : Binary64) : Prop :=
  ∃ word percent, Text.words event.toList = [word, percent] ∧ EventTable.limbOf? word = some limb ∧
    read? percent = some p ∧ p.isFinite

lemma Asks.isFinite {event : String} {limb : Limb} {p : Binary64} (h : Asks event limb p) : p.isFinite := by
  obtain ⟨-, -, -, -, -, hp⟩ := h
  exact hp

namespace Limb

variable {limb : Limb} {percent : List Char}

lemma limbOf?_word (limb : Limb) : EventTable.limbOf? limb.word = some limb := by
  cases limb <;> rfl

lemma words_event (limb : Limb) (hsolid : Text.Solid percent) (hne : percent ≠ []) :
    Text.words (limb.event percent).toList = [limb.word, percent] := by
  have hword : Text.Solid limb.word ∧ limb.word ≠ [] := by
    cases limb <;> decide
  rw [event, String.toList_ofList]
  exact Text.words_append_space hword.1 hword.2 hsolid hne

end Limb

namespace EventTable

variable {table : EventTable Instant} {event : String} {limb : Limb} {p : Binary64}

/-- An event that is no instant's name is looked up on the limb, and within the partial phase where the limb does not
reach. -/
lemma resolve_of_asks (h : Asks event limb p) (hname : table.instant? event = none) :
    table.resolve event =
      match Curve.crossing (table.curve limb) (p / .ofInt 100) with
      | .reached t => .ok t
      | .overflow => .error (.overflow event)
      | .outside => table.fallback event (p / .ofInt 100) limb := by
  obtain ⟨word, percent, hwords, hlimb, hread, hp⟩ := h
  have hfraction : fraction? percent = some (p / .ofInt 100) := by
    rw [fraction?, hread]
    exact if_pos hp
  have hresolve : table.resolve event = table.resolveMagnitude event percent limb := by
    simp only [resolve, hname, hwords, hlimb]
  rw [hresolve]
  unfold resolveMagnitude
  split
  · next hnone => cases hnone.symm.trans hfraction
  · next fraction hsome =>
    cases hsome.symm.trans hfraction
    cases Curve.crossing (table.curve limb) (p / .ofInt 100) with
    | outside => rfl
    | reached t => rfl
    | overflow => rfl

variable {first last : Instant}

lemma contact_of_instant? {name : String} (h : table.instant? name = some first) (event : String) :
    table.contact event name = .ok first := by
  rw [contact, h]

/-- Before maximum, a fraction is placed between the first two contacts. -/
lemma fallback_pre_eq (hfirst : table.instant? "C1" = some first) (hlast : table.instant? "C2" = some last)
    (event : String) (fraction : Binary64) :
    table.fallback event fraction .pre =
      (first.add? ((last.since first).scale (fraction * table.maxMagnitude))).elim
        (.error (.outOfRange event)) .ok := by
  simp only [fallback, contact_of_instant? hfirst, contact_of_instant? hlast, bind, Except.bind,
    TimeScale.add?_instant, TimeScale.since_instant]
  cases first.add? ((last.since first).scale (fraction * table.maxMagnitude)) with
  | none => rfl
  | some t => rfl

/-- After maximum, it is placed between the last two, back from the last one. -/
lemma fallback_post_eq (hfirst : table.instant? "C3" = some first) (hlast : table.instant? "C4" = some last)
    (event : String) (fraction : Binary64) :
    table.fallback event fraction .post =
      (last.add? (-(last.since first).scale fraction)).elim (.error (.outOfRange event)) .ok := by
  simp only [fallback, contact_of_instant? hfirst, contact_of_instant? hlast, bind, Except.bind,
    TimeScale.add?_instant, TimeScale.since_instant]
  cases last.add? (-(last.since first).scale fraction) with
  | none => rfl
  | some t => rfl

end EventTable

end Totality
