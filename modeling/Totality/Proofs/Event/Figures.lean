import Mathlib.Tactic.SplitIfs
import Totality.Event.TimingExport
import Totality.Proofs.Number.Places
import Totality.Proofs.Number.Products

/-!
# The numbers of an export

A number of an export is made of digits and points. If it is read at all, it is a numeral in plain digits, and so neither
negative nor not-a-number.
-/

namespace Totality.TimingExport

open Binary64

variable {cs : List Char} {x : Binary64}

lemma toLower_of_isDecimal {c : Char} (h : isDecimal c) : c.toLower = c := by
  rw [isDecimal, Bool.or_eq_true, beq_iff_eq] at h
  rcases h with hdigit | rfl
  · have hupper : ¬(c.val ≥ 'A'.val ∧ c.val ≤ 'Z'.val) := by
      intro hupper
      rw [Char.isDigit, Bool.and_eq_true, decide_eq_true_eq, decide_eq_true_eq] at hdigit
      exact absurd (UInt32.le_trans hupper.1 hdigit.2) (by decide)
    exact dif_neg hupper
  · rfl

lemma takeSign_of_isDecimal (h : ∀ c ∈ cs, isDecimal c) : takeSign cs = (false, cs) := by
  cases cs with
  | nil => rfl
  | cons c cs =>
    have hc := h c List.mem_cons_self
    unfold takeSign
    split
    · next heq =>
      cases heq
      cases hc
    · next heq =>
      cases heq
      cases hc
    · rfl

/-- Digits and points spell no name. -/
lemma ofName?_of_isDecimal (h : ∀ c ∈ cs, isDecimal c) (negative : Bool) : ofName? negative cs = none := by
  have hlower : cs.map Char.toLower = cs := by
    rw [List.map_congr_left fun c hc => toLower_of_isDecimal (h c hc), List.map_id']
  have hname : ∀ {name : List Char} {c : Char}, c ∈ name → ¬isDecimal c → cs ≠ name := by
    rintro name c hc hnot rfl
    exact hnot (h c hc)
  have hi : ¬isDecimal 'i' := by decide
  have hn : ¬isDecimal 'n' := by decide
  rw [ofName?, hlower, if_neg (not_or.mpr ⟨hname (by decide) hi, hname (by decide) hi⟩),
    if_neg (hname (by decide) hn)]

lemma exists_whole_of_isDecimal (h : ∀ c ∈ cs, isDecimal c) :
    ∃ whole, AllDigits whole ∧ (cs = whole ∨ ∃ rest, cs = whole ++ '.' :: rest) := by
  have hsplit : cs.takeWhile Char.isDigit ++ cs.dropWhile Char.isDigit = cs := List.takeWhile_append_dropWhile
  refine ⟨cs.takeWhile Char.isDigit, fun c hc => List.all_eq_true.mp List.all_takeWhile c hc, ?_⟩
  cases hrest : cs.dropWhile Char.isDigit with
  | nil =>
    rw [hrest, List.append_nil] at hsplit
    exact Or.inl hsplit.symm
  | cons c rest =>
    have hhead := List.head?_dropWhile_not Char.isDigit cs
    have hc : isDecimal c := by
      refine h c ?_
      rw [← hsplit, hrest]
      exact List.mem_append_right _ List.mem_cons_self
    rw [hrest] at hhead hsplit
    rw [isDecimal, Bool.or_eq_true, beq_iff_eq] at hc
    obtain rfl : c = '.' := hc.resolve_left (by simpa using hhead)
    exact Or.inr ⟨rest, hsplit.symm⟩

/-- A decimal in digits and points has no exponent, and no second point. -/
lemma writtenDigits_of_ofUnsigned? {negative : Bool} {d : Decimal} (h : ∀ c ∈ cs, isDecimal c)
    (hd : Decimal.ofUnsigned? negative cs = some d) : ∃ places n, WrittenDigits places n cs := by
  obtain ⟨whole, hwhole, rfl | ⟨rest, rfl⟩⟩ := exists_whole_of_isDecimal h
  · refine ⟨0, _, cs, [], Or.inl ⟨rfl, rfl⟩, hwhole, nofun, ?_, Nat.le_refl _, rfl⟩
    rintro hnil
    rw [List.append_nil] at hnil
    subst hnil
    cases hd
  · obtain ⟨fraction, hfraction, rfl | ⟨more, rfl⟩⟩ :=
      exists_whole_of_isDecimal fun c hc => h c (List.mem_append_right _ (List.mem_cons_of_mem _ hc))
    · refine ⟨rest.length, _, whole, rest, Or.inr rfl, hwhole, hfraction, ?_, Nat.le_refl _, rfl⟩
      rintro hnil
      obtain ⟨rfl, rfl⟩ := List.append_eq_nil_iff.mp hnil
      cases hd
    · obtain ⟨htake, hdrop⟩ := Text.takeWhile_dropWhile_append hwhole ('.' :: (fraction ++ '.' :: more)) (by simp)
      obtain ⟨htake', hdrop'⟩ := Text.takeWhile_dropWhile_append hfraction ('.' :: more) (by simp)
      simp only [Decimal.ofUnsigned?, htake, hdrop, htake', hdrop'] at hd
      split_ifs at hd with hempty hexponent
      exact absurd hexponent (by decide)

/-- What is read from digits and points is a numeral in plain digits. -/
lemma exists_writtenDigits (h : ∀ c ∈ cs, isDecimal c) (hread : read? cs = some x) :
    ∃ places n, WrittenDigits places n cs ∧ x = ofUnits false (n * scale) (Nat.pow 10 places) := by
  have hunsigned : ∃ d, Decimal.ofUnsigned? false cs = some d := by
    rw [read?, Binary64.read, takeSign_of_isDecimal h] at hread
    split at hread
    · cases hread
    · cases hd : Decimal.ofUnsigned? false cs with
      | some d => exact ⟨d, rfl⟩
      | none =>
        simp only [hd, ofName?_of_isDecimal h] at hread
        cases hread
  obtain ⟨d, hd⟩ := hunsigned
  obtain ⟨places, n, hwritten⟩ := writtenDigits_of_ofUnsigned? h hd
  rw [read?, read_of_writtenDigits hwritten] at hread
  exact ⟨places, n, hwritten, (Option.some.inj hread).symm⟩

/-- A number of an export is not negative. -/
lemma zero_le_of_read? (h : ∀ c ∈ cs, isDecimal c) (hread : read? cs = some x) : (zero false).le x := by
  obtain ⟨places, n, -, rfl⟩ := exists_writtenDigits h hread
  rw [le_iff_of_place (place_zero false) (place_ofUnits _ _ _), signed_false]
  exact Int.natCast_nonneg _

lemma read?_ne_nan (h : ∀ c ∈ cs, isDecimal c) : read? cs ≠ some .nan := fun hread =>
  (ne_nan_of_le (zero_le_of_read? h hread)).2 rfl

end Totality.TimingExport
