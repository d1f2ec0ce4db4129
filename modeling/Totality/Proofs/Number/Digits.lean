import Mathlib.Tactic.Lemma
import Totality.Number.Integer
import Totality.Proofs.Text.Pieces

/-!
# Digits of whole numbers

The digits of a number denote it, also behind zeros, and zeros behind them shift it. A reader of whole numbers
takes them back if the number lies in its range.
-/

namespace Totality

/-- A text of decimal digits only. -/
def AllDigits (cs : List Char) : Prop := ∀ c ∈ cs, c.isDigit

instance (cs : List Char) : Decidable (AllDigits cs) := List.decidableBAll _ cs

lemma digitsValue_eq (ds : List Char) : digitsValue ds = Nat.ofDigitChars 10 ds 0 := by
  simp only [digitsValue, Nat.ofDigitChars_eq_foldl, Nat.mul_comm]

@[simp] lemma digitsValue_digitsOf (n : Nat) : digitsValue (digitsOf n) = n := by
  rw [digitsValue_eq, digitsOf, Nat.ofDigitChars_ten_toDigits]

lemma digitsOf_ne_nil (n : Nat) : digitsOf n ≠ [] := Nat.toDigits_ne_nil

lemma allDigits_digitsOf (n : Nat) : AllDigits (digitsOf n) := fun _ hc =>
  Nat.isDigit_of_mem_toDigits (by decide) (by decide) hc

/-- Below ten there is one digit. -/
lemma length_digitsOf_of_lt_ten {n : Nat} (h : n < 10) : (digitsOf n).length = 1 := by
  rw [digitsOf, Nat.toDigits_of_lt_base h, List.length_singleton]

/-! ### Zeros -/

lemma allDigits_replicate_zero (k : Nat) : AllDigits (List.replicate k '0') := by
  intro c hc
  rw [List.eq_of_mem_replicate hc]
  decide

lemma AllDigits.append {cs ds : List Char} (hcs : AllDigits cs) (hds : AllDigits ds) : AllDigits (cs ++ ds) :=
  List.forall_mem_append.mpr ⟨hcs, hds⟩

lemma digitsValue_append_zeros (ds : List Char) (k : Nat) :
    digitsValue (ds ++ List.replicate k '0') = digitsValue ds * Nat.pow 10 k := by
  rw [digitsValue_eq, digitsValue_eq, Nat.ofDigitChars_append, Nat.ofDigitChars_replicate_zero, Nat.mul_comm]
  rfl

lemma digitsValue_zeros_append (k : Nat) (ds : List Char) :
    digitsValue (List.replicate k '0' ++ ds) = digitsValue ds := by
  rw [digitsValue_eq, digitsValue_eq, Nat.ofDigitChars_append, Nat.ofDigitChars_replicate_zero, Nat.mul_zero]

@[simp] lemma digitsValue_padZeros (width : Nat) (ds : List Char) :
    digitsValue (padZeros width ds) = digitsValue ds := digitsValue_zeros_append _ ds

lemma AllDigits.padZeros {ds : List Char} (h : AllDigits ds) (width : Nat) : AllDigits (padZeros width ds) :=
  (allDigits_replicate_zero _).append h

lemma length_padZeros (width : Nat) (ds : List Char) : (padZeros width ds).length = max width ds.length := by
  rw [padZeros, List.length_append, List.length_replicate]
  omega

lemma padZeros_ne_nil {ds : List Char} (h : ds ≠ []) (width : Nat) : padZeros width ds ≠ [] := by
  rw [padZeros]
  simp [h]

/-! ### What digits are not -/

lemma ne_of_isDigit {c d : Char} (hc : c.isDigit) (hd : ¬d.isDigit) : c ≠ d := by
  rintro rfl
  exact hd hc

lemma AllDigits.not_mem {ds : List Char} (h : AllDigits ds) {c : Char} (hc : ¬c.isDigit) : c ∉ ds :=
  fun hmem => hc (h c hmem)

lemma toNat_of_isDigit {c : Char} (h : c.isDigit) : 48 ≤ c.toNat ∧ c.toNat ≤ 57 := Char.isDigit_iff_toNat.mp h

lemma isBlank_of_isDigit {c : Char} (h : c.isDigit) : Text.isBlank c = false := by
  have hrange := toNat_of_isDigit h
  rw [Text.isBlank, decide_eq_false_iff_not]
  omega

lemma AllDigits.solid {ds : List Char} (h : AllDigits ds) : Text.Solid ds := fun c hc =>
  isBlank_of_isDigit (h c hc)

/-! ### Reading -/

lemma readDigits_eq_ok {limit : Nat} {ds : List Char} (hds : AllDigits ds) {v : Nat}
    (hlimit : Nat.ofDigitChars 10 ds v ≤ limit) (overflow : IntegerError) :
    IntegerRange.readDigits limit overflow v ds = .ok (Nat.ofDigitChars 10 ds v) := by
  induction ds generalizing v with
  | nil => rw [IntegerRange.readDigits, Nat.ofDigitChars_nil]
  | cons d ds ih =>
    obtain ⟨hd, hds⟩ := List.forall_mem_cons.mp hds
    rw [Nat.ofDigitChars_cons, Nat.mul_comm] at hlimit ⊢
    -- the value only grows with the digits that follow
    have hgrow : v * 10 + (d.toNat - '0'.toNat) ≤ limit := by
      rw [Nat.ofDigitChars_eq_ofDigitChars_zero] at hlimit
      have hpow := Nat.le_mul_of_pos_left (v * 10 + (d.toNat - '0'.toNat)) (Nat.pow_pos (n := ds.length) (by decide : 0 < 10))
      omega
    rw [IntegerRange.readDigits, if_neg (by simp [hd])]
    dsimp only
    rw [if_neg (Nat.not_lt.mpr hgrow), ih hds hlimit]

namespace IntegerRange

lemma readDigits_zero {limit : Nat} {ds : List Char} (hds : AllDigits ds) (hlimit : digitsValue ds ≤ limit)
    (overflow : IntegerError) : readDigits limit overflow 0 ds = .ok (digitsValue ds) := by
  rw [digitsValue_eq] at *
  exact readDigits_eq_ok hds hlimit overflow

/-- A text of digits is read as the number it denotes. -/
lemma read_allDigits {range : IntegerRange} {ds : List Char} (hds : AllDigits ds) (hne : ds ≠ [])
    (hrange : (digitsValue ds : Int) ≤ range.hi) : range.read ds = .ok (digitsValue ds) := by
  have hplus := hds.not_mem (c := '+') (by decide)
  have hminus := hds.not_mem (c := '-') (by decide)
  unfold read
  split
  · exact absurd rfl hne
  · exact absurd (List.mem_cons_self ..) hplus
  · exact absurd (List.mem_cons_self ..) hminus
  · exact absurd (List.mem_cons_self ..) hplus
  · exact absurd (List.mem_cons_self ..) hminus
  · rw [readDigits_zero hds (by omega)]
    rfl

/-- A sign in front of digits shows. -/
lemma read_plus {range : IntegerRange} {ds : List Char} (hds : AllDigits ds) (hne : ds ≠ [])
    (hrange : (digitsValue ds : Int) ≤ range.hi) : range.read ('+' :: ds) = .ok (digitsValue ds) := by
  obtain ⟨d, ds, rfl⟩ := List.exists_cons_of_ne_nil hne
  rw [read, readDigits_zero hds (by omega)]
  · rfl
  · nofun

lemma read_minus {range : IntegerRange} {ds : List Char} (hds : AllDigits ds) (hne : ds ≠ [])
    (hneg : range.lo < 0) (hrange : range.lo ≤ -(digitsValue ds : Int)) :
    range.read ('-' :: ds) = .ok (-(digitsValue ds : Int)) := by
  obtain ⟨d, ds, rfl⟩ := List.exists_cons_of_ne_nil hne
  rw [read, if_pos hneg, readDigits_zero hds (by omega)]
  · rfl
  · nofun

end IntegerRange

/-- A text of digits is read as the natural number it denotes. -/
lemma readNat?_allDigits {bits : Nat} {ds : List Char} (hds : AllDigits ds) (hne : ds ≠ [])
    (h : digitsValue ds < Nat.pow 2 bits) : readNat? bits ds = some (digitsValue ds) := by
  have hrange : (digitsValue ds : Int) ≤ (IntegerRange.unsigned bits).hi := by
    change (digitsValue ds : Int) ≤ (Nat.pow 2 bits : Int) - 1
    omega
  rw [readNat?, IntegerRange.read?, IntegerRange.read_allDigits hds hne hrange]
  rfl

end Totality
