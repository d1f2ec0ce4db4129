import Mathlib.Tactic.Lemma
import Totality.Proofs.Number.Digits
import Totality.Proofs.Number.Shortest

/-!
# Numerals of binary64 numbers

What is written for a number is read as the number again: the sign, the digits before and behind the point, and
the value that they come to. The main statement is `read?_write`.
-/

namespace Totality

open Binary64

/-! ### Decimals in text -/

namespace Decimal

/-- A text of digits is a whole number. -/
lemma ofUnsigned?_allDigits (negative : Bool) {ds : List Char} (hds : AllDigits ds) (hne : ds ≠ []) :
    ofUnsigned? negative ds = some ⟨negative, digitsValue ds, 0⟩ := by
  obtain ⟨htake, hdrop⟩ := Text.takeWhile_dropWhile_append hds [] nofun
  rw [List.append_nil] at htake hdrop
  simp only [ofUnsigned?, htake, hdrop]
  simp [hne]

/-- Digits behind a point lower the exponent. -/
lemma ofUnsigned?_point (negative : Bool) {whole fraction : List Char} (hwhole : AllDigits whole)
    (hfraction : AllDigits fraction) (hne : whole ++ fraction ≠ []) :
    ofUnsigned? negative (whole ++ '.' :: fraction) =
      some ⟨negative, digitsValue (whole ++ fraction), -fraction.length⟩ := by
  obtain ⟨htake, hdrop⟩ := Text.takeWhile_dropWhile_append hwhole ('.' :: fraction) (by simp)
  obtain ⟨htake', hdrop'⟩ := Text.takeWhile_dropWhile_append hfraction [] nofun
  rw [List.append_nil] at htake' hdrop'
  have hnonempty : (whole.isEmpty && fraction.isEmpty) = false := by
    cases whole with
    | nil => simpa using hne
    | cons c whole => rfl
  simp only [ofUnsigned?, htake, hdrop, htake', hdrop', hnonempty]
  rfl

/-- The exponent is not cut if enough digits make up for it. -/
lemma toBinary64_eq {d : Decimal} (hup : d.exponent ≤ 400)
    (hdown : (-d.exponent).toNat ≤ 401 + d.coefficient.log2) :
    d.toBinary64 = ofUnits d.negative (d.coefficient * Nat.pow 10 d.exponent.toNat * scale)
      (Nat.pow 10 (-d.exponent).toNat) := by
  rw [toBinary64, Int.min_eq_left hup, Nat.min_eq_left hdown]

end Decimal

namespace Binary64

lemma ofUnits_of_representable {n num den : Nat} (h : Representable n) (hround : roundUnits num den = n)
    (negative : Bool) : ofUnits negative num den = .finite negative n h := by
  subst hround
  rw [ofUnits, dif_pos h]

lemma ofUnits_of_not_representable {num den : Nat} (h : ¬Representable (roundUnits num den)) (negative : Bool) :
    ofUnits negative num den = .infinity negative := by
  rw [ofUnits, dif_neg h]

/-- Whole numbers that need no more than 53 bits are not rounded. -/
lemma exists_ofInt_eq_finite {z : Int} {k : Nat} (hz : z.natAbs = k) (hk : k ≤ 9007199254740992) :
    ∃ h, ofInt z = .finite (decide (z < 0)) (k * scale) h := by
  subst hz
  have hgrid := onGrid_mul_scale hk
  have hrepresentable := hgrid.representable (mul_scale_le_maxUnits hk)
  exact ⟨hrepresentable, ofUnits_of_representable hrepresentable (roundUnits_self hgrid) _⟩

/-- What does not round to zero is half a unit at least. -/
lemma le_two_mul_of_roundUnits_pos {num den : Nat} (hden : 0 < den) (h : 0 < roundUnits num den) :
    den ≤ 2 * num := by
  have hone : OnGrid 1 := by
    unfold OnGrid
    decide
  have hgap : gapBelow 1 = 1 := by decide
  have := (roundUnits_lt_iff hden hone Nat.one_pos).not.mp (Nat.not_lt.mpr h)
  rw [hgap] at this
  omega

/-- A decimal that does not round to zero has digits for most of its places. -/
lemma places_le_of_roundDecimal_pos {c : Nat} {e : Int} (he : e < 0) (h : 0 < roundDecimal c e) :
    (-e).toNat ≤ 400 + c.log2 := by
  have hup : e.toNat = 0 := by omega
  have hscale : ∃ k, k = 1074 ∧ scale = 2 ^ k := ⟨1074, rfl, Nat.pow_eq⟩
  obtain ⟨k, hk, hscale⟩ := hscale
  have hle := le_two_mul_of_roundUnits_pos (Nat.pow_pos (by decide)) h
  rw [hup, hscale, Nat.pow_eq, Nat.pow_zero, Nat.mul_one] at hle
  generalize (-e).toNat = p at *
  have hlt : 2 ^ (3 * p) < 2 ^ (c.log2 + k + 2) := by
    calc 2 ^ (3 * p) = 8 ^ p := by rw [Nat.pow_mul]
      _ ≤ 10 ^ p := Nat.pow_le_pow_left (by decide) p
      _ ≤ 2 * (c * 2 ^ k) := hle
      _ < 2 * (2 ^ (c.log2 + 1) * 2 ^ k) := by
        have := Nat.mul_lt_mul_of_pos_right (c.lt_log2_self) (Nat.two_pow_pos k)
        omega
      _ = 2 ^ (c.log2 + k + 2) := by
        rw [← Nat.pow_add, ← Nat.pow_succ', show (c.log2 + 1 + k).succ = c.log2 + k + 2 by omega]
  have := (Nat.pow_lt_pow_iff_right (by decide : 1 < 2)).mp hlt
  omega

/-- The cut of the exponent changes no decimal with places: so many of them that it cuts make nothing of it. -/
lemma toBinary64_of_exponent_nonpos {d : Decimal} (h : d.exponent ≤ 0) :
    d.toBinary64 = ofUnits d.negative (d.coefficient * scale) (Nat.pow 10 (-d.exponent).toNat) := by
  have hup : d.exponent.toNat = 0 := by omega
  have hone : Nat.pow 10 0 = 1 := rfl
  by_cases hdown : (-d.exponent).toNat ≤ 401 + d.coefficient.log2
  · rw [Decimal.toBinary64_eq (by omega) hdown, hup, hone, Nat.mul_one]
  · have hnothing : ∀ {p : Nat}, 401 + d.coefficient.log2 ≤ p →
        roundUnits (d.coefficient * scale) (Nat.pow 10 p) = 0 := by
      intro p hp
      by_contra hround
      have hplaces := places_le_of_roundDecimal_pos (c := d.coefficient) (e := -p) (by omega)
      rw [roundDecimal, Int.neg_neg, show (-(p : Int)).toNat = 0 by omega, Int.toNat_natCast, hone, Nat.mul_one] at hplaces
      have := hplaces (Nat.pos_of_ne_zero hround)
      omega
    have hcut : (min d.exponent 400).toNat = 0 := by omega
    rw [Decimal.toBinary64, hcut, Nat.min_eq_right (by omega), hone, Nat.mul_one,
      ofUnits_of_representable representable_zero (hnothing (Nat.le_refl _)),
      ofUnits_of_representable representable_zero (hnothing (by omega))]

/-! ### Numerals -/

/-- The text of a decimal is digits, or digits around a point. -/
lemma writePositional_eq (c : Nat) (e : Int) :
    (0 ≤ e ∧ ∃ ds, writePositional c e = ds ∧ AllDigits ds ∧ ds ≠ [] ∧ digitsValue ds = c * Nat.pow 10 e.toNat) ∨
      (e < 0 ∧ ∃ whole fraction, writePositional c e = whole ++ '.' :: fraction ∧ AllDigits whole ∧ whole ≠ [] ∧
        AllDigits fraction ∧ fraction.length = (-e).toNat ∧ digitsValue (whole ++ fraction) = c) := by
  have hdigits := allDigits_digitsOf c
  have hne := digitsOf_ne_nil c
  rw [writePositional]
  rcases Int.lt_or_le e 0 with he | he
  · refine Or.inr ⟨he, ?_⟩
    rw [if_neg (by omega)]
    dsimp only
    have hpad := hdigits.padZeros ((-e).toNat + 1)
    have hlength := length_padZeros ((-e).toNat + 1) (digitsOf c)
    have hvalue := digitsValue_padZeros ((-e).toNat + 1) (digitsOf c)
    rw [digitsValue_digitsOf] at hvalue
    generalize padZeros ((-e).toNat + 1) (digitsOf c) = ds at *
    refine ⟨_, _, rfl, fun x hx => hpad x (List.mem_of_mem_take hx), ?_,
      fun x hx => hpad x (List.mem_of_mem_drop hx), ?_, ?_⟩
    · rw [← List.length_pos_iff, List.length_take]
      omega
    · rw [List.length_drop]
      omega
    · rw [List.take_append_drop, hvalue]
  · refine Or.inl ⟨he, _, rfl, ?_⟩
    rw [if_pos he]
    split_ifs with hc
    · rw [digitsValue_digitsOf, hc, Nat.zero_mul]
      exact ⟨hc ▸ hdigits, hc ▸ hne, rfl⟩
    · refine ⟨hdigits.append (allDigits_replicate_zero _), by simp [hne], ?_⟩
      rw [digitsValue_append_zeros, digitsValue_digitsOf]

/-- The decimal that stands in the text of a magnitude comes to the magnitude. -/
lemma ofUnsigned?_writePositional (negative : Bool) (c : Nat) (e : Int) (hround : e < 0 → 0 < roundDecimal c e) :
    ∃ d, Decimal.ofUnsigned? negative (writePositional c e) = some d ∧
      d.toBinary64 = ofUnits negative (c * Nat.pow 10 e.toNat * scale) (Nat.pow 10 (-e).toNat) := by
  obtain ⟨he, ds, hwrite, hds, hne, hvalue⟩ | ⟨he, whole, fraction, hwrite, hwhole, hne, hfraction, hlength, hvalue⟩ :=
    writePositional_eq c e
  · refine ⟨_, by rw [hwrite]; exact Decimal.ofUnsigned?_allDigits negative hds hne, ?_⟩
    have hdown : (-e).toNat = 0 := by omega
    have hzero : (0 : Int).toNat = 0 ∧ (-0 : Int).toNat = 0 := ⟨rfl, rfl⟩
    have hone : Nat.pow 10 0 = 1 := rfl
    rw [Decimal.toBinary64_eq (by dsimp only; omega) (Nat.zero_le _)]
    dsimp only
    rw [hvalue, hdown, hzero.1, hzero.2, hone, Nat.mul_one]
  · refine ⟨_, by rw [hwrite]; exact Decimal.ofUnsigned?_point negative hwhole hfraction (by simp [hne]), ?_⟩
    have hplaces := places_le_of_roundDecimal_pos he (hround he)
    rw [Decimal.toBinary64_eq (by dsimp only; omega) (by dsimp only; rw [hvalue]; omega), hvalue]
    dsimp only
    rw [show (-(fraction.length : Int)) = e by omega]

lemma exists_cons_writePositional (c : Nat) (e : Int) :
    ∃ d ds, writePositional c e = d :: ds ∧ d.isDigit := by
  obtain ⟨-, ds, hwrite, hds, hne, -⟩ | ⟨-, ds, fraction, hwrite, hds, hne, -⟩ := writePositional_eq c e <;>
    obtain ⟨d, ds, rfl⟩ := List.exists_cons_of_ne_nil hne <;>
    exact ⟨d, _, hwrite, hds d (List.mem_cons_self ..)⟩

lemma solid_writePositional (c : Nat) (e : Int) : Text.Solid (writePositional c e) := by
  obtain ⟨-, ds, hwrite, hds, -⟩ | ⟨-, whole, fraction, hwrite, hwhole, -, hfraction, -⟩ := writePositional_eq c e
  · rw [hwrite]
    exact hds.solid
  · rw [hwrite]
    exact hwhole.solid.append (Text.solid_cons (by decide) hfraction.solid)

/-- The sign in front of a digit is taken off. -/
lemma takeSign_writeSign (negative : Bool) {d : Char} (hd : d.isDigit) (ds : List Char) :
    takeSign (writeSign negative (d :: ds)) = (negative, d :: ds) := by
  cases negative with
  | true => rfl
  | false =>
    rw [writeSign, if_neg (by decide)]
    unfold takeSign
    split
    · next heq =>
      cases heq
      exact absurd hd (by decide)
    · next heq =>
      cases heq
      exact absurd hd (by decide)
    · rfl

/-- What is written for a number is read as the number. -/
theorem read?_write (x : Binary64) : read? x.write = some x := by
  cases x with
  | nan => decide
  | infinity negative => cases negative <;> decide
  | finite negative n hn =>
    obtain ⟨d, ds, hwrite, hd⟩ := exists_cons_writePositional (shortest n).1 (shortest n).2
    have hround := roundDecimal_shortest hn.onGrid
    have hpos : (shortest n).2 < 0 → 0 < roundDecimal (shortest n).1 (shortest n).2 := by
      intro he
      rw [hround]
      apply Nat.pos_of_ne_zero
      rintro rfl
      exact absurd he (by decide)
    obtain ⟨decimal, hdecimal, hvalue⟩ := ofUnsigned?_writePositional negative _ _ hpos
    rw [ofUnits_of_representable hn hround] at hvalue
    have hnonempty : (writeSign negative (d :: ds)).isEmpty = false := by
      cases negative <;> rfl
    rw [hwrite] at hdecimal
    rw [read?, write, hwrite, read, hnonempty, takeSign_writeSign negative hd]
    simp only [hdecimal, hvalue]
    rfl

lemma solid_write (x : Binary64) : Text.Solid x.write := by
  cases x with
  | nan => decide
  | infinity negative => cases negative <;> decide
  | finite negative n hn =>
    have hsolid := solid_writePositional (shortest n).1 (shortest n).2
    cases negative with
    | false => exact hsolid
    | true => exact Text.solid_cons (by decide) hsolid

end Binary64

end Totality
