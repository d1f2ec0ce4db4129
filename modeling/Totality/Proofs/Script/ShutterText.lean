import Totality.Proofs.Number.Places
import Totality.Proofs.Number.Reciprocal
import Totality.Script.Field

/-!
# Shutter times in text

A shutter time is shown as a fraction of one below a second and as a number from a second on. What is shown is taken as
a shutter time again, and is shown the same way again, unless the fraction is a whole second or its denominator has
drifted. The main statement is `text_read_iff`.
-/

namespace Totality.Shutter

open Text Binary64

/-- A time that a shutter can stay open: finite and longer than nothing. -/
def Proper (s : Binary64) : Prop := s.isFinite ∧ (zero false).lt s

instance (s : Binary64) : Decidable (Proper s) := inferInstanceAs (Decidable (_ ∧ _))

/-- The denominator that is shown for a time below a second. -/
def denominator (s : Binary64) : Nat := ((one / s).roundTo 0 18446744073709551615).toNat

/-- A time below a second that is shown as one divided by one, or by a number that drifts. -/
def Strays (s : Binary64) : Prop := s.lt one ∧ (denominator s = 1 ∨ Drifts (denominator s))

variable {s : Binary64} {cs : List Char} {n : Nat}

/-! ### Proper times -/

lemma proper_iff : Proper s ↔ ∃ m hm, 0 < m ∧ s = .finite false m hm := by
  constructor
  · rintro ⟨hfinite, hpos⟩
    obtain ⟨m, hm, rfl, hunits⟩ | rfl := finite_or_infinity_of_pos hpos
    · exact ⟨m, hm, hunits, rfl⟩
    · cases hfinite
  · rintro ⟨m, hm, hpos, rfl⟩
    refine ⟨rfl, ?_⟩
    rw [lt_iff_of_place (place_zero false) (place_eq_units rfl), units, signed_false]
    omega

lemma proper_of_read? (h : read? cs = some s) : Proper s := by
  obtain ⟨-, hs⟩ := Option.filter_eq_some_iff.mp h
  rwa [Bool.and_eq_true] at hs

lemma read?_of_number (h : readNumbers? '/' cs = some [s]) (hs : Proper s) : read? cs = some s := by
  rw [read?, h]
  exact Option.filter_eq_some_iff.mpr ⟨rfl, by rwa [Bool.and_eq_true]⟩

lemma read?_of_quotient {x y : Binary64} (h : readNumbers? '/' cs = some [x, y]) (hs : Proper (x / y)) :
    read? cs = some (x / y) := by
  rw [read?, h]
  exact Option.filter_eq_some_iff.mpr ⟨rfl, by rwa [Bool.and_eq_true]⟩

/-! ### Plain seconds -/

lemma slash_not_mem_write (hs : s.isFinite) : '/' ∉ s.write := by
  obtain ⟨negative, m, hm, rfl⟩ := exists_of_isFinite hs
  have hslash : '/' ∉ writePositional (shortest m).1 (shortest m).2 := by
    obtain ⟨-, ds, hwrite, hds, -⟩ | ⟨-, whole, fraction, hwrite, hwhole, -, hfraction, -⟩ :=
      writePositional_eq (shortest m).1 (shortest m).2
    · rw [hwrite]
      exact hds.not_mem (by decide)
    · rw [hwrite, List.mem_append, List.mem_cons, not_or, not_or]
      exact ⟨hwhole.not_mem (by decide), by decide, hfraction.not_mem (by decide)⟩
  cases negative with
  | false => exact hslash
  | true => exact List.not_mem_cons_of_ne_of_not_mem (by decide) hslash

lemma read?_write (hs : Proper s) : read? s.write = some s := by
  refine read?_of_number ?_ hs
  rw [readNumbers?, splitAt_of_not_mem (slash_not_mem_write hs.1)]
  simp [(Binary64.solid_write s).trim, Binary64.read?_write]

/-- The times that are read are the finite ones that are longer than nothing. -/
lemma exists_read?_iff : (∃ cs, read? cs = some s) ↔ Proper s :=
  ⟨fun ⟨_, h⟩ => proper_of_read? h, fun hs => ⟨s.write, read?_write hs⟩⟩

/-! ### Fractions -/

lemma toList_fraction (n : Nat) : ("1/" ++ toString n).toList = '1' :: '/' :: digitsOf n := by
  rw [String.toList_append, Nat.toString_eq_ofList_toDigits, String.toList_ofList, String.toList_ofList]
  rfl

lemma fraction_inj {a b : Nat} : "1/" ++ toString a = "1/" ++ toString b ↔ a = b := by
  constructor
  · intro h
    have hlist := congrArg String.toList h
    rw [toList_fraction, toList_fraction, List.cons.injEq, List.cons.injEq] at hlist
    rw [← digitsValue_digitsOf a, hlist.2.2, digitsValue_digitsOf]
  · rintro rfl
    rfl

lemma text_of_lt (h : s.lt one) : text s = "1/" ++ toString (denominator s) := by
  have hnonneg := (roundTo_mem (Int.le_refl 0) (by decide : (0 : Int) ≤ 18446744073709551615) (one / s)).1
  rw [text, if_pos h, denominator]
  obtain ⟨k, hk⟩ := Int.eq_ofNat_of_zero_le hnonneg
  rw [hk]
  rfl

lemma ofInt_natCast (n : Nat) : ofInt n = ofUnits false (n * scale) 1 := by
  rw [ofInt, Int.natAbs_natCast, decide_eq_false (by omega)]

lemma readNumbers?_fraction (n : Nat) :
    readNumbers? '/' ("1/" ++ toString n).toList = some [one, ofInt n] := by
  have hone : Binary64.read? ['1'] = some one := by decide +kernel
  have hdigits := allDigits_digitsOf n
  have hread : Binary64.read? (digitsOf n) = some (ofInt n) := by
    have hwritten : WrittenDigits 0 n (digitsOf n) :=
      ⟨digitsOf n, [], Or.inl ⟨rfl, rfl⟩, hdigits, List.forall_mem_nil _, by simp [digitsOf_ne_nil],
        Nat.le_refl _, by simp⟩
    rw [ofInt_natCast, Binary64.read?, read_of_writtenDigits hwritten]
    rfl
  have hpieces : splitAt '/' ('1' :: '/' :: digitsOf n) = [['1'], digitsOf n] := by
    have hcut : splitAt '/' (['1'] ++ '/' :: digitsOf n) = ['1'] :: splitAt '/' (digitsOf n) :=
      splitAt_append (by decide) (digitsOf n)
    rwa [splitAt_of_not_mem (hdigits.not_mem (by decide))] at hcut
  have htrim : trim ['1'] = ['1'] := by decide
  rw [toList_fraction, readNumbers?, hpieces]
  simp [htrim, hdigits.solid.trim, hone, hread]

/-- The denominator is the whole number next to the reciprocal, as far as there are numerals for it. -/
lemma denominator_finite {m : Nat} (hm : Representable m) (hpos : 0 < m) :
    denominator (.finite false m hm) = min 18446744073709551615 (wholes (reciprocal m)) := by
  obtain ⟨hscale, hone⟩ := exists_one
  have htop : 18446744073709551615 * scale ≤ maxUnits := by decide +kernel
  have hcast : (18446744073709551615 : Int) = (18446744073709551615 : Nat) := rfl
  rw [denominator, hone, finite_div_finite false false hscale hm hpos, Bool.bne_false, hcast,
    roundTo_ofUnits htop, Int.toNat_natCast, reciprocal]

/-! ### There and back -/

lemma lt_one_iff {m : Nat} (hm : Representable m) : (Binary64.finite false m hm).lt one ↔ m < scale := by
  obtain ⟨hscale, hone⟩ := exists_one
  rw [hone, lt_iff_of_place (place_eq_units rfl) (place_eq_units rfl), units, units, signed_false, signed_false]
  omega

/-- A fraction is read as the reciprocal of its denominator. -/
lemma exists_read?_fraction (hpos : 0 < n) (hn : n ≤ 18446744073709551615) :
    ∃ r hr, read? ("1/" ++ toString n).toList = some (.finite false r hr) ∧ 0 < r ∧
      r = reciprocal (roundUnits (n * scale) 1) := by
  obtain ⟨d, hd, hround, hlow, hhigh, hvalue⟩ := exists_ofUnits_eq_finite hpos (Nat.le_succ_of_le hn)
  obtain ⟨hscale, hone⟩ := exists_one
  have hdpos : 0 < d := Nat.lt_of_lt_of_le scale_pos hlow
  have hrpos := reciprocal_pos hd.onGrid (Nat.le_trans le_scale hlow) hhigh
  have hle : reciprocal d ≤ scale := by
    have hanti := reciprocal_anti scale_pos hlow
    rwa [reciprocal_scale] at hanti
  have hr : Representable (reciprocal d) := (onGrid_roundUnits _ _).representable (Nat.le_trans hle hscale.2)
  have hquotient : one / ofInt n = .finite false (reciprocal d) hr := by
    rw [ofInt_natCast, hvalue, hone, finite_div_finite false false hscale hd hdpos, Bool.bne_false]
    exact ofUnits_of_representable hr rfl false
  refine ⟨_, hr, ?_, hrpos, by rw [hround]⟩
  rw [← hquotient]
  refine read?_of_quotient (readNumbers?_fraction n) ?_
  rw [hquotient, proper_iff]
  exact ⟨_, hr, hrpos, rfl⟩

/-- From one half on, fractions are shown as fractions. -/
lemma text_reciprocal (hn : 2 ≤ n) {r : Nat} (hr : Representable r) (hpos : 0 < r)
    (h : r = reciprocal (roundUnits (n * scale) 1)) :
    text (.finite false r hr) = "1/" ++ toString (min 18446744073709551615 (wholes (reciprocal r))) := by
  have htwo : 2 * scale ≤ roundUnits (n * scale) 1 := by
    rw [← roundUnits_self (onGrid_mul_scale (by decide : 2 ≤ 9007199254740992))]
    exact roundUnits_one_mono (Nat.mul_le_mul_right _ hn)
  have hanti := reciprocal_anti (Nat.mul_pos Nat.two_pos scale_pos) htwo
  have hhalf := reciprocal_two_mul_scale
  rw [text_of_lt ((lt_one_iff hr).mpr (by omega)), denominator_finite hr hpos]

/-- A denominator is found again unless it drifts. -/
lemma denominator_again {m : Nat} (hm : Representable m) (hpos : 0 < m) (hlt : m < scale) (hn : 2 ≤ n)
    (h : denominator (.finite false m hm) = n) :
    min 18446744073709551615 (wholes (reciprocal (reciprocal (roundUnits (n * scale) 1)))) = n ↔ ¬Drifts n := by
  rw [denominator_finite hm hpos] at h
  by_cases hsmall : n ≤ 4503599627370496
  · have hself : roundUnits (n * scale) 1 = n * scale := roundUnits_self (onGrid_mul_scale (by omega))
    have hiff := wholes_reciprocal_iff (by omega) hsmall
    rw [hself, ← hiff]
    omega
  · refine iff_of_true ?_ (by unfold Drifts; omega)
    by_cases htop : n = 18446744073709551615
    · -- the next number up is a power of two
      have hround : roundUnits (18446744073709551615 * scale) 1 = 18446744073709551616 * scale := by decide +kernel
      have hreciprocal : reciprocal (reciprocal (18446744073709551616 * scale)) = 18446744073709551616 * scale := by
        decide +kernel
      rw [htop, hround, hreciprocal, wholes_mul_scale]
      rfl
    · obtain ⟨hwhole, hagain⟩ := reciprocal_reciprocal_of_wholes hm.onGrid hpos (Nat.le_of_lt hlt)
        (by omega : wholes (reciprocal m) = n) (by omega) (by omega)
      have hself : roundUnits (n * scale) 1 = n * scale := by
        rw [← hwhole]
        exact roundUnits_self (onGrid_roundUnits _ _)
      rw [hself, hagain, wholes_mul_scale]
      omega

lemma one_le_denominator {m : Nat} (hm : Representable m) (hpos : 0 < m) (hlt : m < scale) :
    1 ≤ denominator (.finite false m hm) := by
  have hanti := reciprocal_anti hpos (Nat.le_of_lt hlt)
  rw [reciprocal_scale] at hanti
  have hwhole := le_wholes (n := 1) (u := reciprocal m) (by omega)
  rw [denominator_finite hm hpos]
  omega

lemma denominator_le {m : Nat} (hm : Representable m) (hpos : 0 < m) :
    denominator (.finite false m hm) ≤ 18446744073709551615 := by
  rw [denominator_finite hm hpos]
  exact Nat.min_le_left _ _

/-- What is shown for a time below a second is read, and is shown again if it neither is a second nor drifts. -/
lemma exists_read?_text_of_lt (hs : Proper s) (hlt : s.lt one) :
    ∃ t, read? (text s).toList = some t ∧ (text t = text s ↔ ¬Strays s) := by
  obtain ⟨m, hm, hpos, rfl⟩ := proper_iff.mp hs
  have hunits := (lt_one_iff hm).mp hlt
  obtain ⟨r, hr, hread, hrpos, hvalue⟩ :=
    exists_read?_fraction (one_le_denominator hm hpos hunits) (denominator_le hm hpos)
  rw [text_of_lt hlt]
  refine ⟨_, hread, ?_⟩
  have hone := one_le_denominator hm hpos hunits
  rw [Strays]
  generalize hn : denominator (.finite false m hm) = n at *
  rcases Nat.eq_or_lt_of_le hone with hn1 | htwo
  · -- the fraction is a second, which is shown in plain seconds
    have hscale : r = scale := by
      rw [hvalue, ← hn1, roundUnits_self (onGrid_mul_scale (by decide)), Nat.one_mul, reciprocal_scale]
    obtain ⟨_, hsecond⟩ := exists_one
    have hsecond' : Binary64.finite false r hr = one := by simp only [hsecond, hscale]
    have htext : text one ≠ "1/" ++ toString 1 := by decide +kernel
    rw [hsecond', ← hn1]
    exact iff_of_false htext fun hstrays => hstrays ⟨hlt, Or.inl rfl⟩
  · rw [text_reciprocal htwo hr hrpos hvalue, fraction_inj, hvalue,
      denominator_again hm hpos hunits htwo hn]
    simp [hlt, show n ≠ 1 by omega]

/-- A shutter time is any number that is finite and longer than nothing. What is shown for it is read as a shutter time,
and the same is shown for that one, if and only if it does not stray: it is a second at least, or its reciprocal is not
next to one and next to no number that drifts. No number up to `2 ^ 50` does, so fractions with such a denominator are
shown as they are written. -/
theorem text_read_iff (s : Binary64) :
    ((∃ cs, read? cs = some s) ↔ Proper s) ∧
      (Proper s → ∃ t, read? (text s).toList = some t ∧ (text t = text s ↔ ¬Strays s)) ∧
      ∀ n, 2 ≤ n → n ≤ 1125899906842624 →
        ∃ t, read? ("1/" ++ toString n).toList = some t ∧ text t = "1/" ++ toString n := by
  refine ⟨exists_read?_iff, fun hs => ?_, fun n hlo hhi => ?_⟩
  · by_cases hlt : s.lt one
    · exact exists_read?_text_of_lt hs hlt
    · have htext : (text s).toList = s.write := by
        rw [text, if_neg hlt, Binary64.text, String.toList_ofList]
      rw [htext]
      exact ⟨s, read?_write hs, iff_of_true rfl fun hstrays => hlt hstrays.1⟩
  · obtain ⟨r, hr, hread, hpos, hvalue⟩ := exists_read?_fraction (n := n) (by omega) (by omega)
    have hself : roundUnits (n * scale) 1 = n * scale := roundUnits_self (onGrid_mul_scale (by omega))
    have hagain : wholes (reciprocal r) = n := by
      rw [hvalue, hself, wholes_reciprocal_iff (by omega) (by omega), Drifts]
      omega
    refine ⟨_, hread, ?_⟩
    rw [text_reciprocal hlo hr hpos hvalue, hagain, Nat.min_eq_right (by omega)]

/-- Seven tenths of a second. -/
def sevenTenths : Binary64 := ofUnits false (7 * scale) 10

/-- Seven tenths of a second are shown as a fraction that is a whole second, and a second is not shown as a fraction. -/
theorem sevenTenths_shown_otherwise :
    Proper sevenTenths ∧ text sevenTenths = "1/1" ∧ read? (text sevenTenths).toList = some one ∧
      text one = "1" ∧ text one ≠ text sevenTenths := by
  have htext : text sevenTenths = "1/1" := by decide +kernel
  have hone : text one = "1" := by decide +kernel
  refine ⟨by decide +kernel, htext, ?_, hone, ?_⟩
  · rw [htext]
    decide +kernel
  · rw [htext, hone]
    decide

end Totality.Shutter
