import Totality.Proofs.Number.Numeral
import Totality.Proofs.Number.Sum

/-!
# Numerals in plain digits

A numeral in plain digits stands for a whole number of tenths, of hundredths or of another place. It is read as the
nearest number to their quotient, however many of the places are written out.
-/

namespace Totality

/-- The digits are those of `n` at the last of so many places behind the point, of which some may be left out. -/
def WrittenDigits (places n : Nat) (cs : List Char) : Prop :=
  ∃ whole fraction, (cs = whole ∧ fraction = [] ∨ cs = whole ++ '.' :: fraction) ∧ AllDigits whole ∧
    AllDigits fraction ∧ whole ++ fraction ≠ [] ∧ fraction.length ≤ places ∧
    n = digitsValue (whole ++ fraction) * Nat.pow 10 (places - fraction.length)

/-- The text is a numeral for `z` at the last of so many places behind the point: a sign or none, and digits. -/
def Written (places : Nat) (z : Int) (cs : List Char) : Prop :=
  ∃ n ds, WrittenDigits places n ds ∧ (z = n ∧ (cs = ds ∨ cs = '+' :: ds) ∨ z = -n ∧ cs = '-' :: ds)

namespace Binary64

variable {places n : Nat} {cs : List Char}

lemma ofUnits_mul_mul (negative : Bool) {m : Nat} (hm : 0 < m) (num den : Nat) :
    ofUnits negative (m * num) (m * den) = ofUnits negative num den := by
  simp only [ofUnits, roundUnits_mul_mul hm]

/-- The decimal in the digits comes to the quotient. -/
lemma ofUnsigned?_of_writtenDigits (h : WrittenDigits places n cs) (negative : Bool) :
    ∃ d, Decimal.ofUnsigned? negative cs = some d ∧
      d.toBinary64 = ofUnits negative (n * scale) (Nat.pow 10 places) := by
  obtain ⟨whole, fraction, hcs, hwhole, hfraction, hne, hlength, rfl⟩ := h
  refine ⟨⟨negative, digitsValue (whole ++ fraction), -fraction.length⟩, ?_, ?_⟩
  · obtain ⟨rfl, rfl⟩ | rfl := hcs
    · rw [List.append_nil] at hne ⊢
      exact Decimal.ofUnsigned?_allDigits negative hwhole hne
    · exact Decimal.ofUnsigned?_point negative hwhole hfraction hne
  · have hdown : (- -(fraction.length : Int)).toNat = fraction.length := by omega
    rw [toBinary64_of_exponent_nonpos (by dsimp only; omega)]
    dsimp only
    rw [hdown]
    -- the places that are left out are a common factor
    have hden : Nat.pow 10 places = Nat.pow 10 (places - fraction.length) * Nat.pow 10 fraction.length := by
      simp only [Nat.pow_eq, ← Nat.pow_add]
      congr 1
      omega
    have hnum : digitsValue (whole ++ fraction) * Nat.pow 10 (places - fraction.length) * scale =
        Nat.pow 10 (places - fraction.length) * (digitsValue (whole ++ fraction) * scale) := by ring
    have hpos : 0 < Nat.pow 10 (places - fraction.length) := Nat.pow_pos (by decide)
    rw [hden, hnum, ofUnits_mul_mul negative hpos]

lemma solid_of_writtenDigits (h : WrittenDigits places n cs) : Text.Solid cs := by
  obtain ⟨whole, fraction, ⟨rfl, -⟩ | rfl, hwhole, hfraction, -⟩ := h
  · exact hwhole.solid
  · exact hwhole.solid.append (Text.solid_cons (by decide) hfraction.solid)

lemma exists_cons_of_writtenDigits (h : WrittenDigits places n cs) :
    ∃ c rest, cs = c :: rest ∧ c ≠ '-' ∧ c ≠ '+' := by
  obtain ⟨whole, fraction, hcs, hwhole, -, hne, -, -⟩ := h
  have hdigit : ∀ c : Char, c.isDigit → c ≠ '-' ∧ c ≠ '+' := fun c hc =>
    ⟨ne_of_isDigit hc (by decide), ne_of_isDigit hc (by decide)⟩
  cases whole with
  | nil =>
    obtain ⟨rfl, rfl⟩ | rfl := hcs
    · exact absurd rfl hne
    · exact ⟨'.', fraction, rfl, by decide, by decide⟩
  | cons c whole =>
    have hc := hdigit c (hwhole c List.mem_cons_self)
    obtain ⟨rfl, -⟩ | rfl := hcs
    · exact ⟨c, whole, rfl, hc⟩
    · exact ⟨c, _, rfl, hc⟩

lemma takeSign_of_writtenDigits (h : WrittenDigits places n cs) : takeSign cs = (false, cs) := by
  obtain ⟨c, rest, rfl, hminus, hplus⟩ := exists_cons_of_writtenDigits h
  unfold takeSign
  split
  · next heq =>
    cases heq
    exact absurd rfl hminus
  · next heq =>
    cases heq
    exact absurd rfl hplus
  · rfl

lemma read_of_takeSign {negative : Bool} {body : List Char} (h : takeSign cs = (negative, body)) (hne : cs ≠ [])
    {d : Decimal} (hd : Decimal.ofUnsigned? negative body = some d) : read cs = .ok d.toBinary64 := by
  have hnonempty : cs.isEmpty = false := List.isEmpty_eq_false_iff.mpr hne
  rw [read, hnonempty, h]
  simp only [hd]
  rfl

/-- A numeral in digits is read as the nearest number. -/
lemma read_of_writtenDigits (h : WrittenDigits places n cs) :
    read cs = .ok (ofUnits false (n * scale) (Nat.pow 10 places)) := by
  obtain ⟨d, hd, hvalue⟩ := ofUnsigned?_of_writtenDigits h false
  obtain ⟨c, rest, hne, -⟩ := exists_cons_of_writtenDigits h
  rw [← hvalue]
  exact read_of_takeSign (takeSign_of_writtenDigits h) (hne ▸ List.cons_ne_nil c rest) hd

/-- A numeral with a sign is read as the nearest number. -/
lemma read_of_written {z : Int} (h : Written places z cs) :
    ∃ negative, z = signed negative z.natAbs ∧
      read cs = .ok (ofUnits negative (z.natAbs * scale) (Nat.pow 10 places)) := by
  obtain ⟨n, ds, hds, ⟨rfl, hcs⟩ | ⟨rfl, rfl⟩⟩ := h
  · refine ⟨false, rfl, ?_⟩
    rw [Int.natAbs_natCast]
    obtain rfl | rfl := hcs
    · exact read_of_writtenDigits hds
    · obtain ⟨d, hd, hvalue⟩ := ofUnsigned?_of_writtenDigits hds false
      rw [← hvalue]
      exact read_of_takeSign rfl (List.cons_ne_nil _ _) hd
  · obtain ⟨d, hd, hvalue⟩ := ofUnsigned?_of_writtenDigits hds true
    refine ⟨true, by rw [Int.natAbs_neg, Int.natAbs_natCast]; rfl, ?_⟩
    rw [Int.natAbs_neg, Int.natAbs_natCast, ← hvalue]
    exact read_of_takeSign rfl (List.cons_ne_nil _ _) hd

/-- What is read for a numeral, if it does not overflow. -/
lemma exists_finite_of_written {z : Int} (h : Written places z cs) {x : Binary64}
    (hread : read cs = .ok x) (hx : x.isFinite) :
    ∃ negative hn, z = signed negative z.natAbs ∧
      x = .finite negative (roundUnits (z.natAbs * scale) (Nat.pow 10 places)) hn := by
  obtain ⟨negative, hz, hofUnits⟩ := read_of_written h
  rw [hread, Except.ok.injEq] at hofUnits
  subst hofUnits
  rw [ofUnits] at hx ⊢
  split_ifs at hx ⊢ with hn
  · exact ⟨negative, hn, hz, rfl⟩
  · cases hx

lemma units_of_written {k : Nat} (h : Written places k cs) {x : Binary64}
    (hread : read cs = .ok x) (hx : x.isFinite) : x.units = roundUnits (k * scale) (Nat.pow 10 places) := by
  obtain ⟨negative, hn, hk, rfl⟩ := exists_finite_of_written h hread hx
  rw [Int.natAbs_natCast] at hk
  cases negative with
  | false => rfl
  | true =>
    -- behind a minus stands a zero
    obtain rfl : k = 0 := by
      rw [signed, if_pos rfl] at hk
      omega
    have hzero : roundUnits 0 (Nat.pow 10 places) = 0 := roundUnits_zero (Nat.pow_pos (by decide))
    simp only [units, signed, if_true, Int.natAbs_natCast, Nat.zero_mul]
    rw [hzero]
    rfl

end Binary64

end Totality
