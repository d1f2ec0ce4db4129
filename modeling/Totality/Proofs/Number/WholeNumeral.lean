import Mathlib.Algebra.Group.Nat.Defs
import Mathlib.Data.List.Induction
import Totality.Proofs.Except
import Totality.Proofs.Number.Digits

/-!
# Numerals of whole numbers

A reader of whole numbers takes the digits of a number behind any number of zeros and behind one sign, and nothing else.
A minus is a sign only where the range reaches below zero.
-/

namespace Totality

/-- The digits of a number behind zeros, and behind a plus or none. -/
def Numeral (n : Nat) (cs : List Char) : Prop :=
  ∃ k, cs = List.replicate k '0' ++ digitsOf n ∨ cs = '+' :: (List.replicate k '0' ++ digitsOf n)

/-- A numeral, or the digits of a number behind zeros and a minus. -/
def SignedNumeral (z : Int) (cs : List Char) : Prop :=
  (∃ n : Nat, z = n ∧ Numeral n cs) ∨ ∃ n k : Nat, z = -n ∧ cs = '-' :: (List.replicate k '0' ++ digitsOf n)

variable {n : Nat} {z : Int} {cs ds : List Char}

/-! ### Digits behind zeros -/

lemma digitChar_of_isDigit {c : Char} (h : c.isDigit) : Nat.digitChar (c.toNat - 48) = c := by
  have hrange := toNat_of_isDigit h
  apply Char.toNat_inj.mp
  rw [Nat.toNat_digitChar_of_lt_ten (by omega)]
  omega

lemma digitsValue_concat (ds : List Char) (c : Char) :
    digitsValue (ds ++ [c]) = 10 * digitsValue ds + (c.toNat - 48) := by
  rw [digitsValue, List.foldl_append, Nat.mul_comm]
  rfl

lemma digitsOf_of_isDigit {c : Char} (h : c.isDigit) : digitsOf (c.toNat - 48) = [c] := by
  have hrange := toNat_of_isDigit h
  rw [digitsOf, Nat.toDigits_of_lt_base (by omega), digitChar_of_isDigit h]

/-- Digits are those of the number they denote, behind zeros. -/
lemma AllDigits.exists_zeros (h : AllDigits ds) (hne : ds ≠ []) :
    ∃ k, ds = List.replicate k '0' ++ digitsOf (digitsValue ds) := by
  induction ds using List.reverseRecOn with
  | nil => exact absurd rfl hne
  | append_singleton ds c ih =>
    obtain ⟨hds, hc⟩ := List.forall_mem_append.mp h
    have hdigit : c.isDigit := hc c (List.mem_singleton_self c)
    have hrange := toNat_of_isDigit hdigit
    rw [digitsValue_concat]
    by_cases hnil : ds = []
    · have hzero : 10 * digitsValue [] + (c.toNat - 48) = c.toNat - 48 := Nat.zero_add _
      refine ⟨0, ?_⟩
      rw [hnil, hzero, digitsOf_of_isDigit hdigit]
      rfl
    · obtain ⟨k, hk⟩ := ih hds hnil
      generalize digitsValue ds = v at *
      rcases Nat.eq_zero_or_pos v with rfl | hpos
      · refine ⟨k + 1, ?_⟩
        rw [Nat.mul_zero, Nat.zero_add, digitsOf_of_isDigit hdigit, hk, List.replicate_succ']
        rfl
      · refine ⟨k, ?_⟩
        have happend := Nat.toDigits_append_toDigits (b := 10) (d := c.toNat - 48) (by decide) hpos (by omega)
        rw [hk, List.append_assoc, digitsOf, digitsOf, ← happend, ← digitsOf, ← digitsOf, digitsOf_of_isDigit hdigit]

lemma allDigits_zeros_append (k n : Nat) : AllDigits (List.replicate k '0' ++ digitsOf n) :=
  (allDigits_replicate_zero k).append (allDigits_digitsOf n)

lemma zeros_append_ne_nil (k n : Nat) : List.replicate k '0' ++ digitsOf n ≠ [] := by
  simp [digitsOf_ne_nil]

@[simp] lemma digitsValue_zeros_append_digitsOf (k n : Nat) : digitsValue (List.replicate k '0' ++ digitsOf n) = n := by
  rw [digitsValue_zeros_append, digitsValue_digitsOf]

/-! ### Reading -/

namespace IntegerRange

lemma readDigits_eq_ok_iff {limit v w : Nat} {overflow : IntegerError} (hv : v ≤ limit) :
    readDigits limit overflow v ds = .ok w ↔ AllDigits ds ∧ w = Nat.ofDigitChars 10 ds v ∧ w ≤ limit := by
  constructor
  · intro h
    induction ds generalizing v with
    | nil =>
      rw [readDigits, Except.ok.injEq] at h
      exact ⟨List.forall_mem_nil _, h.symm, h ▸ hv⟩
    | cons c ds ih =>
      rw [readDigits] at h
      split at h
      · cases h
      · next hdigit =>
        dsimp only at h
        split at h
        · cases h
        · next hlimit =>
          obtain ⟨hds, hw, hle⟩ := ih (Nat.not_lt.mp hlimit) h
          refine ⟨List.forall_mem_cons.mpr ⟨by simpa using hdigit, hds⟩, ?_, hle⟩
          rw [Nat.ofDigitChars_cons, Nat.mul_comm]
          exact hw
  · rintro ⟨hds, rfl, hle⟩
    exact readDigits_eq_ok hds hle overflow

/-- What is read is a numeral of the range, and a minus needs a range that reaches below zero. -/
lemma read_eq_ok_iff {range : IntegerRange} (hhi : 0 ≤ range.hi) : range.read cs = .ok z ↔
    (∃ n : Nat, z = n ∧ Numeral n cs ∧ z ≤ range.hi) ∨
      range.lo < 0 ∧ ∃ n k : Nat, z = -n ∧ cs = '-' :: (List.replicate k '0' ++ digitsOf n) ∧ range.lo ≤ z := by
  have hdigits : ∀ {limit : Nat} {overflow : IntegerError} {ds : List Char} {w : Nat}, ds ≠ [] →
      readDigits limit overflow 0 ds = .ok w → w ≤ limit ∧ ∃ k, ds = List.replicate k '0' ++ digitsOf w := by
    intro limit overflow ds w hne h
    obtain ⟨hds, hw, hle⟩ := (readDigits_eq_ok_iff (Nat.zero_le limit)).mp h
    rw [← digitsValue_eq] at hw
    exact ⟨hle, hw ▸ hds.exists_zeros hne⟩
  constructor
  · intro h
    unfold read at h
    split at h
    · cases h
    · cases h
    · cases h
    · next ds hne =>
      obtain ⟨w, hw, rfl⟩ := map_eq_ok.mp h
      obtain ⟨hle, k, hk⟩ := hdigits (fun hnil => hne hnil) hw
      refine Or.inl ⟨w, rfl, ⟨k, Or.inr (hk ▸ rfl)⟩, ?_⟩
      rw [Int.ofNat_eq_natCast]
      omega
    · next ds hne =>
      split at h
      · next hlo =>
        obtain ⟨v, hv, rfl⟩ := map_eq_ok.mp h
        obtain ⟨w, hw, hcast⟩ := bind_eq_ok.mp hv
        obtain rfl : (w : Int) = v := Except.ok.inj hcast
        obtain ⟨hle, k, hk⟩ := hdigits (fun hnil => hne hnil) hw
        exact Or.inr ⟨hlo, w, k, rfl, hk ▸ rfl, by omega⟩
      · cases h
    · next ds hnil _ _ _ _ =>
      obtain ⟨w, hw, rfl⟩ := map_eq_ok.mp h
      obtain ⟨hle, k, hk⟩ := hdigits hnil hw
      refine Or.inl ⟨w, rfl, ⟨k, Or.inl hk⟩, ?_⟩
      rw [Int.ofNat_eq_natCast]
      omega
  · rintro (⟨n, rfl, ⟨k, rfl | rfl⟩, hle⟩ | ⟨hlo, n, k, rfl, rfl, hle⟩)
    · rw [read_allDigits (allDigits_zeros_append k n) (zeros_append_ne_nil k n) (by simpa using hle)]
      simp
    · rw [read_plus (allDigits_zeros_append k n) (zeros_append_ne_nil k n) (by simpa using hle)]
      simp
    · rw [read_minus (allDigits_zeros_append k n) (zeros_append_ne_nil k n) hlo (by simpa using hle)]
      simp

lemma read?_eq_some_iff {range : IntegerRange} : range.read? cs = some z ↔ range.read cs = .ok z := by
  rw [read?]
  cases range.read cs with
  | ok w => rw [Except.toOption, Option.some.injEq, Except.ok.injEq]
  | error e => simp [Except.toOption]

end IntegerRange

/-- Natural numbers are read from their numerals. -/
lemma readNat?_eq_some_iff {bits : Nat} : readNat? bits cs = some n ↔ Numeral n cs ∧ n < 2 ^ bits := by
  have hpos := Nat.two_pow_pos bits
  have hhi : (IntegerRange.unsigned bits).hi = ((2 ^ bits : Nat) : Int) - 1 := rfl
  have hlo : (IntegerRange.unsigned bits).lo = 0 := rfl
  have hnonneg : 0 ≤ (IntegerRange.unsigned bits).hi := by omega
  simp only [readNat?, Option.map_eq_some_iff, IntegerRange.read?_eq_some_iff, IntegerRange.read_eq_ok_iff hnonneg]
  constructor
  · rintro ⟨z, ⟨m, rfl, hm, hle⟩ | ⟨hneg, -⟩, rfl⟩
    · exact ⟨hm, by rw [Int.toNat_natCast]; omega⟩
    · omega
  · rintro ⟨hn, hlt⟩
    exact ⟨n, Or.inl ⟨n, rfl, hn, by omega⟩, Int.toNat_natCast n⟩

/-- Numbers with a sign are read from their numerals. -/
lemma read?_signed_eq_some_iff : (IntegerRange.signed 32).read? cs = some z ↔
    SignedNumeral z cs ∧ -2147483648 ≤ z ∧ z ≤ 2147483647 := by
  have hlo : (IntegerRange.signed 32).lo = -2147483648 := by decide
  have hhi : (IntegerRange.signed 32).hi = 2147483647 := by decide
  rw [IntegerRange.read?_eq_some_iff, IntegerRange.read_eq_ok_iff (by rw [hhi]; decide), hlo, hhi]
  constructor
  · rintro (⟨n, rfl, hn, hle⟩ | ⟨-, n, k, rfl, hcs, hle⟩)
    · exact ⟨Or.inl ⟨n, rfl, hn⟩, by omega, hle⟩
    · exact ⟨Or.inr ⟨n, k, rfl, hcs⟩, hle, by omega⟩
  · rintro ⟨⟨n, rfl, hn⟩ | ⟨n, k, rfl, hcs⟩, hle, hle'⟩
    · exact Or.inl ⟨n, rfl, hn, hle'⟩
    · exact Or.inr ⟨by decide, n, k, rfl, hcs, hle⟩

/-! ### Characters -/

lemma Numeral.signed (h : Numeral n cs) : SignedNumeral n cs := Or.inl ⟨n, rfl, h⟩

lemma SignedNumeral.mem (h : SignedNumeral z cs) : ∀ c ∈ cs, c.isDigit ∨ c = '+' ∨ c = '-' := by
  have hzeros : ∀ k n : Nat, ∀ c ∈ List.replicate k '0' ++ digitsOf n, c.isDigit ∨ c = '+' ∨ c = '-' :=
    fun k n c hc => Or.inl (allDigits_zeros_append k n c hc)
  obtain ⟨n, -, k, rfl | rfl⟩ | ⟨n, k, -, rfl⟩ := h
  · exact hzeros k n
  · exact List.forall_mem_cons.mpr ⟨Or.inr (Or.inl rfl), hzeros k n⟩
  · exact List.forall_mem_cons.mpr ⟨Or.inr (Or.inr rfl), hzeros k n⟩

lemma SignedNumeral.solid (h : SignedNumeral z cs) : Text.Solid cs := by
  intro c hc
  obtain hdigit | rfl | rfl := h.mem c hc
  · exact isBlank_of_isDigit hdigit
  · decide
  · decide

lemma SignedNumeral.not_mem (h : SignedNumeral z cs) {c : Char} (hc : ¬(c.isDigit ∨ c = '+' ∨ c = '-')) : c ∉ cs :=
  fun hmem => hc (h.mem c hmem)

end Totality
