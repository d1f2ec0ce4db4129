import Mathlib.Tactic.Lemma
import Mathlib.Tactic.Ring
import Totality.Number.Binary64

/-!
# Rounding to 53 bits

The numbers that need no more than 53 bits form a grid, finer near zero and coarser away from it. Rounding is
known by the numbers that do not round above a point of the grid, and those that round below it: they end half
way to the next point, and the point with the even significand gets the middle.
-/

namespace Totality

/-- A number does not round above `k` before the middle between `k` and `k + 1`. -/
lemma roundHalfEven_le_iff {num den k : Nat} (hden : 0 < den) :
    roundHalfEven num den ≤ k ↔
      2 * num < (2 * k + 1) * den ∨ 2 * num = (2 * k + 1) * den ∧ k % 2 = 0 := by
  have hnum := Nat.div_add_mod num den
  have hmod := Nat.mod_lt num hden
  have hmid : (2 * k + 1) * den = 2 * (den * k) + den := by ring
  rw [roundHalfEven, hmid]
  generalize num / den = q at *
  generalize num % den = r at *
  rcases Nat.lt_trichotomy k q with hkq | rfl | hkq
  · have := Nat.mul_le_mul_left den hkq
    rw [Nat.mul_succ] at this
    split_ifs <;> omega
  · split_ifs <;> omega
  · have := Nat.mul_le_mul_left den hkq
    rw [Nat.mul_succ] at this
    split_ifs <;> omega

lemma div_le_roundHalfEven (num den : Nat) : num / den ≤ roundHalfEven num den := by
  rw [roundHalfEven]
  split_ifs <;> omega

lemma roundHalfEven_le_div_add_one (num den : Nat) : roundHalfEven num den ≤ num / den + 1 := by
  rw [roundHalfEven]
  split_ifs <;> omega

/-- Rounding leads to the whole number below that is at most one half away, or to the one above it. -/
lemma roundHalfEven_cases (num den : Nat) :
    roundHalfEven num den = num / den ∧ 2 * (num % den) ≤ den ∨
      roundHalfEven num den = num / den + 1 ∧ den ≤ 2 * (num % den) := by
  rw [roundHalfEven]
  split_ifs <;> omega

/-- Rounding moves a number by one half at most. -/
lemma two_mul_roundHalfEven_mul_le (num : Nat) {den : Nat} (hden : 0 < den) :
    2 * (roundHalfEven num den * den) ≤ 2 * num + den ∧ 2 * num ≤ 2 * (roundHalfEven num den * den) + den := by
  have hnum := Nat.div_add_mod' num den
  have hmod := Nat.mod_lt num hden
  rcases roundHalfEven_cases num den with ⟨hround, hhalf⟩ | ⟨hround, hhalf⟩
  · rw [hround]
    omega
  · rw [hround, Nat.add_mul, Nat.one_mul]
    omega

/-- A number rounds to the whole number that is less than one half away. -/
lemma roundHalfEven_eq_of_lt {num den m : Nat} (hup : 2 * num < (2 * m + 1) * den)
    (hdown : 2 * m * den < 2 * num + den) : roundHalfEven num den = m := by
  have hden : 0 < den := by
    rcases Nat.eq_zero_or_pos den with rfl | hden
    · omega
    · exact hden
  apply Nat.le_antisymm
  · exact (roundHalfEven_le_iff hden).mpr (Or.inl hup)
  · cases m with
    | zero => exact Nat.zero_le _
    | succ m =>
      have hmid : 2 * (m + 1) * den = (2 * m + 1) * den + den := by ring
      have hnot : ¬roundHalfEven num den ≤ m := by
        rw [roundHalfEven_le_iff hden]
        omega
      omega

lemma roundHalfEven_mul_self {den : Nat} (hden : 0 < den) (m : Nat) : roundHalfEven (m * den) den = m := by
  apply roundHalfEven_eq_of_lt
  · rw [Nat.add_mul, Nat.mul_assoc]
    omega
  · rw [Nat.mul_assoc]
    omega

lemma roundHalfEven_mul_mul {m : Nat} (hm : 0 < m) (num den : Nat) :
    roundHalfEven (m * num) (m * den) = roundHalfEven num den := by
  have hlt : ∀ a b, 2 * (m * a) < m * b ↔ 2 * a < b := fun a b => by
    rw [Nat.mul_left_comm, Nat.mul_lt_mul_left hm]
  have hlt' : ∀ a b, m * b < 2 * (m * a) ↔ b < 2 * a := fun a b => by
    rw [Nat.mul_left_comm, Nat.mul_lt_mul_left hm]
  simp only [roundHalfEven, Nat.mul_div_mul_left _ _ hm, Nat.mul_mod_mul_left, hlt, hlt']

namespace Binary64

/-! ### The grid -/

lemma spacing_eq (n : Nat) : spacing n = 2 ^ (n.log2 - 52) := rfl

lemma spacing_pos (n : Nat) : 0 < spacing n := Nat.two_pow_pos _

lemma lt_mul_spacing (n : Nat) : n < 9007199254740992 * spacing n := by
  calc n < 2 ^ (n.log2 + 1) := Nat.lt_log2_self
    _ ≤ 2 ^ (53 + (n.log2 - 52)) := Nat.pow_le_pow_right (by decide) (by omega)
    _ = 9007199254740992 * spacing n := by rw [Nat.pow_add, spacing_eq]

/-- The numbers with a spacing above one are as large as 52 bits allow. -/
lemma mul_spacing_le {n : Nat} (h : 1 < spacing n) : 4503599627370496 * spacing n ≤ n := by
  have hlog : 52 < n.log2 := by
    by_contra hle
    rw [spacing_eq, Nat.sub_eq_zero_of_le (by omega)] at h
    omega
  have hn : n ≠ 0 := by
    rintro rfl
    simp at hlog
  calc 4503599627370496 * spacing n = 2 ^ (52 + (n.log2 - 52)) := by rw [Nat.pow_add, spacing_eq]
    _ = 2 ^ n.log2 := by rw [Nat.add_sub_cancel' (by omega)]
    _ ≤ n := Nat.log2_self_le hn

lemma spacing_mono {m n : Nat} (h : m ≤ n) : spacing m ≤ spacing n := by
  rcases Nat.eq_zero_or_pos m with rfl | hm
  · exact Nat.one_le_two_pow
  · have hlog : m.log2 ≤ n.log2 :=
      (Nat.le_log2 (by omega)).mpr (Nat.le_trans (Nat.log2_self_le (by omega)) h)
    exact Nat.pow_le_pow_right (by decide) (by omega)

/-- Each spacing is at least twice every smaller one. -/
lemma two_mul_spacing_le {m n : Nat} (h : spacing m < spacing n) : 2 * spacing m ≤ spacing n := by
  rw [spacing_eq, spacing_eq] at *
  have hlog := (Nat.pow_lt_pow_iff_right (by decide : 1 < 2)).mp h
  rw [← Nat.pow_succ']
  exact Nat.pow_le_pow_right (by decide) hlog

lemma spacing_dvd_spacing {m n : Nat} (h : spacing m ≤ spacing n) : spacing m ∣ spacing n := by
  rw [spacing_eq, spacing_eq] at *
  exact Nat.pow_dvd_pow 2 ((Nat.pow_le_pow_iff_right (by decide)).mp h)

/-- The spacing is known by the bounds of its numbers. -/
lemma spacing_unique {n j : Nat} (hlo : 4503599627370496 * 2 ^ j ≤ n) (hhi : n < 9007199254740992 * 2 ^ j) :
    spacing n = 2 ^ j := by
  have hn : n ≠ 0 := by
    have := Nat.two_pow_pos j
    omega
  have hlog : n.log2 = 52 + j := by
    apply (Nat.log2_eq_iff hn).mpr
    rw [Nat.pow_succ, Nat.pow_add]
    omega
  rw [spacing_eq, hlog, Nat.add_sub_cancel_left]

lemma spacing_eq_one {n : Nat} (h : n < 9007199254740992) : spacing n = 1 := by
  rcases Nat.eq_zero_or_pos n with rfl | hn
  · rfl
  · have hlog : n.log2 < 53 := (Nat.log2_lt (by omega)).mpr h
    rw [spacing_eq, Nat.sub_eq_zero_of_le (by omega), Nat.pow_zero]

lemma spacing_le_of_lt {n j : Nat} (h : n < 9007199254740992 * 2 ^ j) : spacing n ≤ 2 ^ j := by
  rcases Nat.eq_zero_or_pos n with rfl | hn
  · exact Nat.one_le_two_pow
  · have hlog : n.log2 < 53 + j := by
      rw [Nat.log2_lt (by omega), Nat.pow_add]
      exact h
    exact Nat.pow_le_pow_right (by decide) (by omega)

/-- A magnitude that needs at most 53 bits. -/
def OnGrid (n : Nat) : Prop := spacing n ∣ n

lemma Representable.onGrid {n : Nat} (h : Representable n) : OnGrid n := Nat.dvd_of_mod_eq_zero h.1

lemma OnGrid.representable {n : Nat} (h : OnGrid n) (hle : n ≤ maxUnits) : Representable n :=
  ⟨Nat.mod_eq_zero_of_dvd h, hle⟩

lemma OnGrid.mul_div {n : Nat} (h : OnGrid n) : spacing n * (n / spacing n) = n := Nat.mul_div_cancel' h

/-- The next number on the grid has the same spacing, or is the first with twice the spacing. -/
lemma OnGrid.add_spacing_le {n : Nat} (h : OnGrid n) :
    n + spacing n ≤ 9007199254740992 * spacing n := by
  have hlt : n / spacing n < 9007199254740992 :=
    Nat.div_lt_of_lt_mul (by rw [Nat.mul_comm]; exact lt_mul_spacing n)
  calc n + spacing n = spacing n * (n / spacing n + 1) := by rw [Nat.mul_succ, h.mul_div]
    _ ≤ spacing n * 9007199254740992 := Nat.mul_le_mul_left _ hlt
    _ = 9007199254740992 * spacing n := Nat.mul_comm _ _

lemma onGrid_mul_two_pow {k : Nat} (h : k ≤ 9007199254740992) (j : Nat) : OnGrid (k * 2 ^ j) := by
  rcases Nat.eq_zero_or_pos k with rfl | hk
  · rw [Nat.zero_mul]
    exact Nat.dvd_zero _
  · have hn : k * 2 ^ j ≠ 0 := Nat.mul_ne_zero (by omega) (Nat.two_pow_pos j).ne'
    rcases Nat.lt_or_eq_of_le h with h | rfl
    · have hlog : (k * 2 ^ j).log2 < 53 + j := by
        rw [Nat.log2_lt hn, Nat.pow_add]
        exact Nat.mul_lt_mul_of_pos_right h (Nat.two_pow_pos j)
      exact Nat.dvd_trans (Nat.pow_dvd_pow 2 (by omega)) (Nat.dvd_mul_left _ _)
    · have hpow : 9007199254740992 * 2 ^ j = 2 ^ (53 + j) := by rw [Nat.pow_add]
      rw [OnGrid, spacing_eq, hpow, Nat.log2_two_pow]
      exact Nat.pow_dvd_pow 2 (by omega)

/-- One is a multiple of all powers of two that are no more units than it is. -/
lemma exists_scale_eq {c k : Nat} (h : c = 2 ^ k) (hk : k ≤ 1074) : ∃ w, scale = c * 2 ^ w := by
  have hscale : scale = 2 ^ (k + (1074 - k)) := by
    rw [Nat.add_sub_cancel' hk]
    exact Nat.pow_eq
  exact ⟨1074 - k, by rw [hscale, h, Nat.pow_add]⟩

lemma scale_pos : 0 < scale := by
  obtain ⟨w, hw⟩ := exists_scale_eq (c := 1) (k := 0) rfl (Nat.zero_le _)
  rw [hw]
  exact Nat.mul_pos Nat.one_pos (Nat.two_pow_pos w)

/-- Whole numbers that need no more than 53 bits lie on the grid. -/
lemma onGrid_mul_scale {k : Nat} (h : k ≤ 9007199254740992) : OnGrid (k * scale) := by
  obtain ⟨w, hw⟩ := exists_scale_eq (c := 1) (k := 0) rfl (Nat.zero_le _)
  rw [hw, Nat.one_mul]
  exact onGrid_mul_two_pow h w

lemma mul_scale_le_maxUnits {k : Nat} (h : k ≤ 9007199254740992) : k * scale ≤ maxUnits := by
  have hmax : 9007199254740992 * scale ≤ maxUnits := by decide +kernel
  exact Nat.le_trans (Nat.mul_le_mul_right _ h) hmax

lemma onGrid_of_dvd {n j : Nat} (hdvd : 2 ^ j ∣ n) (hle : n ≤ 9007199254740992 * 2 ^ j) : OnGrid n := by
  obtain ⟨k, rfl⟩ := hdvd
  rw [Nat.mul_comm] at hle ⊢
  exact onGrid_mul_two_pow (Nat.le_of_mul_le_mul_right hle (Nat.two_pow_pos j)) j

/-- The distance from a magnitude on the grid down to the next one. -/
def gapBelow (n : Nat) : Nat :=
  if 1 < spacing n ∧ n = 4503599627370496 * spacing n then spacing n / 2 else spacing n

/-- Every spacing but the finest is even. -/
lemma two_mul_half_spacing {n : Nat} (h : 1 < spacing n) : 2 * (spacing n / 2) = spacing n := by
  rw [spacing_eq] at *
  cases hk : n.log2 - 52 with
  | zero => simp [hk] at h
  | succ k => omega

lemma gapBelow_le_spacing (n : Nat) : gapBelow n ≤ spacing n := by
  rw [gapBelow]
  split_ifs <;> omega

lemma gapBelow_pos (n : Nat) : 0 < gapBelow n := by
  have := spacing_pos n
  rw [gapBelow]
  split_ifs <;> omega

lemma gapBelow_dvd_spacing (n : Nat) : gapBelow n ∣ spacing n := by
  rw [gapBelow]
  split_ifs with h
  · exact ⟨2, by rw [Nat.mul_comm, two_mul_half_spacing h.1]⟩
  · exact Nat.dvd_refl _

/-- Going down by the distance to the next magnitude leads to a magnitude with that spacing. -/
lemma OnGrid.spacing_sub_gapBelow {n : Nat} (h : OnGrid n) (hpos : 0 < n) :
    spacing (n - gapBelow n) = gapBelow n := by
  have hlt := lt_mul_spacing n
  rw [gapBelow]
  split_ifs with hg
  · have hhalf := two_mul_half_spacing hg.1
    obtain ⟨j, hj⟩ : ∃ j, spacing n / 2 = 2 ^ j := by
      obtain ⟨k, hk⟩ := Nat.exists_eq_succ_of_ne_zero (n := n.log2 - 52)
        (fun h0 => by rw [spacing_eq, h0] at hg; omega)
      exact ⟨k, by rw [spacing_eq, hk]; omega⟩
    rw [hj] at hhalf ⊢
    exact spacing_unique (by omega) (by omega)
  · obtain h1 | h1 := Nat.lt_or_eq_of_le (spacing_pos n)
    · have hle := mul_spacing_le h1
      have hmul : 4503599627370496 * spacing n + spacing n ≤ n := by
        obtain ⟨k, hk⟩ := h
        have : 4503599627370496 < k := by
          by_contra hk'
          have := Nat.mul_le_mul_left (spacing n) (Nat.not_lt.mp hk')
          omega
        have := Nat.mul_le_mul_left (spacing n) this
        rw [Nat.mul_succ] at this
        omega
      rw [spacing_eq n] at *
      exact spacing_unique (by omega) (by omega)
    · rw [← h1] at hlt ⊢
      exact spacing_eq_one (by omega)

lemma OnGrid.gapBelow_dvd {n : Nat} (h : OnGrid n) : gapBelow n ∣ n :=
  Nat.dvd_trans (gapBelow_dvd_spacing n) h

lemma OnGrid.gapBelow_le {n : Nat} (h : OnGrid n) (hpos : 0 < n) : gapBelow n ≤ n :=
  Nat.le_of_dvd hpos h.gapBelow_dvd

lemma OnGrid.sub_gapBelow {n : Nat} (h : OnGrid n) (hpos : 0 < n) : OnGrid (n - gapBelow n) := by
  rw [OnGrid, h.spacing_sub_gapBelow hpos]
  exact Nat.dvd_sub h.gapBelow_dvd (Nat.dvd_refl _)

/-- The magnitude on the grid next below another. -/
lemma OnGrid.exists_pred {n : Nat} (h : OnGrid n) (hpos : 0 < n) :
    ∃ p, n = p + gapBelow n ∧ OnGrid p ∧ spacing p = gapBelow n ∧
      n / gapBelow n = p / gapBelow n + 1 := by
  have hle := h.gapBelow_le hpos
  refine ⟨n - gapBelow n, by omega, h.sub_gapBelow hpos, h.spacing_sub_gapBelow hpos, ?_⟩
  rw [← Nat.add_div_right _ (gapBelow_pos n), Nat.sub_add_cancel hle]

/-- There is no magnitude on the grid within the distance to the next one. -/
lemma OnGrid.add_gapBelow_le {m n : Nat} (hm : OnGrid m) (hn : OnGrid n) (h : m < n) :
    m + gapBelow n ≤ n := by
  by_contra hlt
  have hpos : 0 < n := by omega
  have hs := hn.spacing_sub_gapBelow hpos
  have hle : gapBelow n ≤ spacing m := by
    rw [← hs]
    exact spacing_mono (by omega)
  have hdvd : gapBelow n ∣ m := by
    rw [← hs] at hle ⊢
    exact Nat.dvd_trans (spacing_dvd_spacing hle) hm
  have := Nat.le_of_dvd (by omega) (Nat.dvd_sub hn.gapBelow_dvd hdvd)
  omega

/-- Nor is there one within the spacing above another. -/
lemma OnGrid.add_spacing_le_of_lt {m n : Nat} (hm : OnGrid m) (hn : OnGrid n) (h : m < n) :
    m + spacing m ≤ n := by
  have hdvd := Nat.dvd_trans (spacing_dvd_spacing (spacing_mono (Nat.le_of_lt h))) hn
  have := Nat.le_of_dvd (by omega) (Nat.dvd_sub hdvd hm)
  omega

lemma spacing_le_two_mul_gapBelow (n : Nat) : spacing n ≤ 2 * gapBelow n := by
  rw [gapBelow]
  split_ifs with h
  · exact (two_mul_half_spacing h.1).ge
  · omega

lemma gapBelow_eq_spacing {n : Nat} (h : n ≠ 4503599627370496 * spacing n) : gapBelow n = spacing n := by
  rw [gapBelow, if_neg fun hn => h hn.2]

/-- The finer gap lies below an even multiple of itself. -/
lemma gapBelow_eq_spacing_of_odd {n : Nat} (h : n / gapBelow n % 2 = 1) : gapBelow n = spacing n := by
  rw [gapBelow] at *
  split_ifs at * with hn
  · have hhalf := two_mul_half_spacing hn.1
    have hmul : n = 9007199254740992 * (spacing n / 2) := by omega
    rw [Nat.div_eq_of_eq_mul_left (by omega) hmul] at h
    omega
  · rfl

/-- Greater magnitudes on the grid have greater gaps below. -/
lemma gapBelow_mono {m n : Nat} (hm : OnGrid m) (hn : OnGrid n) (h : m ≤ n) : gapBelow m ≤ gapBelow n := by
  rcases Nat.lt_or_eq_of_le h with h | rfl
  · have hle := hm.add_gapBelow_le hn h
    calc gapBelow m ≤ spacing m := gapBelow_le_spacing m
      _ ≤ spacing (n - gapBelow n) := spacing_mono (by omega)
      _ = gapBelow n := hn.spacing_sub_gapBelow (by omega)
  · exact Nat.le_refl _

lemma lt_mul_spacing_of_spacing_lt {m n : Nat} (h : spacing m < spacing n) :
    m < 4503599627370496 * spacing n := by
  have := lt_mul_spacing m
  have := two_mul_spacing_le h
  omega

/-! ### What rounds where -/

lemma roundUnits_eq (num den : Nat) :
    roundUnits num den = roundHalfEven num (den * spacing (num / den)) * spacing (num / den) := rfl

lemma roundUnits_le_mul_spacing (num den : Nat) :
    roundUnits num den ≤ 9007199254740992 * spacing (num / den) := by
  apply Nat.mul_le_mul_right
  have hq : num / (den * spacing (num / den)) < 9007199254740992 := by
    rw [← Nat.div_div_eq_div_mul]
    exact Nat.div_lt_of_lt_mul (by rw [Nat.mul_comm]; exact lt_mul_spacing _)
  exact Nat.le_trans (roundHalfEven_le_div_add_one ..) hq

lemma mul_spacing_le_roundUnits {num den : Nat} (h : 1 < spacing (num / den)) :
    4503599627370496 * spacing (num / den) ≤ roundUnits num den := by
  apply Nat.mul_le_mul_right
  refine Nat.le_trans ?_ (div_le_roundHalfEven ..)
  rw [← Nat.div_div_eq_div_mul]
  exact (Nat.le_div_iff_mul_le (spacing_pos _)).mpr (mul_spacing_le h)

lemma onGrid_roundUnits (num den : Nat) : OnGrid (roundUnits num den) := by
  have hle := roundUnits_le_mul_spacing num den
  rw [roundUnits_eq] at hle ⊢
  exact onGrid_mul_two_pow (Nat.le_of_mul_le_mul_right hle (spacing_pos _)) _

/-- A number does not round above a point of the grid before the middle between it and the next one. -/
lemma roundUnits_le_iff {num den n : Nat} (hden : 0 < den) (hn : OnGrid n) :
    roundUnits num den ≤ n ↔
      2 * num < (2 * n + spacing n) * den ∨
        2 * num = (2 * n + spacing n) * den ∧ n / spacing n % 2 = 0 := by
  have hs := spacing_pos n
  have hfloor : num / den * den ≤ num := Nat.div_mul_le_self num den
  have hceil : num < (num / den + 1) * den := Nat.lt_mul_of_div_lt (Nat.lt_succ_self _) hden
  have hmid : (2 * n + spacing n) * den = 2 * (n * den) + spacing n * den := by ring
  rcases Nat.lt_trichotomy (spacing (num / den)) (spacing n) with h | h | h
  · -- a finer grid: the number lies below `n`
    have hlt := lt_mul_spacing_of_spacing_lt h
    have hle := mul_spacing_le (Nat.lt_of_le_of_lt (spacing_pos _) h)
    have hround := roundUnits_le_mul_spacing num den
    have := two_mul_spacing_le h
    have hnum : (num / den + 1) * den ≤ n * den := Nat.mul_le_mul_right den (by omega)
    have := Nat.mul_pos hs hden
    exact iff_of_true (by omega) (Or.inl (by omega))
  · rw [roundUnits_eq, h, ← Nat.le_div_iff_mul_le hs,
      roundHalfEven_le_iff (Nat.mul_pos hden hs)]
    have hmid' : (2 * (n / spacing n) + 1) * (den * spacing n) = (2 * n + spacing n) * den := by
      calc (2 * (n / spacing n) + 1) * (den * spacing n)
          = (2 * (spacing n * (n / spacing n)) + spacing n) * den := by ring
        _ = (2 * n + spacing n) * den := by rw [hn.mul_div]
    rw [hmid']
  · -- a coarser grid: the number lies above the middle
    have hround := mul_spacing_le_roundUnits (Nat.lt_of_le_of_lt hs h)
    have hle := mul_spacing_le (Nat.lt_of_le_of_lt hs h)
    have := two_mul_spacing_le h
    have := hn.add_spacing_le
    have hnum : (n + spacing n) * den ≤ num / den * den := Nat.mul_le_mul_right den (by omega)
    have hnum' : (n + spacing n) * den = n * den + spacing n * den := by ring
    have := Nat.mul_pos hs hden
    exact iff_of_false (by omega) (by omega)

/-- A number rounds below a point of the grid before the middle between it and the one below it. -/
lemma roundUnits_lt_iff {num den n : Nat} (hden : 0 < den) (hn : OnGrid n) (hpos : 0 < n) :
    roundUnits num den < n ↔
      2 * num + gapBelow n * den < 2 * n * den ∨
        2 * num + gapBelow n * den = 2 * n * den ∧ n / gapBelow n % 2 = 1 := by
  obtain ⟨p, hp, hgrid, hspacing, hdiv⟩ := hn.exists_pred hpos
  have hlt : roundUnits num den < n ↔ roundUnits num den ≤ p := by
    have := (onGrid_roundUnits num den).add_gapBelow_le hn
    have := gapBelow_pos n
    omega
  have hmid : (2 * p + gapBelow n) * den + gapBelow n * den = 2 * n * den := by
    rw [← Nat.add_mul]
    congr 1
    omega
  rw [hlt, roundUnits_le_iff hden hgrid, hspacing]
  omega

/-! ### Consequences -/

/-- A number on the grid rounds to itself. -/
lemma roundUnits_mul_self {n den : Nat} (hden : 0 < den) (hn : OnGrid n) :
    roundUnits (n * den) den = n := by
  have hs := Nat.mul_pos (spacing_pos n) hden
  apply Nat.le_antisymm
  · rw [roundUnits_le_iff hden hn, Nat.add_mul, Nat.mul_assoc]
    omega
  · rcases Nat.eq_zero_or_pos n with rfl | hpos
    · exact Nat.zero_le _
    · have hg := Nat.mul_pos (gapBelow_pos n) hden
      rw [← Nat.not_lt, roundUnits_lt_iff hden hn hpos, Nat.mul_assoc]
      omega

lemma roundUnits_self {n : Nat} (hn : OnGrid n) : roundUnits n 1 = n := by
  have hself := roundUnits_mul_self Nat.one_pos hn
  rwa [Nat.mul_one] at hself

lemma roundUnits_zero {den : Nat} (hden : 0 < den) : roundUnits 0 den = 0 := by
  have hself := roundUnits_mul_self hden (n := 0) (Nat.dvd_zero _)
  rwa [Nat.zero_mul] at hself

/-- Rounding keeps the order. -/
lemma roundUnits_mono {num den num' den' : Nat} (hden : 0 < den) (hden' : 0 < den')
    (h : num * den' ≤ num' * den) : roundUnits num den ≤ roundUnits num' den' := by
  have hn := onGrid_roundUnits num' den'
  have hself := (roundUnits_le_iff hden' hn).mp (Nat.le_refl _)
  generalize roundUnits num' den' = n at *
  rw [roundUnits_le_iff hden hn]
  generalize 2 * n + spacing n = mid at *
  have hcomm : mid * den * den' = mid * den' * den := by ring
  have hscale : 2 * num * den' ≤ 2 * num' * den := by
    rw [Nat.mul_assoc, Nat.mul_assoc]
    exact Nat.mul_le_mul_left 2 h
  rcases hself with hlt | ⟨heq, heven⟩
  · refine Or.inl (Nat.lt_of_mul_lt_mul_right (a := den') ?_)
    have := Nat.mul_lt_mul_of_pos_right hlt hden
    omega
  · rw [heq, ← hcomm] at hscale
    rcases Nat.lt_or_eq_of_le (Nat.le_of_mul_le_mul_right hscale hden') with hlt | heq'
    · exact Or.inl hlt
    · exact Or.inr ⟨heq', heven⟩

/-- A quotient is rounded as it is, whatever its terms have in common. -/
lemma roundUnits_mul_mul {m : Nat} (hm : 0 < m) (num den : Nat) :
    roundUnits (m * num) (m * den) = roundUnits num den := by
  rw [roundUnits_eq, roundUnits_eq, Nat.mul_div_mul_left _ _ hm, Nat.mul_assoc, roundHalfEven_mul_mul hm]

/-- Rounding moves a number by half the spacing at most. -/
lemma two_mul_roundUnits_mul_le (num : Nat) {den : Nat} (hden : 0 < den) :
    2 * (roundUnits num den * den) ≤ 2 * num + spacing (num / den) * den ∧
      2 * num ≤ 2 * (roundUnits num den * den) + spacing (num / den) * den := by
  have hhalf := two_mul_roundHalfEven_mul_le num (Nat.mul_pos hden (spacing_pos (num / den)))
  rw [roundUnits_eq, Nat.mul_assoc, Nat.mul_comm (spacing _) den]
  exact hhalf

end Binary64

end Totality
