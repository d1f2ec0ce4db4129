import Mathlib.Data.List.Nodup
import Totality.Proofs.Number.Places
import Totality.Proofs.Number.RunningSum
import Totality.Proofs.Script.SweepPasses

/-!
# The texts of a sweep

A sweep puts its values into the names of events with one decimal. For numbers in whole tenths these texts should be
those of the start, of the start and a step, and so on below the end. The values are running sums, though, and one that
falls just short of the end stands for the end and is passed, too.
-/

namespace Totality

open Binary64

namespace Sweep

/-! ### Texts of tenths -/

/-- So many tenths with one decimal, in four characters at least. -/
def tenthsText (n : Nat) : String := String.ofList (padZeros 4 (digitsOf (n / 10) ++ '.' :: digitsOf (n % 10)))

lemma padZeros_tenths (n : Nat) :
    ∃ zeros, AllDigits (zeros ++ digitsOf (n / 10)) ∧ digitsValue (zeros ++ digitsOf (n / 10)) = n / 10 ∧
      padZeros 4 (digitsOf (n / 10) ++ '.' :: digitsOf (n % 10)) =
        (zeros ++ digitsOf (n / 10)) ++ '.' :: digitsOf (n % 10) := by
  refine ⟨List.replicate (4 - (digitsOf (n / 10) ++ '.' :: digitsOf (n % 10)).length) '0', ?_, ?_, ?_⟩
  · exact (allDigits_replicate_zero _).append (allDigits_digitsOf _)
  · rw [digitsValue_zeros_append, digitsValue_digitsOf]
  · rw [padZeros, List.append_assoc]

/-- Different tenths have different texts. -/
lemma tenthsText_injective : Function.Injective tenthsText := by
  intro m n h
  obtain ⟨zeros, hdigits, hvalue, htext⟩ := padZeros_tenths m
  obtain ⟨zeros', hdigits', hvalue', htext'⟩ := padZeros_tenths n
  have hlist := String.ofList_injective h
  rw [htext, htext'] at hlist
  -- the point ends the first digits
  have hpoint : ∀ ds : List Char, ∀ c ∈ ('.' :: ds).head?, ¬c.isDigit := by simp
  have hleft := Text.takeWhile_dropWhile_append hdigits _ (hpoint (digitsOf (m % 10)))
  have hright := Text.takeWhile_dropWhile_append hdigits' _ (hpoint (digitsOf (n % 10)))
  rw [hlist] at hleft
  have hwhole := congrArg digitsValue (hleft.1.symm.trans hright.1)
  have htenth := congrArg (digitsValue ∘ List.tail) (hleft.2.symm.trans hright.2)
  simp only [Function.comp_apply, List.tail_cons, digitsValue_digitsOf] at htenth
  rw [hvalue, hvalue'] at hwhole
  omega

/-- How many steps of `t` from `a` on stay below `e`. -/
def stepsBelow (a t : Nat) (e : Int) : Nat := ((e - a + (t - 1)) / t).toNat

/-- The texts of `a` tenths and steps of `t` tenths, as long as they stay below `e` tenths. -/
def textsBelow (a t : Nat) (e : Int) : List String :=
  (List.range (stepsBelow a t e)).map fun k => tenthsText (a + k * t)

lemma lt_stepsBelow_iff {a t : Nat} {e : Int} (ht : 0 < t) {k : Nat} : k < stepsBelow a t e ↔ (a + k * t : Nat) < e := by
  have hpos : (0 : Int) < t := by omega
  rw [stepsBelow, Int.lt_toNat, Int.lt_iff_add_one_le, Int.le_ediv_iff_mul_le hpos, Int.add_mul]
  push_cast
  omega

lemma nodup_textsBelow {a t : Nat} (e : Int) (ht : 0 < t) : (textsBelow a t e).Nodup := by
  refine List.nodup_range.map fun j k h => ?_
  have hsum := tenthsText_injective h
  exact Nat.eq_of_mul_eq_mul_right ht (Nat.add_left_cancel hsum)

lemma tenthsText_not_mem {a t e : Nat} (ht : 0 < t) : tenthsText e ∉ textsBelow a t e := by
  intro hmem
  obtain ⟨k, hk, htext⟩ := List.mem_map.mp hmem
  have hlt := (lt_stepsBelow_iff ht).mp (List.mem_range.mp hk)
  have := tenthsText_injective htext
  omega

/-! ### The texts of the values -/

/-- The values of the sweep come to an end, and these are their texts. -/
def Substitutes (s : Sweep) (texts : List String) : Prop := s.values.2 = false ∧ s.values.1.map valueText = texts

variable {s : Sweep}

/-- The texts are all that the actions of a sweep are made from. -/
lemma actions_of_substitutes {texts : List String} (h : s.Substitutes texts) (table : EventTable Instant)
    (body : List Leaf) :
    (Loop.sweep s).actions table body =
      ((texts.mapM fun text => body.mapM (passLeaf table text)).map List.flatten).mapError .unresolved := by
  obtain ⟨hflag, rfl⟩ := h
  have hpass : s.values.1.mapM (pass table body) =
      (s.values.1.map valueText).mapM fun text => body.mapM (passLeaf table text) := by
    rw [List.mapM_map]
    rfl
  rw [← hpass]
  simp only [Loop.actions, hflag]
  cases s.values.1.mapM (pass table body) with
  | error e => rfl
  | ok passes => rfl

lemma not_stalls_of_not_lt (h : s.Admitted) {n : Nat} (hn : ¬(s.value n).lt s.stop) : ¬s.Stalls := fun hstalls =>
  hn ((forall_value_lt_stop_iff h).mpr hstalls n)

lemma passes_eq_of_lt_iff (h : s.Admitted) {n : Nat} (hbelow : ∀ k < n, (s.value k).lt s.stop)
    (hn : ¬(s.value n).lt s.stop) : s.passes = n := by
  obtain ⟨-, hlt, hnot⟩ := values_of_not_stalls h (not_stalls_of_not_lt h hn)
  apply Nat.le_antisymm
  · by_contra hgt
    exact hn (hlt n (Nat.lt_of_not_le hgt))
  · by_contra hgt
    exact hnot (hbelow _ (Nat.lt_of_not_le hgt))

/-- The texts are known by the values that lie below the end, and by the first one that does not. -/
lemma substitutes_map_iff (h : s.Admitted) (n : Nat) (f : Nat → String) :
    s.Substitutes ((List.range n).map f) ↔
      (∀ k < n, (s.value k).lt s.stop ∧ valueText (s.value k) = f k) ∧ ¬(s.value n).lt s.stop := by
  rw [Substitutes, values_fst h, List.map_map]
  constructor
  · rintro ⟨hflag, htexts⟩
    have hstalls : ¬s.Stalls := fun hstalls => by
      rw [values_of_stalls h hstalls] at hflag
      cases hflag
    obtain ⟨-, hlt, hnot⟩ := values_of_not_stalls h hstalls
    have hpasses : s.passes = n := by simpa using congrArg List.length htexts
    rw [hpasses] at htexts hlt hnot
    refine ⟨fun k hk => ⟨hlt k hk, ?_⟩, hnot⟩
    exact List.map_inj_left.mp htexts k (List.mem_range.mpr hk)
  · rintro ⟨hbelow, hn⟩
    rw [passes_eq_of_lt_iff h (fun k hk => (hbelow k hk).1) hn]
    refine ⟨(values_of_not_stalls h (not_stalls_of_not_lt h hn)).1, ?_⟩
    exact List.map_inj_left.mpr fun k hk => (hbelow k (List.mem_range.mp hk)).2

/-! ### Values as running sums -/

/-- From a start at zero or above, the places of a sweep are running sums. -/
lemma place_ascent (h : s.Admitted) {x y : Nat} (hx : s.start.units = x) (hy : s.step.units = y) (k : Nat) :
    h.ascent.place k = runningSum x y k := by
  have hstep : h.ascent.step = y := Int.ofNat.inj (h.ascent_step.trans hy)
  induction k with
  | zero => exact hx
  | succ k ih => rw [Ascent.place, ih, hstep, runningSum, ← Int.natCast_add, roundInt_natCast]

lemma value_lt_stop_iff_runningSum (h : s.Admitted) {x y : Nat} (hx : s.start.units = x) (hy : s.step.units = y)
    (k : Nat) : (s.value k).lt s.stop ↔ (runningSum x y k : Int) < s.stop.units := by
  rw [value_lt_stop_iff h, place_ascent h hx hy, h.ascent_stop]

lemma eq_finite_of_units {x : Binary64} {n : Nat} (hx : x.isFinite) (hn : x.units = n) (hzero : x ≠ .zero true) :
    ∃ h, x = .finite false n h := by
  cases x with
  | nan => cases hx
  | infinity t => cases hx
  | finite t m hm =>
    cases t with
    | false =>
      obtain rfl : m = n := Int.ofNat.inj hn
      exact ⟨hm, rfl⟩
    | true =>
      obtain rfl : m = 0 := by
        simp only [units, signed, if_true] at hn
        omega
      exact absurd rfl hzero

/-- Behind the start there is no zero. -/
lemma runningSum_pos (h : s.Admitted) {x y : Nat} (hx : s.start.units = x) (hy : s.step.units = y) {k : Nat}
    (hk : 0 < k) : 0 < runningSum x y k := by
  have hleaves : h.ascent.place 0 < h.ascent.place 1 := h.ascent.leaves_start
  have hmono : h.ascent.place 1 ≤ h.ascent.place k := h.ascent.place_mono hk
  rw [place_ascent h hx hy, place_ascent h hx hy] at *
  omega

lemma value_eq_finite (h : s.Admitted) {x y : Nat} (hx : s.start.units = x) (hy : s.step.units = y)
    (hzero : s.start ≠ .zero true) {k : Nat} (hlt : (s.value k).lt s.stop) :
    ∃ hn, s.value k = .finite false (runningSum x y k) hn := by
  have hplace := place_value h k
  have hbelow := (value_lt_stop_iff_runningSum h hx hy k).mp hlt
  have hmax := (representable_units h.isFinite_stop).2
  have hhorizon := maxUnits_lt_horizon
  rw [place_ascent h hx hy, Int.min_eq_left (by omega)] at hplace
  rcases finite_or_infinity_of_place hplace with ⟨hfinite, hunits⟩ | ⟨-, hp⟩ | ⟨-, hp⟩
  · refine eq_finite_of_units hfinite hunits fun hminus => ?_
    rcases Nat.eq_zero_or_pos k with rfl | hk
    · exact hzero hminus
    · have hpos := runningSum_pos h hx hy hk
      have : (Binary64.zero true).units = 0 := rfl
      rw [hminus] at hunits
      omega
  · omega
  · omega

lemma valueText_finite {n : Nat} (hn : Representable n) :
    valueText (.finite false n hn) = tenthsText (roundHalfEven (n * 10) scale) := rfl

/-! ### Numbers in tenths -/

/-- The numbers of the sweep are the nearest ones to so many tenths. -/
structure InTenths (s : Sweep) (a t e : Nat) : Prop where
  admitted : s.Admitted
  step_pos : 0 < t
  start_eq : s.start.units = roundUnits (a * scale) 10
  step_eq : s.step.units = roundUnits (t * scale) 10
  stop_eq : s.stop.units = roundUnits (e * scale) 10

/-- The running sum that the value after so many passes comes to, in units. -/
def tenthsSum (a t k : Nat) : Nat := runningSum (roundUnits (a * scale) 10) (roundUnits (t * scale) 10) k

lemma roundUnits_tenths_mono {m n : Nat} (h : m ≤ n) : roundUnits (m * scale) 10 ≤ roundUnits (n * scale) 10 :=
  roundUnits_mono (by decide) (by decide) (Nat.mul_le_mul_right _ (Nat.mul_le_mul_right _ h))

section InTenths

variable {a t e : Nat}

lemma InTenths.value_lt_stop_iff (h : s.InTenths a t e) (k : Nat) :
    (s.value k).lt s.stop ↔ tenthsSum a t k < roundUnits (e * scale) 10 := by
  rw [value_lt_stop_iff_runningSum h.admitted h.start_eq h.step_eq, h.stop_eq]
  exact Int.ofNat_lt

lemma InTenths.valueText_value (h : s.InTenths a t e) (hzero : s.start ≠ .zero true) {k : Nat}
    (hk : (s.value k).lt s.stop) : valueText (s.value k) = tenthsText (roundHalfEven (tenthsSum a t k * 10) scale) := by
  obtain ⟨hn, hvalue⟩ := value_eq_finite h.admitted h.start_eq h.step_eq hzero hk
  rw [hvalue]
  exact valueText_finite hn

lemma le_tenthsSum (a t k : Nat) : roundUnits (a * scale) 10 ≤ tenthsSum a t k ∧
    (0 < k → roundUnits (t * scale) 10 ≤ tenthsSum a t k) := by
  induction k with
  | zero => exact ⟨Nat.le_refl _, nofun⟩
  | succ k ih =>
    have hself := fun m => roundUnits_self (onGrid_roundUnits (m * scale) 10)
    constructor
    · rw [← hself a]
      exact roundUnits_one_mono (Nat.le_trans ih.1 (Nat.le_add_right _ _))
    · intro
      rw [← hself t]
      exact roundUnits_one_mono (Nat.le_add_left _ _)

/-- A start or a step that is not below the end leads there at once. -/
lemma InTenths.not_lt_stop_of_le (h : s.InTenths a t e) {k : Nat} (hk : e ≤ a ∨ 0 < k ∧ e ≤ t) :
    ¬(s.value k).lt s.stop := by
  obtain ⟨hstart, hstep⟩ := le_tenthsSum a t k
  rw [h.value_lt_stop_iff, Nat.not_lt]
  rcases hk with hle | ⟨hpos, hle⟩
  · exact Nat.le_trans (roundUnits_tenths_mono hle) hstart
  · exact Nat.le_trans (roundUnits_tenths_mono hle) (hstep hpos)

end InTenths

/-! ### Tenths up to two to the thirty-first -/

/-- The magnitude stands for so many tenths: it is nearer to them than to any others. The error allows for the steps
that a loop may make. -/
def NearTenths (w m x : Nat) : Prop :=
  20 * x ≤ 2 * (m * scale) + 2000050 * 2 ^ w ∧ 2 * (m * scale) ≤ 20 * x + 2000050 * 2 ^ w

section Tenths

variable {w a t e : Nat}

lemma nearTenths_tenthsSum (hw : scale = 2097152 * 2 ^ w) {k : Nat} (hroom : a + k * t < 42949672960)
    (hk : k ≤ 100002) :
    NearTenths w (a + k * t) (tenthsSum a t k) := by
  have hσ : ∀ n < 9007199254740992 * 2 ^ w, spacing n ≤ 2 ^ w := fun n => spacing_le_of_lt
  have hpow := Nat.two_pow_pos w
  have hkσ : k * 2 ^ w ≤ 100002 * 2 ^ w := Nat.mul_le_mul_right _ hk
  have hlast : (a + k * t + 1) * scale ≤ 42949672960 * scale := Nat.mul_le_mul_right _ hroom
  rw [Nat.add_mul, Nat.one_mul] at hlast
  have hwithin := within_runningSum (u := scale) (by decide : 0 < 10) hσ a t (k := k) (by
    rw [show 10 * (2 * k * 2 ^ w) = 20 * (k * 2 ^ w) by ring]
    omega)
  obtain ⟨hle, hge⟩ := hwithin
  rw [show 10 * ((2 * k + 1) * 2 ^ w) = 20 * (k * 2 ^ w) + 10 * 2 ^ w by ring] at hle hge
  rw [NearTenths, tenthsSum]
  omega

lemma nearTenths_roundUnits (hw : scale = 2097152 * 2 ^ w) (he : e < 42949672960) :
    NearTenths w e (roundUnits (e * scale) 10) := by
  have hnear := nearTenths_tenthsSum hw (a := e) (t := 0) (k := 0) (by omega) (by decide)
  rwa [Nat.zero_mul, Nat.add_zero] at hnear

/-- Different tenths are told apart. -/
lemma NearTenths.lt (hw : scale = 2097152 * 2 ^ w) {m n x y : Nat} (hx : NearTenths w m x) (hy : NearTenths w n y)
    (h : m < n) : x < y := by
  have hpow := Nat.two_pow_pos w
  have hmul : (m + 1) * scale ≤ n * scale := Nat.mul_le_mul_right _ h
  rw [Nat.add_mul, Nat.one_mul] at hmul
  have := hx.1
  have := hy.2
  omega

lemma NearTenths.roundHalfEven_eq (hw : scale = 2097152 * 2 ^ w) {m x : Nat} (h : NearTenths w m x) :
    roundHalfEven (x * 10) scale = m := by
  have hpow := Nat.two_pow_pos w
  apply roundHalfEven_eq_of_lt
  · rw [Nat.add_mul, Nat.mul_assoc, Nat.one_mul]
    have := h.1
    omega
  · rw [Nat.mul_assoc]
    have := h.2
    omega

/-- The check of the quotient bounds the exact number of steps, too. -/
lemma InTenths.stepsBelow_le (hw : scale = 2097152 * 2 ^ w) (h : s.InTenths a t e) (he : e ≤ 21474836480) :
    stepsBelow a t e ≤ 100001 := by
  by_contra hlong
  have ht := h.step_pos
  have hbelow := (lt_stepsBelow_iff ht).mp (Nat.not_le.mp hlong)
  have hdistance := h.admitted.distance_le
  rw [h.start_eq, h.step_eq, h.stop_eq, maxIterations] at hdistance
  have hpow := Nat.two_pow_pos w
  obtain ⟨hstartLe, -⟩ := nearTenths_roundUnits hw (e := a) (by omega)
  obtain ⟨-, hstopGe⟩ := nearTenths_roundUnits hw (e := e) (by omega)
  -- the error of the step counts as often as there are steps, so it is taken by itself
  have htmax : t * scale ≤ 21474836480 * scale := Nat.mul_le_mul_right _ (by omega)
  have hspacing : spacing (t * scale / 10) ≤ 2 ^ w := spacing_le_of_lt (by omega)
  obtain ⟨hstepLe, -⟩ := two_mul_roundUnits_mul_le (t * scale) (by decide : 0 < 10)
  have hexact : (a + 100001 * t + 1) * scale ≤ e * scale := Nat.mul_le_mul_right _ (by omega)
  have htpos : scale ≤ t * scale := Nat.le_mul_of_pos_left _ ht
  rw [show (a + 100001 * t + 1) * scale = a * scale + 100001 * (t * scale) + scale by ring] at hexact
  omega

/-- Below the end the values stand for the exact sums. -/
lemma InTenths.lt_stop_of_lt (hw : scale = 2097152 * 2 ^ w) (h : s.InTenths a t e) (he : e ≤ 21474836480) {k : Nat}
    (hk : k < stepsBelow a t e) : (s.value k).lt s.stop ∧ roundHalfEven (tenthsSum a t k * 10) scale = a + k * t := by
  have hsteps := h.stepsBelow_le hw he
  have hlt := (lt_stepsBelow_iff h.step_pos).mp hk
  have hnear := nearTenths_tenthsSum hw (a := a) (t := t) (k := k) (by omega) (by omega)
  refine ⟨(h.value_lt_stop_iff k).mpr ?_, hnear.roundHalfEven_eq hw⟩
  exact hnear.lt hw (nearTenths_roundUnits hw (by omega)) (by omega)

/-- A value above the end does not fall short of it. -/
lemma InTenths.not_lt_stop_of_gt (hw : scale = 2097152 * 2 ^ w) (h : s.InTenths a t e) (he : e ≤ 21474836480)
    {k : Nat} (hk : k ≤ 100002) (hlt : e < a + k * t) (hroom : 0 < k → a + k * t ≤ e + t) :
    ¬(s.value k).lt s.stop := by
  by_cases hfar : e ≤ a ∨ 0 < k ∧ e ≤ t
  · exact h.not_lt_stop_of_le hfar
  · obtain ⟨hae, hkt⟩ := not_or.mp hfar
    have hpos : 0 < k := by
      rcases Nat.eq_zero_or_pos k with rfl | hpos
      · rw [Nat.zero_mul] at hlt
        omega
      · exact hpos
    have hsum := hroom hpos
    have hnear := nearTenths_tenthsSum hw (a := a) (t := t) (k := k) (by omega) hk
    have hstop := (nearTenths_roundUnits hw (e := e) (by omega)).lt hw hnear hlt
    rw [h.value_lt_stop_iff]
    omega

lemma InTenths.stepsBelow_room (h : s.InTenths a t e) (hpos : 0 < stepsBelow a t e) :
    a + stepsBelow a t e * t < e + t := by
  obtain ⟨n, hn⟩ := Nat.exists_eq_succ_of_ne_zero hpos.ne'
  have hlt := (lt_stepsBelow_iff h.step_pos).mp (hn ▸ Nat.lt_succ_self n)
  rw [hn, Nat.succ_mul]
  omega

/-- A value behind those that should be there falls short of the end only if it stands for the end. -/
lemma InTenths.eq_of_lt_stop (hw : scale = 2097152 * 2 ^ w) (h : s.InTenths a t e) (he : e ≤ 21474836480)
    (hlt : (s.value (stepsBelow a t e)).lt s.stop) : a + stepsBelow a t e * t = e := by
  have hsteps := h.stepsBelow_le hw he
  have hge := (lt_stepsBelow_iff (a := a) (e := e) h.step_pos).not.mp (Nat.lt_irrefl _)
  by_contra hne
  refine h.not_lt_stop_of_gt hw he (by omega) (by omega) (fun hpos => ?_) hlt
  exact Nat.le_of_lt (h.stepsBelow_room hpos)

/-- The texts are those below the end unless the value that stands for the end falls short of it, which is then passed
as well. -/
lemma InTenths.substitutes_iff_next (hw : scale = 2097152 * 2 ^ w) (h : s.InTenths a t e) (he : e ≤ 21474836480)
    (hzero : s.start ≠ .zero true) :
    (s.Substitutes (textsBelow a t e) ↔ ¬(s.value (stepsBelow a t e)).lt s.stop) ∧
      ((s.value (stepsBelow a t e)).lt s.stop →
        a + stepsBelow a t e * t = e ∧ s.Substitutes (textsBelow a t e ++ [tenthsText e])) := by
  have hbelow : ∀ k < stepsBelow a t e, (s.value k).lt s.stop ∧ valueText (s.value k) = tenthsText (a + k * t) := by
    intro k hk
    obtain ⟨hlt, htenths⟩ := h.lt_stop_of_lt hw he hk
    rw [h.valueText_value hzero hlt, htenths]
    exact ⟨hlt, rfl⟩
  constructor
  · rw [textsBelow, substitutes_map_iff h.admitted]
    exact and_iff_right hbelow
  · intro hlt
    have hend := h.eq_of_lt_stop hw he hlt
    have hsteps := h.stepsBelow_le hw he
    refine ⟨hend, ?_⟩
    have happend : textsBelow a t e ++ [tenthsText e] =
        (List.range (stepsBelow a t e + 1)).map fun k => tenthsText (a + k * t) := by
      rw [List.range_succ, List.map_append, List.map_singleton, hend, textsBelow]
    have hsucc : a + (stepsBelow a t e + 1) * t = e + t := by
      rw [Nat.succ_mul]
      omega
    rw [happend, substitutes_map_iff h.admitted]
    refine ⟨fun k hk => ?_, h.not_lt_stop_of_gt hw he (by omega) ?_ fun _ => Nat.le_of_eq hsucc⟩
    · rcases Nat.lt_succ_iff_lt_or_eq.mp hk with hk | rfl
      · exact hbelow k hk
      · have hnear := nearTenths_tenthsSum hw (a := a) (t := t) (k := stepsBelow a t e) (by omega) (by omega)
        rw [h.valueText_value hzero hlt, hnear.roundHalfEven_eq hw]
        exact ⟨hlt, rfl⟩
    · have ht := h.step_pos
      omega

end Tenths

/-! ### Halves -/

section Halves

variable {w a t e : Nat}

lemma roundUnits_halves (hw : scale = 2 * 2 ^ w) {n : Nat} (hn : n ≤ 9007199254740992) :
    roundUnits (5 * n * scale) 10 = n * 2 ^ w := by
  have hcommon := roundUnits_mul_mul (m := 10) (by decide) (n * 2 ^ w) 1
  have hself := roundUnits_self (onGrid_mul_two_pow hn w)
  have htenths : 5 * n * scale = 10 * (n * 2 ^ w) := by
    rw [hw]
    ring
  rw [Nat.mul_one] at hcommon
  rw [htenths, hcommon, hself]

/-- Sums of halves are exact. -/
lemma tenthsSum_halves (hw : scale = 2 * 2 ^ w) {k : Nat} (h : a + k * t ≤ 9007199254740992) :
    tenthsSum (5 * a) (5 * t) k = (a + k * t) * 2 ^ w := by
  rcases Nat.eq_zero_or_pos k with rfl | hk
  · rw [tenthsSum, runningSum, roundUnits_halves hw (by omega), Nat.zero_mul, Nat.add_zero]
  · have ht : t ≤ k * t := Nat.le_mul_of_pos_left t hk
    rw [tenthsSum, roundUnits_halves hw (by omega), roundUnits_halves hw (by omega), runningSum_mul_two_pow w h]

/-- A sweep over halves substitutes the texts below its end. -/
lemma InTenths.substitutes_halves (hw : scale = 2 * 2 ^ w) (h : s.InTenths (5 * a) (5 * t) (5 * e))
    (he : e ≤ 9007199254740992) (hzero : s.start ≠ .zero true) :
    s.Substitutes (textsBelow (5 * a) (5 * t) (5 * e : Nat)) := by
  have hpow := Nat.two_pow_pos w
  have hsteps : ∀ k, k < stepsBelow (5 * a) (5 * t) (5 * e : Nat) ↔ a + k * t < e := fun k => by
    rw [lt_stepsBelow_iff h.step_pos, Nat.mul_left_comm]
    omega
  have hstop := roundUnits_halves hw he
  rw [textsBelow, substitutes_map_iff h.admitted]
  constructor
  · intro k hk
    have hlt := (hsteps k).mp hk
    have hsum := tenthsSum_halves hw (a := a) (t := t) (k := k) (by omega)
    have hbelow : (s.value k).lt s.stop := by
      rw [h.value_lt_stop_iff, hsum, hstop]
      exact Nat.mul_lt_mul_of_pos_right hlt hpow
    have htenths : (a + k * t) * 2 ^ w * 10 = (5 * a + k * (5 * t)) * scale := by
      rw [hw]
      ring
    rw [h.valueText_value hzero hbelow, hsum, htenths, roundHalfEven_mul_self (by omega)]
    exact ⟨hbelow, rfl⟩
  · generalize hn : stepsBelow (5 * a) (5 * t) (5 * e : Nat) = n at *
    have hge : ¬a + n * t < e := (hsteps n).not.mp (Nat.lt_irrefl n)
    by_cases hfar : 5 * e ≤ 5 * a ∨ 0 < n ∧ 5 * e ≤ 5 * t
    · exact h.not_lt_stop_of_le hfar
    · obtain ⟨hae, hnt⟩ := not_or.mp hfar
      have hpos : 0 < n := by
        rcases Nat.eq_zero_or_pos n with rfl | hpos
        · rw [Nat.zero_mul] at hge
          omega
        · exact hpos
      -- the exact sum may need more bits, but is not below the end where it is cut
      have hcut := min_mul_two_pow_le_runningSum (x := a) (y := t) (k := n) w he
      rw [Nat.min_eq_right (by omega)] at hcut
      rw [h.value_lt_stop_iff, hstop, tenthsSum, roundUnits_halves hw (by omega), roundUnits_halves hw (by omega)]
      omega

end Halves

/-! ### Statements in tenths -/

lemma step_pos_of_units {t : Nat} (h : s.Admitted) (ht : s.step.units = roundUnits (t * scale) 10) : 0 < t := by
  have hpos := h.step_pos
  rcases Nat.eq_zero_or_pos t with rfl | hpos'
  · rw [ht, Nat.zero_mul, roundUnits_zero (by decide)] at hpos
    omega
  · exact hpos'

/-- An end below zero is not reached from a start in tenths. -/
lemma not_lt_stop_of_neg {a : Nat} {e : Int} {stop : List Char} (h : s.Admitted)
    (ha : s.start.units = roundUnits (a * scale) 10) (he : Written 1 e (Text.trim stop))
    (hread : Binary64.read (Text.trim stop) = .ok s.stop) (hneg : e < 0) : ¬(s.value 0).lt s.stop := by
  obtain ⟨negative, hn, hsign, hstop⟩ := exists_finite_of_written he hread h.isFinite_stop
  have hminus : negative = true := by
    by_contra hplus
    rw [Bool.not_eq_true] at hplus
    rw [hplus, signed_false] at hsign
    omega
  have hunits : s.stop.units ≤ 0 := by
    rw [hstop, hminus]
    simp only [units, signed, if_true]
    omega
  rw [Sweep.value_lt_stop_iff h]
  change ¬s.start.units < s.stop.units
  omega

/-- The texts that a sweep puts into the names of events, if its start, step and end are written in whole tenths: those of
the start, of the start and a step, and so on below the end, each once and that of the end not among them, if and only if
the values have these texts and lie below the end, and the next value does not. If none of the numbers is above `2 ^ 31`
and the start is not written as minus zero, it depends on the next value alone, and where this falls short of the end
it stands for the end, the text of which is put in as well. Nothing falls short in a sweep over halves. -/
theorem substitutes_iff {line start step stop : List Char} {s : Sweep} {a t : Nat} {e : Int}
    (h : Statement.read line = .ok (.openLoop (.sweep s)))
    (hline : Text.splitAt ',' line = ["FOR".toList, "(VAR)".toList, start, step, stop])
    (ha : Written 1 a (Text.trim start)) (ht : Written 1 t (Text.trim step)) (he : Written 1 e (Text.trim stop)) :
    (∀ texts, s.Substitutes texts → ∀ (table : EventTable Instant) body, (Loop.sweep s).actions table body =
      ((texts.mapM fun text => body.mapM (passLeaf table text)).map List.flatten).mapError .unresolved) ∧
    (∀ k, k < stepsBelow a t e ↔ a + k * t < e) ∧ (textsBelow a t e).Nodup ∧
    (∀ n : Nat, e = n → tenthsText n ∉ textsBelow a t e) ∧
    (s.Substitutes (textsBelow a t e) ↔
      (∀ k < stepsBelow a t e, (s.value k).lt s.stop ∧ valueText (s.value k) = tenthsText (a + k * t)) ∧
        ¬(s.value (stepsBelow a t e)).lt s.stop) ∧
    (s.start ≠ .zero true → e ≤ 21474836480 →
      (s.Substitutes (textsBelow a t e) ↔ ¬(s.value (stepsBelow a t e)).lt s.stop) ∧
      ((s.value (stepsBelow a t e)).lt s.stop → a + stepsBelow a t e * t = e ∧
        s.Substitutes (textsBelow a t e ++ [tenthsText e.toNat]))) ∧
    (s.start ≠ .zero true → 5 ∣ a → 5 ∣ t → 5 ∣ e → e ≤ 45035996273704960 → s.Substitutes (textsBelow a t e)) := by
  obtain ⟨hadmitted, _, _, _, hfields, hstart, hstep, hstop⟩ := Statement.exists_fields_of_read_sweep h
  rw [hline] at hfields
  cases hfields
  have hstartUnits := units_of_written ha hstart hadmitted.isFinite_start
  have hstepUnits := units_of_written ht hstep hadmitted.isFinite_step
  have hpos := step_pos_of_units hadmitted hstepUnits
  have hsteps : ∀ k, k < stepsBelow a t e ↔ a + k * t < e := fun k => by
    rw [lt_stepsBelow_iff hpos]
    push_cast
    rfl
  refine ⟨fun texts htexts => actions_of_substitutes htexts, hsteps, nodup_textsBelow e hpos, ?_,
    substitutes_map_iff hadmitted _ _, ?_⟩
  · rintro n rfl
    exact tenthsText_not_mem hpos
  rcases Int.lt_or_le e 0 with hneg | hnonneg
  · -- there is no value below the end
    have hnone : stepsBelow a t e = 0 := by
      by_contra hsome
      have := (hsteps 0).mp (Nat.pos_of_ne_zero hsome)
      omega
    have hnot := not_lt_stop_of_neg hadmitted hstartUnits he hstop hneg
    have hsubstitutes : s.Substitutes (textsBelow a t e) := by
      rw [textsBelow, substitutes_map_iff hadmitted, hnone]
      exact ⟨nofun, hnot⟩
    rw [hnone]
    exact ⟨fun _ _ => ⟨iff_of_true hsubstitutes hnot, fun hlt => absurd hlt hnot⟩, fun _ _ _ _ _ => hsubstitutes⟩
  · obtain ⟨e, rfl⟩ := Int.eq_ofNat_of_zero_le hnonneg
    have hstopUnits := units_of_written he hstop hadmitted.isFinite_stop
    have htenths : s.InTenths a t e := ⟨hadmitted, hpos, hstartUnits, hstepUnits, hstopUnits⟩
    constructor
    · intro hzero hle
      obtain ⟨w, hw⟩ := exists_scale_eq (c := 2097152) (k := 21) rfl (by decide)
      obtain ⟨hiff, hend⟩ := htenths.substitutes_iff_next hw (by omega) hzero
      refine ⟨hiff, fun hlt => ?_⟩
      obtain ⟨hsum, hsubstitutes⟩ := hend hlt
      exact ⟨by exact_mod_cast hsum, hsubstitutes⟩
    · rintro hzero ⟨a, rfl⟩ ⟨t, rfl⟩ hfive hle
      obtain ⟨w, hw⟩ := exists_scale_eq (c := 2) (k := 1) rfl (by decide)
      obtain ⟨e, rfl⟩ := Int.natCast_dvd_natCast.mp hfive
      have hle : 5 * e ≤ 5 * 9007199254740992 := Int.ofNat_le.mp hle
      exact htenths.substitutes_halves hw (Nat.le_of_mul_le_mul_left hle (by decide)) hzero

/-- From nothing to three in halves. -/
def halves : Sweep := ⟨.ofInt 0, .ofUnits false scale 2, .ofInt 3⟩

theorem halves_substitute :
    Statement.read "FOR,(VAR),0,0.5,3.0".toList = .ok (.openLoop (.sweep halves)) ∧
      halves.Substitutes ["00.0", "00.5", "01.0", "01.5", "02.0", "02.5"] := by
  have hread : Statement.read "FOR,(VAR),0,0.5,3.0".toList = .ok (.openLoop (.sweep halves)) := by decide +kernel
  have hline : Text.splitAt ',' "FOR,(VAR),0,0.5,3.0".toList =
      ["FOR".toList, "(VAR)".toList, "0".toList, "0.5".toList, "3.0".toList] := by
    decide
  have ha : Written 1 0 (Text.trim "0".toList) :=
    ⟨0, _, ⟨"0".toList, [], Or.inl ⟨rfl, rfl⟩, by decide, by decide, by decide, by decide, by decide⟩,
      Or.inl ⟨rfl, Or.inl rfl⟩⟩
  have ht : Written 1 5 (Text.trim "0.5".toList) :=
    ⟨5, "0.5".toList, ⟨"0".toList, "5".toList, Or.inr rfl, by decide, by decide, by decide, by decide, by decide⟩,
      Or.inl ⟨rfl, Or.inl rfl⟩⟩
  have he : Written 1 30 (Text.trim "3.0".toList) :=
    ⟨30, "3.0".toList, ⟨"3".toList, "0".toList, Or.inr rfl, by decide, by decide, by decide, by decide, by decide⟩,
      Or.inl ⟨rfl, Or.inl rfl⟩⟩
  obtain ⟨-, -, -, -, -, -, hhalves⟩ := substitutes_iff (a := 0) (t := 5) hread hline ha ht he
  exact ⟨hread, hhalves (by decide +kernel) ⟨0, rfl⟩ ⟨1, rfl⟩ ⟨6, rfl⟩ (by decide)⟩

/-- From nothing to one in tenths. -/
def upToOne : Sweep := ⟨.ofInt 0, .ofUnits false scale 10, .ofInt 1⟩

/-- Ten tenths, added up, fall short of one. -/
theorem upToOne_substitutes_stop :
    Statement.read "FOR,(VAR),0,0.1,1".toList = .ok (.openLoop (.sweep upToOne)) ∧
      ¬upToOne.Substitutes (textsBelow 0 1 10) ∧ upToOne.Substitutes (textsBelow 0 1 10 ++ ["01.0"]) := by
  have hvalues : upToOne.values.2 = false ∧ upToOne.values.1.map valueText = textsBelow 0 1 10 ++ ["01.0"] := by
    decide +kernel
  refine ⟨by decide +kernel, ?_, hvalues⟩
  rintro ⟨-, htexts⟩
  rw [hvalues.2] at htexts
  exact absurd htexts (by decide +kernel)

end Sweep

end Totality
