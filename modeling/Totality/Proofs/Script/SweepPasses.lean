import Mathlib.Tactic.Lemma
import Totality.Proofs.Script.Admission
import Totality.Script.Schedule

/-!
# The passes of a sweep

The values of a sweep are rounded one by one, while its statement is checked with one quotient. So a sweep that is
read may stall, or need more passes than a loop is allowed; it never needs more than about twice as many.
-/

namespace Totality

open Binary64

namespace Sweep

/-- The value of a sweep after so many passes, as if there were no end. -/
def value (s : Sweep) : Nat → Binary64
  | 0 => s.start
  | k + 1 => s.value k + s.step

/-- The number of values that are collected. -/
def passes (s : Sweep) : Nat := s.values.1.length

/-! ### The values and their places -/

variable {s : Sweep}

/-- The values have the places of the ascent, until they overflow. -/
lemma place_value (h : s.Admitted) (k : Nat) : (s.value k).place = some (min (h.ascent.place k) horizon) := by
  have hmax := (representable_units h.isFinite_start).2
  have hlt := maxUnits_lt_horizon
  induction k with
  | zero =>
    rw [value, place_eq_units h.isFinite_start, Ascent.place, h.ascent_start, Int.min_eq_left (by omega)]
  | succ k ih =>
    have hstart : s.start.units ≤ h.ascent.place k := h.ascent.start_le_place k
    have hnext : h.ascent.place k ≤ h.ascent.place (k + 1) := h.ascent.place_le_succ k
    have hplace : h.ascent.place (k + 1) = roundInt (h.ascent.place k + s.step.units) := by
      rw [Ascent.place, h.ascent_step]
    generalize h.ascent.place (k + 1) = q at *
    generalize h.ascent.place k = p at *
    rw [value]
    generalize s.value k = x at *
    rcases finite_or_infinity_of_place ih with ⟨hx, hunits⟩ | ⟨rfl, hp⟩ | ⟨-, hp⟩
    · have hxmax := (representable_units hx).2
      rw [place_add hx h.isFinite_step, show x.units = p by omega, clampPlace, clampInt, ← hplace,
        Option.some.injEq]
      omega
    · -- the infinity above is never left
      rw [infinity_add h.isFinite_step, place_infinity, signed_false, Option.some.injEq]
      omega
    · -- the infinity below is never reached
      omega

lemma value_lt_stop_iff (h : s.Admitted) (k : Nat) :
    (s.value k).lt s.stop ↔ h.ascent.place k < h.ascent.stop := by
  have hmax := (representable_units h.isFinite_stop).2
  have := maxUnits_lt_horizon
  rw [lt, place_value h, place_eq_units h.isFinite_stop, h.ascent_stop]
  simp only [decide_eq_true_iff]
  omega

lemma value_lt_succ_iff (h : s.Admitted) {k : Nat} (hk : h.ascent.place k < h.ascent.stop) :
    (s.value k).lt (s.value (k + 1)) ↔ h.ascent.place k < h.ascent.place (k + 1) := by
  have hmax := (representable_units h.isFinite_stop).2
  have := maxUnits_lt_horizon
  rw [h.ascent_stop] at hk
  rw [lt, place_value h, place_value h]
  simp only [decide_eq_true_iff]
  omega

/-- A value below the end that is not followed by a greater one belongs to a place of rest. -/
lemma restsAt_place (h : s.Admitted) {k : Nat} (hk : (s.value k).lt s.stop)
    (hrest : ¬(s.value k).lt (s.value (k + 1))) : h.ascent.RestsAt (h.ascent.place k) := by
  have hbelow := (value_lt_stop_iff h k).mp hk
  exact h.ascent.restsAt_place hbelow fun hlt => hrest ((value_lt_succ_iff h hbelow).mpr hlt)

/-! ### What is collected -/

/-- The value after `k` passes lies below the end and is followed by a greater one. -/
def GoesOn (s : Sweep) (k : Nat) : Prop := (s.value k).lt s.stop ∧ (s.value k).lt (s.value (k + 1))

/-- The values that go on are collected, and one more if it lies below the end all the same. -/
lemma collect_eq {n fuel k : Nat} (hon : ∀ j < n, s.GoesOn (k + j)) (hoff : ¬s.GoesOn (k + n))
    (hfuel : n < fuel ∨ n = fuel ∧ ¬(s.value (k + n)).lt s.stop) (acc : List Binary64) :
    s.collect fuel (s.value k) acc =
      if (s.value (k + n)).lt s.stop then (acc.reverse ++ (List.range' k (n + 1)).map s.value, true)
      else (acc.reverse ++ (List.range' k n).map s.value, false) := by
  induction n generalizing fuel k acc with
  | zero =>
    rw [Nat.add_zero] at *
    cases fuel with
    | zero => simp_all [collect]
    | succ fuel =>
      rw [collect]
      split_ifs with hstop
      · have hnext : ¬(s.value k).lt (s.value k + s.step) := fun hnext => hoff ⟨hstop, hnext⟩
        simp [hnext]
      · simp
  | succ n ih =>
    obtain ⟨hstop, hnext⟩ := hon 0 (Nat.succ_pos n)
    obtain ⟨fuel, rfl⟩ := Nat.exists_eq_succ_of_ne_zero (n := fuel) (by omega)
    have hshift : ∀ j, k + 1 + j = k + (j + 1) := by omega
    rw [Nat.add_zero] at hstop hnext
    have hfuel : n < fuel ∨ n = fuel ∧ ¬(s.value (k + 1 + n)).lt s.stop := by
      rw [hshift]
      exact hfuel.imp Nat.lt_of_succ_lt_succ (And.imp_left Nat.succ.inj)
    have htail := ih (fun j hj => by rw [hshift]; exact hon _ (by omega)) (by rwa [hshift]) hfuel
      (s.value k :: acc)
    rw [collect, if_pos hstop]
    change (if (s.value k).lt (s.value (k + 1)) then s.collect fuel (s.value (k + 1)) (s.value k :: acc) else _) = _
    rw [if_pos hnext, htail, hshift]
    simp [List.range'_succ]

/-- While the values go on, each place lies above the one before. -/
lemma add_le_place (h : s.Admitted) {n : Nat} (hon : ∀ j < n, s.GoesOn j) : s.start.units + n ≤ h.ascent.place n := by
  apply h.ascent.add_le_place
  intro j hj
  obtain ⟨hstop, hnext⟩ := hon j hj
  exact (value_lt_succ_iff h ((value_lt_stop_iff h j).mp hstop)).mp hnext

/-- The values go on for some passes only. -/
lemma exists_first (h : s.Admitted) : ∃ n, (∀ j < n, s.GoesOn j) ∧ ¬s.GoesOn n := by
  by_contra hnone
  have hall : ∀ n, ∀ j < n, s.GoesOn j := by
    intro n
    induction n with
    | zero => exact nofun
    | succ n ih =>
      intro j hj
      rcases Nat.lt_succ_iff_lt_or_eq.mp hj with hj | rfl
      · exact ih j hj
      · by_contra hoff
        exact hnone ⟨j, ih, hoff⟩
  obtain ⟨hstop, -⟩ := hall _ _ (Nat.lt_succ_self (s.stop.units - s.start.units).toNat)
  have hbelow := (value_lt_stop_iff h _).mp hstop
  have := add_le_place h (hall (s.stop.units - s.start.units).toNat)
  rw [h.ascent_stop] at hbelow
  omega

lemma distance_eq (h : s.Admitted) : s.distance = (s.stop.units - s.start.units).toNat := by
  rw [distance, place_eq_units h.isFinite_start, place_eq_units h.isFinite_stop]
  rfl

/-- The fuel of the collection, the distance in units, is enough. -/
lemma le_distance (h : s.Admitted) {n : Nat} (hon : ∀ j < n, s.GoesOn j) :
    n < s.distance ∨ n = s.distance ∧ ¬(s.value n).lt s.stop := by
  have hplace := add_le_place h hon
  rw [distance_eq h, value_lt_stop_iff h, h.ascent_stop]
  by_cases hstop : h.ascent.place n < s.stop.units
  · exact Or.inl (by omega)
  · cases n with
    | zero => omega
    | succ n =>
      have hprev := add_le_place h fun j hj => hon j (Nat.lt_succ_of_lt hj)
      have hlast := (value_lt_stop_iff h n).mp (hon n (Nat.lt_succ_self n)).1
      rw [h.ascent_stop] at hlast
      omega

lemma values_eq (h : s.Admitted) : ∃ n, (∀ j < n, s.GoesOn j) ∧ ¬s.GoesOn n ∧
    s.values = if (s.value n).lt s.stop then ((List.range (n + 1)).map s.value, true)
      else ((List.range n).map s.value, false) := by
  obtain ⟨n, hon, hoff⟩ := exists_first h
  have hcollect := collect_eq (k := 0) (n := n) (by simpa using hon) (by simpa using hoff)
    (by simpa using le_distance h hon) []
  refine ⟨n, hon, hoff, ?_⟩
  rw [values]
  simpa [List.range_eq_range', value] using hcollect

/-! ### When a sweep comes to an end -/

/-- The sweep stays below its end for ever: its step is half the spacing at an end above zero, or at a start below
zero from which the first step does not lead to the last number with this spacing. -/
def Stalls (s : Sweep) : Prop :=
  s.start.units < s.stop.units ∧
    (0 < s.stop.units ∧ (spacing s.stop.units.natAbs : Int) = 2 * s.step.units ∨
      s.start.units < 0 ∧ (spacing s.start.units.natAbs : Int) = 2 * s.step.units ∧
        9007199254740994 * s.step.units < s.start.units.natAbs)

instance (s : Sweep) : Decidable s.Stalls := inferInstanceAs (Decidable (_ ∧ _))

lemma stalls_iff (h : s.Admitted) : s.Stalls ↔ h.ascent.Stalls := by
  have hstep := h.ascent_step
  rw [Stalls, Ascent.Stalls, h.ascent_start, h.ascent_stop]
  omega

lemma forall_value_lt_stop_iff (h : s.Admitted) : (∀ k, (s.value k).lt s.stop) ↔ s.Stalls := by
  rw [stalls_iff h, ← h.ascent.forall_place_lt_stop_iff]
  exact forall_congr' fun k => value_lt_stop_iff h k

/-- By a step of half the spacing, a tie, only an odd multiple of the spacing moves. -/
example : Stalls ⟨.ofInt 9007199254740994, .ofInt 1, .ofInt 9007199254740998⟩ := by decide +kernel

/-- Later values do not fall below the end again. -/
lemma value_lt_stop_of_le (h : s.Admitted) {j k : Nat} (hjk : j ≤ k) (hk : (s.value k).lt s.stop) :
    (s.value j).lt s.stop := by
  rw [value_lt_stop_iff h] at *
  exact Int.lt_of_le_of_lt (h.ascent.place_mono hjk) hk

/-- A sweep that does not stall collects the values below its end. -/
lemma values_of_not_stalls (h : s.Admitted) (hstalls : ¬s.Stalls) :
    s.values.2 = false ∧ (∀ j < s.passes, (s.value j).lt s.stop) ∧ ¬(s.value s.passes).lt s.stop := by
  obtain ⟨n, hon, hoff, hvalues⟩ := values_eq h
  have hstop : ¬(s.value n).lt s.stop := by
    intro hstop
    have hrest := restsAt_place h hstop fun hnext => hoff ⟨hstop, hnext⟩
    exact hstalls ((stalls_iff h).mpr (h.ascent.stalls_of_restsAt hrest))
  rw [if_neg hstop] at hvalues
  have hpasses : s.passes = n := by rw [passes, hvalues, List.length_map, List.length_range]
  rw [hpasses, hvalues]
  exact ⟨rfl, fun j hj => (hon j hj).1, hstop⟩

lemma values_of_stalls (h : s.Admitted) (hstalls : s.Stalls) : s.values.2 = true := by
  obtain ⟨n, -, -, hvalues⟩ := values_eq h
  rw [hvalues, if_pos ((forall_value_lt_stop_iff h).mpr hstalls n)]

lemma values_fst (h : s.Admitted) : s.values.1 = (List.range s.passes).map s.value := by
  obtain ⟨n, -, -, hvalues⟩ := values_eq h
  rw [passes, hvalues]
  split_ifs <;> simp

lemma passes_le (h : s.Admitted) (hstalls : ¬s.Stalls) : s.passes ≤ 2 * maxIterations + 1 := by
  obtain ⟨-, hbelow, -⟩ := values_of_not_stalls h hstalls
  apply h.ascent.steps_le fun hs => hstalls ((stalls_iff h).mpr hs)
  exact fun j hj => (value_lt_stop_iff h j).mp (hbelow j hj)

/-- The numbers of the sweep are multiples of a power of two, as whole numbers are, and need no more than 53 bits as
such. -/
def Exact (s : Sweep) : Prop :=
  ∃ j : Nat, ((2 ^ j : Nat) : Int) ∣ s.start.units ∧ ((2 ^ j : Nat) : Int) ∣ s.step.units ∧
    ((2 ^ j : Nat) : Int) ∣ s.stop.units ∧ -(9007199254740992 * 2 ^ j : Nat) ≤ s.start.units ∧
    s.stop.units ≤ (9007199254740992 * 2 ^ j : Nat) ∧
    s.stop.units - s.start.units ≤ (9007199254740992 * 2 ^ j : Nat)

/-- Where nothing is rounded on the way, the quotient says how many passes there are. -/
lemma not_value_lt_stop_of_exact (h : s.Admitted) (hexact : s.Exact) : ¬(s.value maxIterations).lt s.stop := by
  obtain ⟨j, hstart, hstep, hstop, hlo, hhi, hdistance⟩ := hexact
  have hquotient := h.quotient_le
  have hpos := h.step_pos
  have hplace := h.ascent.min_le_place hstart
    (Int.natCast_dvd_natCast.mp (h.ascent_step ▸ hstep)) hlo hhi maxIterations
  rw [h.ascent_start, h.ascent_stop, h.ascent_step] at hplace
  rw [value_lt_stop_iff h, h.ascent_stop]
  have hreach : s.stop.units ≤ s.start.units + maxIterations * s.step.units := by
    by_contra hshort
    have hdvd : ((2 ^ j : Nat) : Int) ∣ s.stop.units - s.start.units := Int.dvd_sub hstop hstart
    have hgrid : OnGrid (s.stop.units - s.start.units).natAbs := by
      apply onGrid_of_dvd (Int.natCast_dvd.mp hdvd)
      rw [maxIterations] at hshort
      omega
    -- what is missing is a multiple of the power of two
    have hmissing : ((2 ^ j : Nat) : Int) ≤ s.stop.units - s.start.units - maxIterations * s.step.units := by
      apply Int.le_of_dvd (by omega)
      exact Int.dvd_sub hdvd (Int.dvd_mul_of_dvd_right hstep)
    rw [roundInt_self hgrid] at hquotient
    rw [maxIterations] at *
    omega
  omega

/-- Every pass makes one action for each leaf. -/
lemma length_flatten_of_mapM_pass {table : EventTable Instant} {body : List Leaf} {vs : List Binary64}
    {passes : List (List (Action Instant))} (h : vs.mapM (pass table body) = .ok passes) :
    passes.flatten.length = vs.length * body.length := by
  induction vs generalizing passes with
  | nil =>
    cases h
    rw [List.length_nil, Nat.zero_mul]
    rfl
  | cons v vs ih =>
    simp only [List.mapM_cons, bind_eq_ok] at h
    obtain ⟨p, hp, rest, hrest, h⟩ := h
    cases h
    rw [List.flatten_cons, List.length_append, ih hrest, mapM_eq_ok_length hp, List.length_cons, Nat.succ_mul,
      Nat.add_comm]

lemma length_actions {s : Sweep} {table : EventTable Instant} {body : List Leaf} {as : List (Action Instant)}
    (h : (Loop.sweep s).actions table body = .ok as) : as.length = s.passes * body.length := by
  simp only [Loop.actions] at h
  split at h
  · cases h
  · next hpasses =>
    split_ifs at h
    cases h
    exact length_flatten_of_mapM_pass hpasses

/-- A sweep without leaves has nothing that could be refused. -/
lemma mapM_pass_nil (table : EventTable Instant) (vs : List Binary64) :
    ∃ passes, vs.mapM (pass table []) = .ok passes :=
  exists_mapM_eq_ok_iff.mpr fun _ _ => ⟨[], rfl⟩

/-- Only a sweep with a value that does not advance is refused as endless. -/
lemma actions_ne_endless_iff (s : Sweep) :
    (∀ (table : EventTable Instant) body, (Loop.sweep s).actions table body ≠ .error (.endless s)) ↔
      s.values.2 = false := by
  constructor
  · intro h
    by_contra hflag
    rw [Bool.not_eq_false] at hflag
    obtain ⟨passes, hpasses⟩ := mapM_pass_nil default s.values.1
    apply h default []
    simp only [Loop.actions, hpasses, hflag]
    rfl
  · intro hflag table body
    simp only [Loop.actions, hflag]
    split
    · nofun
    · nofun

/-- The values of a sweep that is read reach its end within the passes that a loop is allowed, so that it comes to
an end with any table and leaves and repeats these no more often, if and only if the value after that many passes is
not below the end. This is so where no value is rounded. Otherwise the sweep comes to an end if and only if it does not
stall, and then after about twice as many passes at the latest. -/
theorem ends_in_time_iff {line : List Char} {s : Sweep} (h : Statement.read line = .ok (.openLoop (.sweep s))) :
    ((∀ (table : EventTable Instant) body, (Loop.sweep s).actions table body ≠ .error (.endless s)) ∧
        s.passes ≤ maxIterations ↔
      ¬(s.value maxIterations).lt s.stop) ∧
    (s.Exact → ¬(s.value maxIterations).lt s.stop) ∧
    ((∀ (table : EventTable Instant) body, (Loop.sweep s).actions table body ≠ .error (.endless s)) ↔ ¬s.Stalls) ∧
    (¬s.Stalls → (∀ k < s.passes, (s.value k).lt s.stop) ∧ ¬(s.value s.passes).lt s.stop ∧
      s.passes ≤ 2 * maxIterations + 1) ∧
    s.values.1 = (List.range s.passes).map s.value ∧
    ∀ (table : EventTable Instant) body as, (Loop.sweep s).actions table body = .ok as →
      as.length = s.passes * body.length := by
  have h := admitted_of_read h
  have hends : s.values.2 = false ↔ ¬s.Stalls := by
    refine ⟨fun hflag hstalls => ?_, fun hstalls => (values_of_not_stalls h hstalls).1⟩
    rw [values_of_stalls h hstalls] at hflag
    cases hflag
  rw [actions_ne_endless_iff, hends]
  refine ⟨⟨?_, ?_⟩, not_value_lt_stop_of_exact h, Iff.rfl, ?_, values_fst h, fun _ _ _ => length_actions⟩
  · rintro ⟨hstalls, hpasses⟩ hlt
    exact (values_of_not_stalls h hstalls).2.2 (value_lt_stop_of_le h hpasses hlt)
  · intro hend
    have hstalls : ¬s.Stalls := fun hstalls => hend ((forall_value_lt_stop_iff h).mpr hstalls _)
    refine ⟨hstalls, ?_⟩
    by_contra hpasses
    exact hend ((values_of_not_stalls h hstalls).2.1 _ (Nat.lt_of_not_le hpasses))
  · intro hstalls
    exact ⟨(values_of_not_stalls h hstalls).2.1, (values_of_not_stalls h hstalls).2.2, passes_le h hstalls⟩

/-- From minus one to one by tenths. -/
def tenths : Sweep := ⟨.ofInt (-1), .ofUnits false scale 10, .ofInt 1⟩

lemma read_tenths : Statement.read "FOR,(VAR),-1,0.1,1".toList = .ok (.openLoop (.sweep tenths)) := by
  decide +kernel

theorem tenths_end_in_time :
    Statement.read "FOR,(VAR),-1,0.1,1".toList = .ok (.openLoop (.sweep tenths)) ∧ tenths.passes = 21 ∧
      ¬(tenths.value maxIterations).lt tenths.stop := by
  have hpasses : tenths.passes = 21 := by decide +kernel
  have hends := ends_in_time_iff read_tenths
  exact ⟨read_tenths, hpasses, hends.1.mp ⟨hends.2.2.1.mpr (by decide +kernel), by rw [hpasses]; decide⟩⟩

/-- Steps of one and a quarter, from a number of which the spacing is one. -/
def crawl : Sweep := ⟨.ofInt 4503599627370496, .ofUnits false (5 * scale) 4, .ofInt 4503599627495496⟩

lemma read_crawl : Statement.read "FOR,(VAR),4503599627370496,1.25,4503599627495496".toList =
    .ok (.openLoop (.sweep crawl)) := by
  decide +kernel

/-- A step of five quarters of the spacing is rounded to the spacing. -/
lemma roundInt_add_five {k : Nat} (hk : k ≤ 125000) (j : Nat) :
    roundInt (((18014398509481984 + 4 * k) * 2 ^ j : Nat) + (5 * 2 ^ j : Nat)) =
      ((18014398509481984 + 4 * (k + 1)) * 2 ^ j : Nat) := by
  have hpow : 2 ^ (j + 2) = 4 * 2 ^ j := by rw [Nat.pow_add, Nat.mul_comm]
  have hnext : (18014398509481984 + 4 * (k + 1)) * 2 ^ j = (4503599627370496 + (k + 1)) * 2 ^ (j + 2) := by
    rw [hpow]
    ring
  have hsum : (18014398509481984 + 4 * k) * 2 ^ j + 5 * 2 ^ j =
      (4503599627370496 + (k + 1)) * 2 ^ (j + 2) + 2 ^ j := by
    rw [hpow]
    ring
  have hpos := Nat.two_pow_pos j
  have hlarge := Nat.mul_le_mul_right (2 ^ (j + 2)) (by omega : 4503599627370497 ≤ 4503599627370496 + (k + 1))
  have hgrid := onGrid_mul_two_pow (k := 4503599627370496 + (k + 1)) (by omega) (j + 2)
  have hspacing : spacing ((4503599627370496 + (k + 1)) * 2 ^ (j + 2)) = 2 ^ (j + 2) :=
    spacing_unique (Nat.mul_le_mul_right _ (by omega))
      (Nat.mul_lt_mul_of_pos_right (by omega) (Nat.two_pow_pos _))
  rw [← Int.natCast_add, roundInt_natCast, hsum, hnext]
  generalize (4503599627370496 + (k + 1)) * 2 ^ (j + 2) = n at *
  have hgap : gapBelow n = 2 ^ (j + 2) := hspacing ▸ gapBelow_eq_spacing (by omega)
  have hle : roundUnits (n + 2 ^ j) 1 ≤ n := by
    rw [roundUnits_le_iff Nat.one_pos hgrid, hspacing]
    omega
  have hge : ¬roundUnits (n + 2 ^ j) 1 < n := by
    rw [roundUnits_lt_iff Nat.one_pos hgrid (by omega)]
    omega
  rw [Nat.le_antisymm hle (Nat.not_lt.mp hge)]

/-- The places of a sweep that crawls. -/
lemma place_eq_of_crawls {a : Ascent} {j : Nat} (hstart : a.start = (18014398509481984 * 2 ^ j : Nat))
    (hstep : a.step = 5 * 2 ^ j) {k : Nat} (hk : k ≤ 125000) :
    a.place k = ((18014398509481984 + 4 * k) * 2 ^ j : Nat) := by
  induction k with
  | zero => exact hstart
  | succ k ih => rw [Ascent.place, ih (by omega), hstep, roundInt_add_five (by omega) j]

lemma exists_units_crawl : ∃ j : Nat, crawl.start.units = (18014398509481984 * 2 ^ j : Nat) ∧
    crawl.step.units = (5 * 2 ^ j : Nat) ∧ crawl.stop.units = (18014398509981984 * 2 ^ j : Nat) :=
  ⟨1072, by decide +kernel⟩

/-- A sweep that is read and needs more passes than a loop is allowed. -/
theorem crawl_exceeds_maxIterations :
    Statement.read "FOR,(VAR),4503599627370496,1.25,4503599627495496".toList = .ok (.openLoop (.sweep crawl)) ∧
      (crawl.value maxIterations).lt crawl.stop ∧ maxIterations < crawl.passes := by
  have h := admitted_of_read read_crawl
  obtain ⟨j, hstart, hstep, hstop⟩ := exists_units_crawl
  have hbelow : (crawl.value maxIterations).lt crawl.stop := by
    have hplace : h.ascent.place maxIterations = ((18014398509481984 + 4 * 100000) * 2 ^ j : Nat) :=
      place_eq_of_crawls (h.ascent_start.trans hstart) (Int.ofNat.inj (h.ascent_step.trans hstep)) (by decide)
    rw [value_lt_stop_iff h, hplace, h.ascent_stop, hstop]
    exact_mod_cast Nat.mul_lt_mul_of_pos_right (by decide) (Nat.two_pow_pos j)
  refine ⟨read_crawl, hbelow, ?_⟩
  by_contra hpasses
  exact (values_of_not_stalls h (by decide +kernel)).2.2 (value_lt_stop_of_le h (Nat.not_lt.mp hpasses) hbelow)

end Sweep

end Totality
