import Totality.Proofs.Number.Order
import Totality.Proofs.Number.Places
import Totality.Proofs.Number.RunningSum
import Totality.Proofs.Script.Expansion

/-!
# The passes of a cadence

The offset of a repetition is a running sum of seconds, of which the whole hundredths count. The sum strays from its
exact value unless the delay is a binary fraction, and where it falls just short of a whole hundredth, one is lost.
-/

namespace Totality

open Binary64

/-! ### Directions -/

/-- So much time in a direction. -/
def Direction.along (d : Direction) (n : Nat) : Int := signed (decide (d = .backward)) n

lemma Direction.along_injective (d : Direction) : Function.Injective d.along := by
  intro m n h
  have habs := congrArg Int.natAbs h
  rwa [along, along, natAbs_signed, natAbs_signed] at habs

/-- The sign of a direction turns a delay into it, exactly. -/
lemma Direction.units_sign_mul (d : Direction) {x : Binary64} {n : Nat} (hx : x.isFinite) (hn : x.units = n) :
    (d.sign * x).isFinite ∧ (d.sign * x).units = d.along n := by
  have hone : ∃ h, d.sign = .finite (decide (d = .backward)) scale h := by
    rw [← Nat.one_mul scale]
    cases d with
    | forward => exact exists_ofInt_eq_finite (z := 1) rfl (by decide)
    | backward => exact exists_ofInt_eq_finite (z := -1) rfl (by decide)
  obtain ⟨h, hsign⟩ := hone
  cases x with
  | nan => cases hx
  | infinity t => cases hx
  | finite t m hm =>
    have hround : roundUnits (scale * m) scale = m := by
      rw [Nat.mul_comm]
      exact roundUnits_mul_self scale_pos hm.onGrid
    have hmul : d.sign * .finite t m hm = .finite (decide (d = .backward) != t) m hm := by
      rw [hsign]
      exact ofUnits_of_representable hm hround _
    rw [hmul]
    refine ⟨rfl, ?_⟩
    cases t <;> cases d <;> simp only [units, along, signed] at hn ⊢ <;> simp at hn ⊢ <;> omega

namespace Cadence

/-! ### What is counted -/

/-- The running sum of delays of `k` hundredths of a second, in units. -/
def elapsed (k i : Nat) : Nat := runningSum 0 (roundUnits (k * scale) 100) i

/-- The whole hundredths of a second in a running sum of delays. -/
def counted (k i : Nat) : Nat := roundUnits (elapsed k i * 100) 1 / scale

lemma onGrid_elapsed (k i : Nat) : OnGrid (elapsed k i) := onGrid_runningSum (Nat.dvd_zero _) _ i

/-- The hundredths are cut from an offset toward zero. -/
lemma nanos_of_wholeCentiseconds {x : Binary64} {negative : Bool} {m : Nat} {d : Duration}
    (hx : x.place = some (signed negative (min m horizon))) (h : wholeCentiseconds x = some d) :
    d.nanos = signed negative (roundUnits (m * 100) 1 / scale * 10000000) ∧
      roundUnits (m * 100) 1 / scale ≤ 922337203685477 := by
  have hundred : ∃ h, ofInt 100 = .finite false (100 * scale) h := exists_ofInt_eq_finite rfl (by decide)
  obtain ⟨hh, hundred⟩ := hundred
  have hscale := scale_pos
  rw [wholeCentiseconds, hundred] at h
  split_ifs at h with hrange
  cases h
  rw [Duration.nanos_ofMicros]
  cases x with
  | nan => cases hx
  | infinity s =>
    -- an infinite offset does not fit a word
    rw [infinity_mul_finite s false hh (by omega), truncateTo] at hrange
    cases s <;> simp [wordMin, wordMax] at hrange
  | finite s n hn =>
    have hm : n = m := by
      have hmax := Nat.lt_of_le_of_lt hn.2 maxUnits_lt_horizon
      have habs := congrArg Int.natAbs (Option.some.inj hx)
      rw [natAbs_signed, natAbs_signed] at habs
      omega
    subst hm
    have hround : roundUnits (n * (100 * scale)) scale = roundUnits (n * 100) 1 := by
      have hcommon := roundUnits_mul_mul hscale (n * 100) 1
      rwa [Nat.mul_one, Nat.mul_comm, Nat.mul_assoc] at hcommon
    have hsign : ∀ c, (n = 0 → c = 0) → signed s c = signed negative c := by
      intro c hc
      have hplace := Option.some.inj hx
      cases s <;> cases negative <;> simp only [signed, if_true, if_false, Bool.false_eq_true] at hplace ⊢ <;> omega
    rw [finite_mul_finite, Bool.bne_false] at hrange ⊢
    by_cases hR : Representable (roundUnits (n * 100) 1)
    · rw [ofUnits_of_representable hR hround, truncateTo, clampInt] at hrange ⊢
      have hzero : n = 0 → roundUnits (n * 100) 1 / scale = 0 := by
        rintro rfl
        rw [Nat.zero_mul, roundUnits_zero Nat.one_pos, Nat.zero_div]
      rw [hsign _ hzero] at hrange ⊢
      generalize roundUnits (n * 100) 1 / scale = c at *
      cases negative <;> simp only [signed, wordMin, wordMax] at hrange ⊢ <;> simp at hrange ⊢ <;> omega
    · rw [ofUnits_of_not_representable (by rwa [hround]), truncateTo] at hrange
      cases s <;> simp [wordMin, wordMax] at hrange

/-- The offsets of a cadence are its running sums, until these overflow. -/
lemma place_offset {c : Cadence} {k : Nat} (hfinite : c.delay.isFinite)
    (hdelay : c.delay.units = roundUnits (k * scale) 100) (i : Nat) :
    (c.offset i).place = some (c.direction.along (min (elapsed k i) horizon)) := by
  obtain ⟨hstep, hunits⟩ := c.direction.units_sign_mul hfinite hdelay
  induction i with
  | zero =>
    have hzero : min (elapsed k 0) horizon = 0 := Nat.zero_min _
    rw [hzero, offset, place_zero]
    cases c.direction <;> rfl
  | succ i ih => exact place_add_signed (onGrid_elapsed k i) ih hstep hunits

/-- A repetition is shifted by what is counted. -/
lemma nanos_of_shift {c : Cadence} {k : Nat} (hfinite : c.delay.isFinite)
    (hdelay : c.delay.units = roundUnits (k * scale) 100) {i : Nat} {d : Duration} (h : c.shift i = some d) :
    d.nanos = c.direction.along (counted k i * 10000000) ∧ counted k i ≤ 922337203685477 :=
  nanos_of_wholeCentiseconds (place_offset hfinite hdelay i) h

/-! ### Sums that do not stray -/

section Quarters

variable {w : Nat}

lemma roundUnits_quarters (hw : scale = 4 * 2 ^ w) (n : Nat) :
    roundUnits (25 * n * scale) 100 = roundUnits (n * 2 ^ w) 1 := by
  have hcommon := roundUnits_mul_mul (m := 100) (by decide) (n * 2 ^ w) 1
  have hhundred : 25 * n * scale = 100 * (n * 2 ^ w) := by
    rw [hw]
    ring
  rw [Nat.mul_one] at hcommon
  rw [hhundred]
  exact hcommon

lemma hundredths_quarters (hw : scale = 4 * 2 ^ w) {n : Nat} (hn : n ≤ 281474976710656) :
    roundUnits (n * 2 ^ w * 100) 1 / scale = 25 * n := by
  have hself := roundUnits_self (onGrid_mul_scale (k := 25 * n) (by omega))
  have hhundred : n * 2 ^ w * 100 = 25 * n * scale := by
    rw [hw]
    ring
  rw [hhundred, hself, Nat.mul_div_cancel _ scale_pos]

/-- A sum of quarters that is too long for a word is too long even if it is cut. -/
lemma counted_quarters_of_le (hw : scale = 4 * 2 ^ w) {i j : Nat} (hi : 0 < i) (hlong : 281474976710656 ≤ i * j) :
    25 * 281474976710656 ≤ counted (25 * j) i := by
  have hcut : 281474976710656 ≤ i * min j 281474976710656 := by
    rcases Nat.le_total j 281474976710656 with hj | hj
    · rwa [Nat.min_eq_left hj]
    · rw [Nat.min_eq_right hj]
      exact Nat.le_mul_of_pos_left _ hi
  have hstep : min j 281474976710656 * 2 ^ w ≤ roundUnits (25 * j * scale) 100 := by
    have hgrid := onGrid_mul_two_pow (k := min j 281474976710656) (by omega) w
    rw [roundUnits_quarters hw, ← roundUnits_self hgrid]
    exact roundUnits_one_mono (Nat.mul_le_mul_right _ (Nat.min_le_left _ _))
  have hle : 281474976710656 * 2 ^ w ≤ elapsed (25 * j) i := by
    calc 281474976710656 * 2 ^ w = min (0 + i * min j 281474976710656) 281474976710656 * 2 ^ w := by
          rw [Nat.zero_add, Nat.min_eq_right hcut]
      _ ≤ runningSum (0 * 2 ^ w) (min j 281474976710656 * 2 ^ w) i := min_mul_two_pow_le_runningSum w (by decide)
      _ ≤ elapsed (25 * j) i := by
        rw [Nat.zero_mul]
        exact runningSum_mono hstep i
  rw [← hundredths_quarters hw (Nat.le_refl _)]
  exact Nat.div_le_div_right (roundUnits_one_mono (Nat.mul_le_mul_right _ hle))

lemma elapsed_quarters (hw : scale = 4 * 2 ^ w) {i j : Nat} (hi : 0 < i) (hshort : i * j < 281474976710656) :
    elapsed (25 * j) i = i * j * 2 ^ w := by
  have hj : j ≤ i * j := Nat.le_mul_of_pos_left j hi
  have hstep : roundUnits (25 * j * scale) 100 = j * 2 ^ w := by
    have hself := roundUnits_self (onGrid_mul_two_pow (k := j) (by omega) w)
    rwa [← roundUnits_quarters hw] at hself
  have hexact := runningSum_mul_two_pow (x := 0) (y := j) (k := i) w (by omega)
  rwa [Nat.zero_mul, Nat.zero_add, ← hstep] at hexact

end Quarters

lemma counted_zero (k : Nat) : counted k 0 = 0 := by
  rw [counted, elapsed, runningSum, Nat.zero_mul, roundUnits_zero Nat.one_pos, Nat.zero_div]

/-- Delays in quarters of a second are summed up exactly, as far as a word of microseconds goes. -/
lemma counted_of_dvd {k i : Nat} (hk : 25 ∣ k) (hword : counted k i ≤ 922337203685477) : counted k i = i * k := by
  obtain ⟨w, hw⟩ := exists_scale_eq (c := 4) (k := 2) rfl (by decide)
  obtain ⟨j, rfl⟩ := hk
  rcases Nat.eq_zero_or_pos i with rfl | hi
  · rw [counted_zero, Nat.zero_mul]
  · have hshort : i * j < 281474976710656 := by
      by_contra hlong
      have := counted_quarters_of_le hw hi (Nat.not_lt.mp hlong)
      omega
    rw [counted, elapsed_quarters hw hi hshort, hundredths_quarters hw (Nat.le_of_lt hshort), Nat.mul_left_comm]

/-- Within seventeen years of seconds, one hundredth is lost at most. -/
lemma counted_eq_or_eq_pred {k i : Nat} (hi : i ≤ maxIterations) (h : i * k < 53687091200) :
    counted k i = i * k ∨ counted k i = i * k - 1 := by
  obtain ⟨j, hj⟩ := exists_scale_eq (c := 16777216) (k := 24) rfl (by decide)
  have hpos := scale_pos
  have hσ : ∀ n < 9007199254740992 * 2 ^ j, spacing n ≤ 2 ^ j := fun n => spacing_le_of_lt
  have hiσ : i * 2 ^ j ≤ 100000 * 2 ^ j := Nat.mul_le_mul_right _ hi
  have hik : (i * k + 1) * scale ≤ 53687091200 * scale := Nat.mul_le_mul_right _ h
  rw [Nat.add_mul, Nat.one_mul] at hik
  have hwithin := within_runningSum (u := scale) (by decide : 0 < 100) hσ 0 k (k := i) (by
    rw [Nat.zero_add, show 100 * (2 * i * 2 ^ j) = 200 * (i * 2 ^ j) by ring]
    omega)
  rw [Nat.zero_add, Nat.zero_mul, roundUnits_zero (by decide)] at hwithin
  obtain ⟨hle, hge⟩ := hwithin
  rw [show 100 * ((2 * i + 1) * 2 ^ j) = 200 * (i * 2 ^ j) + 100 * 2 ^ j by ring] at hle hge
  -- the product with a hundred is rounded once more
  have hround := two_mul_roundUnits_mul_le (elapsed k i * 100) Nat.one_pos
  have hspacing : spacing (elapsed k i * 100) ≤ 128 * 2 ^ j := by
    have hlast := spacing_le_of_lt (n := elapsed k i * 100) (j := j + 7) (by
      rw [Nat.pow_add]
      unfold elapsed
      omega)
    rw [Nat.pow_add] at hlast
    omega
  rw [Nat.div_one, Nat.mul_one, Nat.mul_one] at hround
  have hlt : roundUnits (elapsed k i * 100) 1 < scale * (i * k + 1) := by
    rw [Nat.mul_comm scale, Nat.add_mul, Nat.one_mul]
    unfold elapsed at *
    omega
  have hgt : i * k * scale < roundUnits (elapsed k i * 100) 1 + scale := by
    unfold elapsed at *
    omega
  have hupper : counted k i < i * k + 1 := Nat.div_lt_of_lt_mul hlt
  have hlower : i * k ≤ counted k i + 1 := by
    rw [counted, ← Nat.add_div_right _ hpos]
    exact (Nat.le_div_iff_mul_le hpos).mpr (Nat.le_of_lt hgt)
  omega

/-! ### Where the actions of a pass lie -/

/-- The action lies so many hundredths of a second, in the direction, from where the leaf is placed by itself. -/
def Lies (table : EventTable Instant) (d : Direction) (n : Nat) (l : Leaf) (a : Action Instant) : Prop :=
  ∃ own, l.place table l.event = .ok own ∧ a.time.nanos = own.time.nanos + d.along (n * 10000000)

section Passes

variable {table : EventTable Instant} {body : List Leaf}

lemma exists_of_passLeaf {number : Nat} {seconds : Binary64} {l : Leaf} {a : Action Instant}
    (h : passLeaf table number seconds l = .ok a) :
    ∃ shift own, wholeCentiseconds seconds = some shift ∧ l.place table l.event = .ok own ∧
      a.time.nanos = own.time.nanos + shift.nanos ∧ a.task = own.task ∧
      a.comment = own.comment ++ (" (iter. " ++ String.ofList (writePadded 3 number) ++ ")") := by
  rw [passLeaf] at h
  split at h
  · cases h
  · next shift hshift =>
    obtain ⟨own, hown, h⟩ := bind_eq_ok.mp h
    split at h
    · cases h
    · next moved hmoved =>
      cases h
      obtain ⟨time, htime, rfl⟩ := Option.map_eq_some_iff.mp hmoved
      exact ⟨shift, own, hshift, hown, Instant.add?_eq_some_iff.mp htime, rfl, rfl⟩

lemma lies_of_pass {c : Cadence} {k i : Nat} (hfinite : c.delay.isFinite)
    (hdelay : c.delay.units = roundUnits (k * scale) 100) {as : List (Action Instant)}
    (h : pass table body (i + 1) (c.offset i) = .ok as) :
    List.Forall₂ (Lies table c.direction (counted k i)) body as ∧ (body = [] ∨ counted k i ≤ 922337203685477) := by
  have hpass := mapM_eq_ok_iff.mp h
  constructor
  · refine hpass.imp fun l a hla => ?_
    obtain ⟨shift, own, hshift, hown, htime, -⟩ := exists_of_passLeaf hla
    rw [(nanos_of_shift hfinite hdelay hshift).1] at htime
    exact ⟨own, hown, htime⟩
  · cases hpass with
    | nil => exact Or.inl rfl
    | cons hla _ =>
      obtain ⟨shift, own, hshift, -⟩ := exists_of_passLeaf hla
      exact Or.inr (nanos_of_shift hfinite hdelay hshift).2

/-- A pass with leaves lies in one place only. -/
lemma lies_iff {d : Direction} {m : Nat} {as : List (Action Instant)} (h : List.Forall₂ (Lies table d m) body as)
    (n : Nat) :
    List.Forall₂ (Lies table d n) body as ↔ body = [] ∨ m = n := by
  constructor
  · intro hn
    cases h with
    | nil => exact Or.inl rfl
    | cons hm _ =>
      obtain ⟨own, hown, htime⟩ := hm
      obtain ⟨own', hown', htime'⟩ := (List.forall₂_cons.mp hn).1
      rw [hown, Except.ok.injEq] at hown'
      subst hown'
      have halong : d.along (n * 10000000) = d.along (m * 10000000) := by omega
      have := d.along_injective halong
      exact Or.inr (by omega)
  · rintro (rfl | rfl)
    · cases h
      exact List.Forall₂.nil
    · exact h

/-- The actions of a cadence are those of its passes. -/
lemma exists_passes {c : Cadence} {as : List (Action Instant)} (h : (Loop.cadence c).actions table body = .ok as) :
    ∃ passes : List (List (Action Instant)), passes.flatten = as ∧ passes.length = c.iterations ∧
      ∀ i own, passes[i]? = some own → pass table body (i + 1) (c.offset i) = .ok own := by
  simp only [Loop.actions, Command.zipIdx_offsets, List.mapM_map] at h
  split at h
  · cases h
  · next passes hpasses =>
    cases h
    have hforall := mapM_eq_ok_iff.mp hpasses
    have hlength : c.iterations = passes.length := by
      rw [← List.length_range (n := c.iterations)]
      exact hforall.length_eq
    refine ⟨passes, rfl, hlength.symm, fun i own hi => ?_⟩
    obtain ⟨hlt, rfl⟩ := List.getElem?_eq_some_iff.mp hi
    have hpass := hforall.get (i := i) (by rw [List.length_range]; omega) hlt
    simpa using hpass

end Passes

/-- Generation of a cadence with a delay of `k` whole hundredths of a second, when it succeeds: in the pass with number
`i`, counted from zero, each action lies `i * k` hundredths from the place its leaf has by itself, in the direction of
the cadence, if and only if the running sum of the delays, multiplied by a hundred and rounded, has that many whole
hundredths. It has if the delay is a number of quarters of a second. Within seventeen years it lacks one at most. -/
theorem lies_iff_counted {line direction delay iterations : List Char} {c : Cadence} {k : Nat}
    (h : Statement.read line = .ok (.openLoop (.cadence c)))
    (hline : Text.splitAt ',' line = ["FOR".toList, "(INTERVALOMETER)".toList, direction, delay, iterations])
    (hk : Written 2 k (Text.trim delay)) {table : EventTable Instant} {body : List Leaf} {as : List (Action Instant)}
    (hactions : (Loop.cadence c).actions table body = .ok as) :
    ∃ passes : List (List (Action Instant)), passes.flatten = as ∧ passes.length = c.iterations ∧
      ∀ i own, passes[i]? = some own → own.length = body.length ∧
      (List.Forall₂ (Lies table c.direction (i * k)) body own ↔ body = [] ∨ counted k i = i * k) ∧
      (25 ∣ k → List.Forall₂ (Lies table c.direction (i * k)) body own) ∧
      (i * k < 53687091200 → List.Forall₂ (Lies table c.direction (i * k)) body own ∨
        List.Forall₂ (Lies table c.direction (i * k - 1)) body own) := by
  obtain ⟨hmany, hfinite, _, _, _, hfields, hread⟩ := Statement.exists_fields_of_read_cadence h
  rw [hline] at hfields
  cases hfields
  have hdelay : c.delay.units = roundUnits (k * scale) 100 := units_of_written hk hread hfinite
  obtain ⟨passes, hflatten, hlength, hpasses⟩ := exists_passes hactions
  refine ⟨passes, hflatten, hlength, fun i own hi => ?_⟩
  have hpass := hpasses i own hi
  obtain ⟨hlies, hword⟩ := lies_of_pass hfinite hdelay hpass
  refine ⟨hlies.length_eq.symm, lies_iff hlies _, fun hquarters => ?_, fun hshort => ?_⟩
  · exact (lies_iff hlies _).mpr (hword.imp_right (counted_of_dvd hquarters))
  · have hlt : i < passes.length := (List.getElem?_eq_some_iff.mp hi).1
    have hcounted := counted_eq_or_eq_pred (by omega) hshort
    exact hcounted.imp (fun heq => (lies_iff hlies _).mpr (Or.inr heq)) fun heq => (lies_iff hlies _).mpr (Or.inr heq)

/-- A sound at the second contact. -/
def beat : Leaf := ⟨"C2", .zero, .play "a.mp3", "c"⟩

/-- Three times, a quarter of a second apart. -/
def quarters : Cadence := ⟨.forward, .ofUnits false scale 4, 3⟩

lemma actions_quarters : (Loop.cadence quarters).actions Script.minute [beat] = .ok [
    ⟨Script.moment 60000000000, .play "a.mp3", "c (iter. 001)"⟩,
    ⟨Script.moment 60250000000, .play "a.mp3", "c (iter. 002)"⟩,
    ⟨Script.moment 60500000000, .play "a.mp3", "c (iter. 003)"⟩] := by
  decide +kernel

theorem quarters_lie :
    Statement.read "FOR,(INTERVALOMETER),1,0.25,3".toList = .ok (.openLoop (.cadence quarters)) ∧
      ∃ passes : List (List (Action Instant)), passes.flatten.length = 3 ∧ passes.length = 3 ∧
        ∀ i own, passes[i]? = some own → List.Forall₂ (Lies Script.minute .forward (i * 25)) [beat] own := by
  have hread : Statement.read "FOR,(INTERVALOMETER),1,0.25,3".toList = .ok (.openLoop (.cadence quarters)) := by
    decide +kernel
  have hk : Written 2 25 (Text.trim "0.25".toList) :=
    ⟨25, "0.25".toList, ⟨"0".toList, "25".toList, Or.inr rfl, by decide, by decide, by decide, by decide, by decide⟩,
      Or.inl ⟨rfl, Or.inl rfl⟩⟩
  have hline : Text.splitAt ',' "FOR,(INTERVALOMETER),1,0.25,3".toList =
      ["FOR".toList, "(INTERVALOMETER)".toList, "1".toList, "0.25".toList, "3".toList] := by
    decide
  obtain ⟨passes, hflatten, hlength, hpasses⟩ := lies_iff_counted (k := 25) hread hline hk actions_quarters
  exact ⟨hread, passes, by rw [hflatten]; rfl, hlength, fun i own hi => (hpasses i own hi).2.2.1 ⟨1, rfl⟩⟩

/-- Three times, twenty-nine hundredths of a second apart. -/
def slipping : Cadence := ⟨.forward, .ofUnits false (29 * scale) 100, 3⟩

/-- A hundred times twenty-nine hundredths falls short of twenty-nine. -/
theorem slipping_loses_hundredth :
    Statement.read "FOR,(INTERVALOMETER),1,0.29,3".toList = .ok (.openLoop (.cadence slipping)) ∧
      ∃ first second third, (Loop.cadence slipping).actions Script.minute [beat] = .ok [first, second, third] ∧
        Lies Script.minute .forward 0 beat first ∧ ¬Lies Script.minute .forward 29 beat second ∧
        Lies Script.minute .forward 28 beat second := by
  have hactions : (Loop.cadence slipping).actions Script.minute [beat] = .ok [
      ⟨Script.moment 60000000000, .play "a.mp3", "c (iter. 001)"⟩,
      ⟨Script.moment 60280000000, .play "a.mp3", "c (iter. 002)"⟩,
      ⟨Script.moment 60570000000, .play "a.mp3", "c (iter. 003)"⟩] := by
    decide +kernel
  have hplace : beat.place Script.minute beat.event = .ok ⟨Script.moment 60000000000, .play "a.mp3", "c"⟩ := by
    decide +kernel
  refine ⟨by decide +kernel, _, _, _, hactions, ⟨_, hplace, rfl⟩, ?_, ⟨_, hplace, rfl⟩⟩
  rintro ⟨own, hown, htime⟩
  rw [hplace, Except.ok.injEq] at hown
  subst hown
  exact absurd htime (by decide)

end Cadence

end Totality
