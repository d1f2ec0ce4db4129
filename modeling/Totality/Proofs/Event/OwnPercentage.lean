import Totality.Proofs.Event.Bracket
import Totality.Proofs.Event.ExportedTable

/-!
# The percentage of a reading

The magnitude of a reading and a hundredth of its percentage are rounded on different ways. The percentage is the instant
of the reading where both come to the same number.
-/

namespace Totality

open Binary64

namespace Binary64

variable {x y : Binary64} {places n : Nat} {number percent : List Char}

lemma eqv_refl (h : x ≠ .nan) : x.eqv x := by
  obtain ⟨p, hp⟩ := exists_place h
  exact (eqv_iff_of_place hp hp).mpr rfl

lemma eqv_congr_right {z : Binary64} (h : x.eqv y) : z.eqv x = z.eqv y :=
  Bool.eq_iff_iff.mpr ⟨fun hz => eqv_trans hz h, fun hz => eqv_trans hz (eqv_symm h)⟩

lemma fraction?_eq_some_iff {f : Binary64} :
    EventTable.fraction? percent = some f ↔ ∃ p, read? percent = some p ∧ p.isFinite ∧ f = p / .ofInt 100 := by
  rw [EventTable.fraction?]
  constructor
  · intro h
    split at h
    · next p hread =>
      split_ifs at h with hp
      exact ⟨p, hread, hp, (Option.some.inj h).symm⟩
    · cases h
  · rintro ⟨p, hread, hp, rfl⟩
    rw [hread]
    exact if_pos hp

/-- If the percentage is a number without rounding, its hundredth is rounded as the magnitude is. -/
lemma fraction?_of_exact (hnumber : WrittenDigits (places + 2) n number) (hpercent : WrittenDigits places n percent)
    {u : Nat} (hu : Representable u) (hexact : u * Nat.pow 10 places = n * scale) :
    EventTable.fraction? percent = read? number := by
  obtain ⟨hhundred, heq⟩ := exists_ofInt_hundred
  have hpos : 0 < Nat.pow 10 places := Nat.pow_pos (by decide)
  have hpow : Nat.pow 10 (places + 2) = Nat.pow 10 places * 100 := Nat.pow_add 10 places 2
  have hp : ofUnits false (n * scale) (Nat.pow 10 places) = .finite false u hu := by
    rw [← hexact]
    exact ofUnits_of_representable hu (roundUnits_mul_self hpos hu.onGrid) false
  have hx : ofUnits false (n * scale) (Nat.pow 10 (places + 2)) = ofUnits false u 100 := by
    rw [← hexact, hpow, Nat.mul_comm u]
    exact ofUnits_mul_mul false hpos u 100
  have hf : Binary64.finite false u hu / .ofInt 100 = ofUnits false u 100 := by
    rw [heq, finite_div_finite false false hu hhundred (Nat.mul_pos (by decide) scale_pos), Nat.mul_comm u,
      Nat.mul_comm 100, ofUnits_mul_mul _ scale_pos]
    rfl
  rw [read?, read_of_writtenDigits hnumber, hx, EventTable.fraction?, read?, read_of_writtenDigits hpercent, hp]
  change some (Binary64.finite false u hu / .ofInt 100) = some (ofUnits false u 100)
  rw [hf]

lemma exists_places (h : WrittenDigits places n number) : ∃ places n, WrittenDigits (places + 2) n number := by
  obtain ⟨whole, fraction, hcs, hwhole, hfraction, hne, hlength, -⟩ := h
  exact ⟨fraction.length, _, whole, fraction, hcs, hwhole, hfraction, hne, Nat.le_add_right _ 2, rfl⟩

end Binary64

namespace EventTable

open Curve

variable {table : EventTable Instant} {limb : Limb} {percent : List Char} {r first : Reading Instant}

/-- The percentage is the instant of a reading, the first of those on its fraction. -/
def ResolvesOn (table : EventTable Instant) (limb : Limb) (percent : List Char) (first : Reading Instant) : Prop :=
  ∃ f lo hi, fraction? percent = some f ∧ bounds? (table.curve limb) f = some (lo, hi) ∧
    RunOn (table.curve limb) f lo hi ∧ (table.curve limb)[hi]? = some first ∧
    table.resolve (limb.event percent) = .ok first.time

lemma exists_first (hr : r ∈ table.curve limb) (hnan : r.magnitude ≠ .nan) :
    ∃ first, (table.curve limb).find? (fun a => a.magnitude.eqv r.magnitude) = some first := by
  rw [← Option.isSome_iff_exists, List.find?_isSome]
  exact ⟨r, hr, eqv_refl hnan⟩

/-- It is that of the first reading with a magnitude if and only if its fraction is this magnitude. -/
lemma resolvesOn_iff (hfirst : (table.curve limb).find? (fun a => a.magnitude.eqv r.magnitude) = some first)
    (hsolid : Text.Solid percent) (hne : percent ≠ [])
    (hname : ∀ p, Asks (limb.event percent) limb p → table.instant? (limb.event percent) = none) :
    table.ResolvesOn limb percent first ↔ ∃ f, fraction? percent = some f ∧ f.eqv r.magnitude := by
  constructor
  · rintro ⟨f, lo, hi, hf, hbounds, hrun, hhi, -⟩
    have hmagnitude := List.find?_some hfirst
    exact ⟨f, hf, eqv_trans (eqv_symm ((hrun.2 hi first hhi).mp ⟨Nat.le_refl hi, hrun.1⟩)) hmagnitude⟩
  · rintro ⟨f, hf, heqv⟩
    obtain ⟨p, hread, hp, rfl⟩ := fraction?_eq_some_iff.mp hf
    have hfinite := isFinite_hundredth hp
    simp only [← eqv_congr_right heqv] at hfirst
    obtain ⟨lo, hi, hbounds, hrun, hhi⟩ :=
      exists_runOn_of_find? (table.curve_ascending limb) (ne_nan_of_isFinite hfinite) hfirst
    refine ⟨_, lo, hi, hf, hbounds, hrun, hhi, ?_⟩
    have hasks : Asks (limb.event percent) limb p :=
      ⟨_, _, limb.words_event hsolid hne, limb.limbOf?_word, hread, hp⟩
    rw [resolve_of_asks hasks (hname p hasks), crossing_of_find? (table.curve_ascending limb) hfinite hfirst]

end EventTable

namespace TimingExport

open Curve

variable {text : List Char} {table : EventTable Instant}

/-- The readings among the lines of a text. -/
def readings (text : List Char) : List Line := ((numbered text).map Prod.snd).filter Line.isReading

/-- The table of an export holds the readings of its lines, those before the first fall on the limb before maximum. -/
lemma exists_tells_of_read (h : read text = .ok table) {i : Nat} {time number : List Char}
    (hline : (readings text)[i]? = some (.reading time number)) :
    ∃ limb r, (limb = .pre ↔ i < table.pre.length) ∧ (table.pre ++ table.post.reverse)[i]? = some r ∧
      r ∈ table.curve limb ∧ Binary64.read? number = some r.magnitude := by
  obtain ⟨hfaulty, hsound⟩ := read_iff_not_risesAgain text
  have hlines : Sound ((numbered text).map Prod.snd) := by
    by_contra hnot
    obtain ⟨_, _, _, _, _, -, -, -, herror⟩ := hfaulty hnot
    cases h.symm.trans herror
  obtain ⟨rs, htells, -, -, htable⟩ := hsound hlines
  obtain ⟨hreadings, -⟩ := htable table h
  obtain ⟨hi, hget⟩ := List.getElem?_eq_some_iff.mp hline
  have hi' : i < rs.length := htells.length_eq ▸ hi
  have hr : ((readings text)[i]).Tells _ rs[i] := List.Forall₂.get htells hi hi'
  rw [hget] at hr
  obtain ⟨_, _, -, -, hnumber, -⟩ := hr
  have hplace : (table.pre ++ table.post.reverse)[i]? = some rs[i] := by rw [hreadings, List.getElem?_eq_getElem hi']
  by_cases hpre : i < table.pre.length
  · refine ⟨.pre, rs[i], iff_of_true rfl hpre, hplace, ?_, hnumber⟩
    rw [List.getElem?_append_left hpre] at hplace
    exact List.mem_of_getElem? hplace
  · refine ⟨.post, rs[i], iff_of_false nofun hpre, hplace, ?_, hnumber⟩
    rw [List.getElem?_append_right (Nat.not_lt.mp hpre)] at hplace
    exact List.mem_reverse.mp (List.mem_of_getElem? hplace)

/-- Every reading of an export is on the limb of its place, with the magnitude of its number, and has a percentage. Each
text of the percentage is the instant of the first reading with this magnitude if and only if a hundredth of what it is
read as is the magnitude, as it is if the percentage is a number without rounding. -/
theorem resolvesOn_iff_fraction (h : read text = .ok table) {i : Nat} {time number : List Char}
    (hline : (readings text)[i]? = some (.reading time number)) :
    ∃ limb r first, (limb = .pre ↔ i < table.pre.length) ∧ (table.pre ++ table.post.reverse)[i]? = some r ∧
      r ∈ table.curve limb ∧ Binary64.read? number = some r.magnitude ∧
      (table.curve limb).find? (fun a => a.magnitude.eqv r.magnitude) = some first ∧
      (∃ places n, WrittenDigits (places + 2) n number) ∧
      ∀ {places n percent}, WrittenDigits (places + 2) n number → WrittenDigits places n percent →
        (table.ResolvesOn limb percent first ↔ ∃ f, EventTable.fraction? percent = some f ∧ f.eqv r.magnitude) ∧
        ((∃ u, Representable u ∧ u * Nat.pow 10 places = n * scale) → table.ResolvesOn limb percent first) := by
  obtain ⟨limb, r, hlimb, hr, hmem, hnumber⟩ := exists_tells_of_read h hline
  have hdecimal : ∀ c ∈ number, isDecimal c :=
    isDecimal_of_mem_numbered (List.mem_filter.mp (List.mem_of_getElem? hline)).1 rfl
  obtain ⟨places, n, hwritten, -⟩ := exists_writtenDigits hdecimal hnumber
  have hnan : r.magnitude ≠ .nan := fun hnan => read?_ne_nan hdecimal (hnan ▸ hnumber)
  obtain ⟨first, hfirst⟩ := EventTable.exists_first hmem hnan
  refine ⟨limb, r, first, hlimb, hr, hmem, hnumber, hfirst, exists_places hwritten, ?_⟩
  intro places n percent hnumber' hpercent
  obtain ⟨c, rest, hcons, -⟩ := exists_cons_of_writtenDigits hpercent
  have hsolid := solid_of_writtenDigits hpercent
  have hne : percent ≠ [] := hcons ▸ List.cons_ne_nil c rest
  have hiff := EventTable.resolvesOn_iff hfirst hsolid hne fun p => instant?_of_asks_of_read h
  refine ⟨hiff, ?_⟩
  rintro ⟨u, hu, hexact⟩
  exact hiff.mpr ⟨_, (fraction?_of_exact hnumber' hpercent hu hexact).trans hnumber, eqv_refl hnan⟩

/-! ### A quarter and a hair -/

/-- The first two contacts of 8 April 2024, and readings of a magnitude at 17:05 and of a half at 17:40. -/
def twoReadings (magnitude : String) : List Char :=
  ("1st Contact  2024/04/08  17:00:00.0\n2nd Contact  2024/04/08  18:00:00.0\n17:05:00.0   54.1   180.2   " ++
    magnitude ++ "\n17:40:00.0   54.1   180.2   0.5\n").toList

/-- Five minutes past 17:00 on this day. -/
def fivePast : Instant := (Instant.ofNanos? 1712595900000000000).getD default

theorem quarter_resolvesOn :
    (readings (twoReadings "0.25"))[0]? = some (.reading "17:05:00.0".toList "0.25".toList) ∧
      ∃ table first, read (twoReadings "0.25") = .ok table ∧ first.time = fivePast ∧
        table.ResolvesOn .pre "25".toList first := by
  have hline : (readings (twoReadings "0.25"))[0]? = some (.reading "17:05:00.0".toList "0.25".toList) := by
    decide +kernel
  have hpre : (read (twoReadings "0.25")).map EventTable.pre =
      .ok [⟨.ofUnits false Binary64.scale 4, fivePast⟩,
        ⟨.ofUnits false Binary64.scale 2, ⟨1712598000000000000, by decide⟩⟩] := by
    decide +kernel
  rw [map_eq_ok] at hpre
  obtain ⟨table, htable, hpre⟩ := hpre
  obtain ⟨limb, r, first, hlimb, hr, -, hmagnitude, hfirst, -, hall⟩ := resolvesOn_iff_fraction htable hline
  obtain rfl : limb = .pre := hlimb.mpr (by rw [hpre]; decide)
  have hquarter : r.magnitude = .ofUnits false Binary64.scale 4 := by
    have hread : Binary64.read? "0.25".toList = some (.ofUnits false Binary64.scale 4) := by decide +kernel
    exact Option.some.inj (hmagnitude.symm.trans hread)
  have hone : Nat.pow 10 0 = 1 := rfl
  have hexact : ∃ u, Representable u ∧ u * Nat.pow 10 0 = 25 * scale :=
    ⟨25 * scale, by decide +kernel, by rw [hone, Nat.mul_one]⟩
  have hnumber : WrittenDigits 2 25 "0.25".toList :=
    ⟨"0".toList, "25".toList, Or.inr rfl, by decide, by decide, by decide, by decide, by decide⟩
  have hpercent : WrittenDigits 0 25 "25".toList :=
    ⟨"25".toList, [], Or.inl ⟨rfl, rfl⟩, by decide, by decide, by decide, by decide, by decide⟩
  refine ⟨hline, table, first, htable, ?_, (hall hnumber hpercent).2 hexact⟩
  rw [hquarter, EventTable.curve, hpre] at hfirst
  have hfound : [Reading.mk (.ofUnits false Binary64.scale 4) fivePast,
      ⟨.ofUnits false Binary64.scale 2, ⟨1712598000000000000, by decide⟩⟩].find?
        (fun a => a.magnitude.eqv (.ofUnits false Binary64.scale 4)) =
          some ⟨.ofUnits false Binary64.scale 4, fivePast⟩ := by
    decide +kernel
  rw [Option.some.inj (hfirst.symm.trans hfound)]

/-- A hundredth of 0.35 is a hair below 0.0035, so that the first reading is not reached: the percentage is placed
between the contacts. -/
theorem hair_missed :
    (readings (twoReadings "0.0035"))[0]? = some (.reading "17:05:00.0".toList "0.0035".toList) ∧
      WrittenDigits 4 35 "0.0035".toList ∧ WrittenDigits 2 35 "0.35".toList ∧
      ∃ table t, read (twoReadings "0.0035") = .ok table ∧ 0 < table.pre.length ∧
        table.resolve (Limb.pre.event "0.35".toList) = .ok t ∧ ∀ r ∈ table.pre, r.time ≠ t := by
  have hread : (read (twoReadings "0.0035")).map (fun table =>
      (table.pre.map Reading.time, table.resolve (Limb.pre.event "0.35".toList))) =
        .ok ([fivePast, ⟨1712598000000000000, by decide⟩], .ok ⟨1712595612600000000, by decide⟩) := by
    decide +kernel
  rw [map_eq_ok] at hread
  obtain ⟨table, htable, hdata⟩ := hread
  obtain ⟨htimes, hresolve⟩ := Prod.mk.inj hdata
  refine ⟨by decide +kernel, ?_, ?_, table, _, htable, ?_, hresolve, ?_⟩
  · exact ⟨"0".toList, "0035".toList, Or.inr rfl, by decide, by decide, by decide, by decide, by decide⟩
  · exact ⟨"0".toList, "35".toList, Or.inr rfl, by decide, by decide, by decide, by decide, by decide⟩
  · rw [← List.length_map (f := Reading.time), htimes]
    decide
  · intro r hr
    have htime := List.mem_map_of_mem (f := Reading.time) hr
    rw [htimes] at htime
    intro heq
    rw [heq] at htime
    exact absurd htime (by decide +kernel)

end TimingExport

end Totality
