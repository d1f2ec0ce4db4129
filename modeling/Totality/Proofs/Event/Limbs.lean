import Mathlib.Data.List.Chain
import Mathlib.Tactic.Lemma
import Totality.Event.TimingExport
import Totality.Proofs.Number.Order

/-!
# The two limbs of a magnitude curve

Readings in the order of time are filed under the limb before maximum up to the first fall of the magnitude, and under
the limb after it from there on. The limbs make a table if and only if the magnitude never rises after it has fallen.
-/

namespace Totality

namespace Curve

variable {rs rs' front back : List (Reading Instant)}

/-- The magnitude falls from the reading at `i` to the next. -/
def Falls (rs : List (Reading Instant)) (i : Nat) : Prop :=
  ∃ a b, rs[i]? = some a ∧ rs[i + 1]? = some b ∧ b.magnitude.lt a.magnitude

/-- The magnitude rises from the reading at `i` to the next. -/
def Rises (rs : List (Reading Instant)) (i : Nat) : Prop :=
  ∃ a b, rs[i]? = some a ∧ rs[i + 1]? = some b ∧ a.magnitude.lt b.magnitude

/-- The magnitude rises once more after it has fallen. -/
def RisesAgain (rs : List (Reading Instant)) : Prop := ∃ i j, i < j ∧ Falls rs i ∧ Rises rs j

lemma falls_iff {i : Nat} : Falls rs i ↔ ∃ x y, (rs.map Reading.magnitude)[i]? = some x ∧
    (rs.map Reading.magnitude)[i + 1]? = some y ∧ y.lt x := by
  simp [Falls, List.getElem?_map]

lemma rises_iff {i : Nat} : Rises rs i ↔ ∃ x y, (rs.map Reading.magnitude)[i]? = some x ∧
    (rs.map Reading.magnitude)[i + 1]? = some y ∧ x.lt y := by
  simp [Rises, List.getElem?_map]

/-- Whether the magnitude rises again does not depend on the times. -/
lemma risesAgain_iff_of_map_eq (h : rs.map Reading.magnitude = rs'.map Reading.magnitude) :
    RisesAgain rs ↔ RisesAgain rs' := by
  simp only [RisesAgain, falls_iff, rises_iff, h]

/-- No magnitude is below the one before it. -/
def Climbs (rs : List (Reading Instant)) : Prop := rs.IsChain fun a b => ¬b.magnitude.lt a.magnitude

/-- No magnitude is above the one before it. -/
def Declines (rs : List (Reading Instant)) : Prop := rs.IsChain fun a b => ¬a.magnitude.lt b.magnitude

/-- A chain is known by its pairs of neighbours. -/
lemma isChain_not_iff {r : Reading Instant → Reading Instant → Bool} :
    (rs.IsChain fun a b => ¬r a b) ↔ ∀ i, ¬∃ a b, rs[i]? = some a ∧ rs[i + 1]? = some b ∧ r a b := by
  rw [List.isChain_iff_getElem]
  constructor
  · rintro h i ⟨a, b, ha, hb, hr⟩
    obtain ⟨hi, rfl⟩ := List.getElem?_eq_some_iff.mp ha
    obtain ⟨hi', rfl⟩ := List.getElem?_eq_some_iff.mp hb
    exact h i hi' hr
  · intro h i hi hr
    exact h i ⟨_, _, List.getElem?_eq_getElem (Nat.lt_of_succ_lt hi), List.getElem?_eq_getElem hi, hr⟩

lemma climbs_iff : Climbs rs ↔ ∀ i, ¬Falls rs i := isChain_not_iff

lemma declines_iff : Declines rs ↔ ∀ i, ¬Rises rs i := isChain_not_iff

lemma declines_reverse : Declines rs.reverse ↔ Climbs rs := List.isChain_reverse

/-- Two limbs that are parted by the first fall: a climb up to it, the fall, and what follows. -/
structure Parted (front back : List (Reading Instant)) : Prop where
  climbs : Climbs front
  front_ne_nil : back ≠ [] → front ≠ []
  falls : ∀ a ∈ front.getLast?, ∀ b ∈ back.head?, b.magnitude.lt a.magnitude

section Filing

variable {r : Reading Instant}

/-- A reading that does not fall lengthens the climb. -/
lemma Parted.append_front (h : Parted front []) (hr : ∀ a ∈ front.getLast?, ¬r.magnitude.lt a.magnitude) :
    Parted (front ++ [r]) [] where
  climbs := by
    refine List.isChain_append.mpr ⟨h.climbs, .singleton r, fun a ha b hb => ?_⟩
    cases hb
    exact hr a ha
  front_ne_nil hne := absurd rfl hne
  falls _ _ _ hb := by cases hb

/-- The first reading that falls begins the limb behind the climb. -/
lemma Parted.turn {a : Reading Instant} (h : Parted front []) (ha : front.getLast? = some a)
    (hr : r.magnitude.lt a.magnitude) : Parted front [r] where
  climbs := h.climbs
  front_ne_nil _ := by
    rintro rfl
    cases ha
  falls a' ha' b hb := by
    cases ha.symm.trans ha'
    cases hb
    exact hr

/-- What follows the first fall belongs to the limb behind it. -/
lemma Parted.append_back (h : Parted front back) (hback : back ≠ []) (r : Reading Instant) :
    Parted front (back ++ [r]) where
  climbs := h.climbs
  front_ne_nil _ := h.front_ne_nil hback
  falls := by
    rw [List.head?_append_of_ne_nil _ hback]
    exact h.falls

end Filing

/-- Behind the first fall, the magnitude rises again exactly if it does not decline all the way. -/
lemma Parted.risesAgain_iff (h : Parted front back) : RisesAgain (front ++ back) ↔ ¬Declines back := by
  rw [declines_iff, not_forall_not]
  constructor
  · rintro ⟨i, j, hij, ⟨a, b, ha, hb, hfall⟩, c, d, hc, hd, hrise⟩
    -- the fall is not within the climb, so the rise lies behind it
    have hi : front.length ≤ i + 1 := by
      by_contra hi
      rw [List.getElem?_append_left (by omega)] at ha hb
      exact climbs_iff.mp h.climbs i ⟨a, b, ha, hb, hfall⟩
    rw [List.getElem?_append_right (by omega)] at hc hd
    rw [Nat.sub_add_comm (by omega)] at hd
    exact ⟨j - front.length, c, d, hc, hd, hrise⟩
  · rintro ⟨j, c, d, hc, hd, hrise⟩
    have hback : back ≠ [] := by
      rintro rfl
      cases hc
    have hfront := h.front_ne_nil hback
    have hlength := List.length_pos_iff.mpr hfront
    refine ⟨front.length - 1, front.length + j, by omega, ?_, c, d, ?_, ?_, hrise⟩
    · refine ⟨front.getLast hfront, back.head hback, ?_, ?_, ?_⟩
      · rw [List.getElem?_append_left (by omega), ← List.getLast?_eq_getElem?, List.getLast?_eq_some_getLast]
      · rw [Nat.sub_add_cancel hlength, List.getElem?_append_right (Nat.le_refl _), Nat.sub_self,
          ← List.head?_eq_getElem?, List.head?_eq_some_head]
      · exact h.falls _ (List.getLast?_eq_some_getLast hfront) _ (List.head?_eq_some_head hback)
    · rw [List.getElem?_append_right (Nat.le_add_right _ _), Nat.add_sub_cancel_left]
      exact hc
    · rw [Nat.add_assoc, List.getElem?_append_right (Nat.le_add_right _ _), Nat.add_sub_cancel_left]
      exact hd

/-- A curve has no first drop exactly if it climbs. -/
lemma firstDrop?_eq_none_iff (h : ∀ r ∈ rs, r.magnitude ≠ .nan) (index : Nat) :
    firstDrop? index rs = none ↔ Climbs rs := by
  induction rs generalizing index with
  | nil => exact iff_of_true rfl .nil
  | cons a rest ih =>
    cases rest with
    | nil => exact iff_of_true rfl (.singleton a)
    | cons b rest =>
      obtain ⟨ha, hrest⟩ := List.forall_mem_cons.mp h
      rw [Climbs, List.isChain_cons_cons, Binary64.not_lt_iff_le ha (hrest b List.mem_cons_self), ← Climbs,
        ← ih hrest (index + 1), firstDrop?]
      split
      · next hle => exact (and_iff_right hle).symm
      · next hle => exact iff_of_false (Option.some_ne_none _) fun hand => hle hand.1

end Curve

/-! ### Tables of readings -/

namespace EventTable

variable {instants : List (String × Instant)} {pre post : List (Reading Instant)} {maxMagnitude : Option Binary64}

lemma ofReadings_of_drop {drop : Nat × Binary64 × Binary64} (hpre : Curve.firstDrop? 1 pre = none)
    (hpost : Curve.firstDrop? 1 post.reverse = some drop) :
    ofReadings instants pre post maxMagnitude = .error ⟨.post, drop.1, drop.2.1, drop.2.2⟩ := by
  rw [ofReadings]
  split
  · next h => cases hpre.symm.trans h
  · split
    · next h =>
      cases hpost.symm.trans h
      rfl
    · next h => cases hpost.symm.trans h

lemma ofReadings_of_no_drop (instants : List (String × Instant)) (maxMagnitude : Option Binary64)
    (hpre : Curve.firstDrop? 1 pre = none)
    (hpost : Curve.firstDrop? 1 post.reverse = none) :
    ∃ table, ofReadings instants pre post maxMagnitude = .ok table ∧ table.pre = pre ∧ table.post = post.reverse := by
  rw [ofReadings]
  split
  · next h => cases hpre.symm.trans h
  · split
    · next h => cases hpost.symm.trans h
    · exact ⟨_, rfl, rfl, rfl⟩

end EventTable

/-! ### Filing readings -/

namespace TimingExport.Scan

open Curve

variable {s : Scan} {rs : List (Reading Instant)}

/-- The readings so far are filed under two limbs that are parted by their first fall. -/
structure Files (s : Scan) (rs : List (Reading Instant)) : Prop where
  readings : s.pre.reverse ++ s.post.reverse = rs
  parted : Parted s.pre.reverse s.post.reverse
  previous : s.previous = s.pre.head?.map Reading.magnitude
  falling : s.falling ↔ s.post ≠ []

lemma files_empty : Files {} [] where
  readings := rfl
  parted := ⟨.nil, fun h => absurd rfl h, fun _ ha => by cases ha⟩
  previous := rfl
  falling := iff_of_false Bool.false_ne_true fun h => h rfl

/-- What else the lines tell does not bear on the limbs. -/
lemma Files.tell (h : s.Files rs) (date : Option Date) (instants : List (String × Instant))
    (maxMagnitude : Option Binary64) : Files { s with date, instants, maxMagnitude } rs :=
  ⟨h.readings, h.parted, h.previous, h.falling⟩

/-- The magnitude of a reading is below that of the last one before the fall. -/
lemma Files.any_previous_iff (h : s.Files rs) (r : Reading Instant) :
    (s.previous.any fun p => r.magnitude.lt p) ↔
      ∃ a, s.pre.reverse.getLast? = some a ∧ r.magnitude.lt a.magnitude := by
  rw [h.previous, List.getLast?_reverse]
  cases s.pre.head? with
  | none => simp
  | some a => simp

lemma Files.addReading (h : s.Files rs) (r : Reading Instant) : (s.addReading r).Files (rs ++ [r]) := by
  have hreadings := h.readings
  rw [Scan.addReading]
  split_ifs with hfalls
  · refine ⟨?_, ?_, h.previous, iff_of_true rfl (List.cons_ne_nil _ _)⟩
    · rw [List.reverse_cons, ← List.append_assoc, hreadings]
    · rw [List.reverse_cons]
      by_cases hpost : s.post = []
      · -- the first fall
        have hfalling : ¬s.falling := fun hfalling => h.falling.mp hfalling hpost
        rw [Bool.or_eq_true] at hfalls
        obtain ⟨a, ha, hr⟩ := (h.any_previous_iff r).mp (hfalls.resolve_left hfalling)
        have hparted := h.parted
        rw [hpost] at hparted ⊢
        exact hparted.turn ha hr
      · exact h.parted.append_back (fun hnil => hpost (List.reverse_eq_nil_iff.mp hnil)) r
  · rw [Bool.or_eq_true, not_or, h.any_previous_iff] at hfalls
    obtain ⟨hfalling, hclimbs⟩ := hfalls
    have hpost : s.post = [] := by
      by_contra hne
      exact hfalling (h.falling.mpr hne)
    have hparted := h.parted
    rw [hpost] at hparted hreadings
    refine ⟨?_, ?_, rfl, h.falling⟩
    · rw [List.reverse_cons, hpost, ← hreadings]
      simp
    · rw [List.reverse_cons, hpost]
      exact hparted.append_front fun a ha hr => hclimbs ⟨a, ha, hr⟩

/-- The limbs make a table exactly if the magnitude does not rise after it has fallen; if it does, the limb after
maximum is at fault. -/
lemma Files.table_cases (h : s.Files rs) (hnan : ∀ r ∈ rs, r.magnitude ≠ .nan) :
    (¬RisesAgain rs ∧ ∃ table, s.table = .ok table ∧ table.pre = s.pre.reverse ∧ table.post = s.post) ∨
      RisesAgain rs ∧ ∃ e, s.table = .error (.curve e) ∧ e.limb = .post := by
  obtain ⟨hreadings, hparted, -, -⟩ := h
  have hpre : firstDrop? 1 s.pre.reverse = none := by
    refine (firstDrop?_eq_none_iff (fun r hr => hnan r ?_) 1).mpr hparted.climbs
    exact hreadings ▸ List.mem_append_left _ hr
  have hrises : firstDrop? 1 s.post.reverse.reverse = none ↔ ¬RisesAgain rs := by
    rw [List.reverse_reverse, ← hreadings, hparted.risesAgain_iff, not_not, declines_reverse]
    refine firstDrop?_eq_none_iff (fun r hr => hnan r ?_) 1
    exact hreadings ▸ List.mem_append_right _ (List.mem_reverse.mpr hr)
  rw [table]
  by_cases hagain : RisesAgain rs
  · refine Or.inr ⟨hagain, ?_⟩
    obtain ⟨drop, hdrop⟩ := Option.ne_none_iff_exists'.mp fun hnone => hrises.mp hnone hagain
    rw [EventTable.ofReadings_of_drop hpre hdrop]
    exact ⟨_, rfl, rfl⟩
  · refine Or.inl ⟨hagain, ?_⟩
    obtain ⟨table, htable, htablePre, htablePost⟩ :=
      EventTable.ofReadings_of_no_drop s.instants s.maxMagnitude hpre (hrises.mpr hagain)
    rw [htable]
    exact ⟨table, rfl, htablePre, htablePost.trans (List.reverse_reverse _)⟩

end TimingExport.Scan

end Totality
