import Totality.Proofs.Event.Percentages
import Totality.Proofs.Event.TimingExport

/-!
# What the table of an export names

The instants of an export are the contacts, each with one character to tell it from the others, and the maximum. So an
event with two words is none of them. The greatest magnitude is not negative.
-/

namespace Totality

open Binary64

/-- The names that the lines of an export give. -/
def ContactName (name : String) : Prop := name = "MAX" ∨ ∃ c, name = String.ofList ['C', c]

lemma ContactName.length_words_le {name : String} (h : ContactName name) : (Text.words name.toList).length ≤ 1 := by
  rcases h with rfl | ⟨c, rfl⟩
  · decide
  · rw [String.toList_ofList, Text.words_eq, List.foldr_cons, List.foldr_cons, List.foldr_nil, Text.gather]
    have hsolid : Text.Solid ['C'] := by decide
    have hfront : ∀ p ps, Text.gather 'C' (p :: ps) = ('C' :: p) :: ps := fun p ps => Text.foldr_gather_solid hsolid p ps
    split_ifs
    · rw [hfront]
      decide
    · rw [hfront]
      rfl

namespace EventTable

lemma mem_put {name : String} {t : Instant} {instants : List (String × Instant)} {p : String × Instant}
    (h : p ∈ put name t instants) : p.1 = name ∨ p ∈ instants := by
  induction instants with
  | nil =>
    rw [List.mem_singleton.mp h]
    exact Or.inl rfl
  | cons q rest ih =>
    rw [put] at h
    split_ifs at h with hname
    · rcases List.mem_cons.mp h with rfl | hrest
      · exact Or.inl hname
      · exact Or.inr (List.mem_cons_of_mem _ hrest)
    · rcases List.mem_cons.mp h with rfl | hrest
      · exact Or.inr List.mem_cons_self
      · exact (ih hrest).imp_right (List.mem_cons_of_mem _)

lemma of_ofReadings {instants : List (String × Instant)} {pre post : List (Reading Instant)}
    {maxMagnitude : Option Binary64}
    {table : EventTable Instant} (h : ofReadings instants pre post maxMagnitude = .ok table) :
    table.instants = instants ∧ table.maxMagnitude = maxMagnitude.getD .one := by
  rw [ofReadings] at h
  split at h
  · cases h
  · split at h
    · cases h
    · cases h
      exact ⟨rfl, rfl⟩

end EventTable

namespace TimingExport

variable {text : List Char} {table : EventTable Instant}

/-- The scan has given no other names than those of contacts, and has found no negative magnitude to be the greatest. -/
structure Scan.Plain (s : Scan) : Prop where
  names : ∀ p ∈ s.instants, ContactName p.1
  peak : ∀ x, s.maxMagnitude = some x → (zero false).le x

namespace Scan

variable {s s' : Scan}

lemma plain_empty : Plain {} where
  names := List.forall_mem_nil _
  peak x h := absurd h.symm (Option.some_ne_none x)

lemma Plain.put (h : s.Plain) {name : String} (hname : ContactName name) (date : Option Date) (t : Instant) :
    Plain { s with date, instants := EventTable.put name t s.instants } where
  names p hp := by
    rcases EventTable.mem_put hp with hp | hp
    · rw [hp]
      exact hname
    · exact h.names p hp
  peak := h.peak

lemma Plain.addReading (h : s.Plain) (r : Reading Instant) : (s.addReading r).Plain := by
  rw [Scan.addReading]
  split_ifs
  · exact ⟨h.names, h.peak⟩
  · exact ⟨h.names, h.peak⟩

lemma Plain.addLine (h : s.Plain) {line : Line}
    (hline : ∀ number, line.number? = some number → ∀ c ∈ number, isDecimal c) (hadd : s.addLine line = .ok s') :
    s'.Plain := by
  cases line with
  | numberedContact c date time | contact c date time =>
    rw [Scan.addLine, bind_eq_ok] at hadd
    obtain ⟨t, -, hadd⟩ := hadd
    cases hadd
    exact h.put (Or.inr ⟨c, rfl⟩) _ t
  | maximum date time =>
    rw [Scan.addLine, bind_eq_ok] at hadd
    obtain ⟨t, -, hadd⟩ := hadd
    cases hadd
    exact h.put (Or.inl rfl) _ t
  | maxMagnitude number =>
    rw [Scan.addLine, bind_eq_ok] at hadd
    obtain ⟨x, hx, hadd⟩ := hadd
    cases hadd
    refine ⟨h.names, fun y hy => ?_⟩
    cases hy
    refine zero_le_of_read? (hline number rfl) ?_
    rw [Scan.number] at hx
    split at hx
    · next hread =>
      cases hx
      exact hread
    · cases hx
  | reading time number =>
    rw [Scan.addLine] at hadd
    split at hadd
    · cases hadd
    · split at hadd
      · cases hadd
      · rw [bind_eq_ok] at hadd
        obtain ⟨x, -, hadd⟩ := hadd
        cases hadd
        exact h.addReading _

end Scan

lemma exists_plain_of_read (h : read text = .ok table) :
    ∃ s : Scan, s.Plain ∧ table.instants = s.instants ∧ table.maxMagnitude = s.maxMagnitude.getD .one := by
  rw [read_eq, bind_eq_ok] at h
  obtain ⟨s, hscan, htable⟩ := h
  have hplain : s.Plain := by
    refine foldlM_preserves (fun p hp b b' hb hstep => ?_) Scan.plain_empty hscan
    rw [Scan.addNumbered, mapError_eq_ok] at hstep
    exact hb.addLine (fun number => isDecimal_of_mem_numbered (List.mem_map_of_mem hp)) hstep
  rw [Scan.table] at htable
  split at htable
  · next hreadings =>
    cases htable
    exact ⟨s, hplain, EventTable.of_ofReadings hreadings⟩
  · cases htable

/-- The greatest magnitude of an export is not negative. -/
lemma zero_le_maxMagnitude_of_read (h : read text = .ok table) : (zero false).le table.maxMagnitude := by
  obtain ⟨s, hplain, -, hmax⟩ := exists_plain_of_read h
  rw [hmax]
  cases hpeak : s.maxMagnitude with
  | none => decide +kernel
  | some x => exact hplain.peak x hpeak

/-- An event that asks for a percentage is no instant's name. -/
lemma instant?_of_asks_of_read (h : read text = .ok table) {event : String} {limb : Limb} {p : Binary64}
    (hasks : Asks event limb p) : table.instant? event = none := by
  obtain ⟨s, hplain, hinstants, -⟩ := exists_plain_of_read h
  obtain ⟨word, percent, hwords, -⟩ := hasks
  rw [EventTable.instant?, hinstants, Option.map_eq_none_iff, List.find?_eq_none]
  intro q hq heq
  have hname := hplain.names q hq
  rw [beq_iff_eq.mp heq] at hname
  have hlength := hname.length_words_le
  rw [hwords] at hlength
  exact absurd hlength (by simp)

end TimingExport

end Totality
