import Totality.Proofs.Event.ExactTimes
import Totality.Proofs.Script.Leaves
import Totality.Proofs.Script.Offset

/-!
# The time that a line states

The action of a leaf lies at its event plus the offset that its line states, or the leaf is refused, unless a number of
microseconds was cut to fit a word of 64 bits and the calendar has the instant that comes of it all the same. The main
statement is `place_exact_iff`.
-/

namespace Totality

open Binary64 Calendar Text

/-! ### Offsets -/

namespace Offset

variable {sign cs : List Char} {d : Duration}

/-- The offset that the fields of a line state, if its number of microseconds fits a word. -/
def stated? (sign cs : List Char) : Option Duration :=
  (seconds? cs).bind fun seconds => (seconds * .ofInt 1000000).nearest?.bind fun z =>
    let micros := if trim sign = ['-'] then -z else z
    if Word micros then some (.ofMicros micros) else none

/-- A number that is cut and then turned round or not is what is stated, or it is as great as any word. -/
lemma turned_cases (minus : Prop) [Decidable minus] {z r : Int} (hr : r = clampInt wordMin wordMax z) :
    (Word (if minus then -z else z) ∧ (if minus then -z else z) = if minus then -r else r) ∨
      9223372036854775807 ≤ (if minus then -r else r).natAbs ∧
        (¬Word (if minus then -z else z) ∨
          (if minus then -r else r) < 0 ∧ (if minus then -z else z) + 1 = if minus then -r else r) := by
  simp only [clampInt, Word, wordMin, wordMax] at *
  split <;> omega

/-- An offset is the one that is stated, or it has been cut and is as long as any word. Going back by `2 ^ 63`
microseconds fits a word, but is cut before it is turned round. -/
lemma stated?_cases (h : read? sign cs = some d) :
    stated? sign cs = some d ∨ 9223372036854775807000 ≤ d.nanos.natAbs ∧
      (stated? sign cs = none ∨ d.nanos < 0 ∧ ∃ e, stated? sign cs = some e ∧ e.nanos + 1000 = d.nanos) := by
  rw [read?_eq] at h
  obtain ⟨u, hu, hd⟩ := Option.map_eq_some_iff.mp h
  obtain ⟨s, hs, hfinite, rfl⟩ := unsigned?_eq_some_iff.mp hu
  have hmillion : (ofInt 1000000).isFinite := by decide +kernel
  have hnan := mul_ne_nan hfinite hmillion
  have hnanos : ∀ r : Int, d = (if trim sign = ['-'] then -Duration.ofMicros r else .ofMicros r) →
      d.nanos = (if trim sign = ['-'] then -r else r) * 1000 := by
    rintro r rfl
    split <;> simp
  have hd := hnanos _ hd.symm
  rw [stated?, hs, Option.bind_some]
  generalize s * ofInt 1000000 = x at *
  cases hx : x.nearest? with
  | none =>
    refine Or.inr ⟨?_, Or.inl rfl⟩
    rcases roundTo_of_nearest?_eq_none hnan hx wordMin wordMax with hround | hround
    · rw [hround, wordMin] at hd
      split at hd <;> omega
    · rw [hround, wordMax] at hd
      split at hd <;> omega
  | some z =>
    have hturned := turned_cases (trim sign = ['-']) (roundTo_of_nearest? hx wordMin wordMax)
    rw [Option.bind_some]
    dsimp only
    generalize (if trim sign = ['-'] then -z else z) = w at *
    rcases hturned with ⟨hword, heq⟩ | ⟨hgreat, hrest⟩
    · left
      rw [if_pos hword, heq]
      exact congrArg some (congrArg Duration.mk hd.symm)
    · right
      refine ⟨by omega, ?_⟩
      by_cases hword : Word w
      · obtain ⟨hneg, hnext⟩ := hrest.resolve_left (not_not_intro hword)
        refine Or.inr ⟨by omega, _, if_pos hword, ?_⟩
        rw [Duration.nanos_ofMicros]
        omega
      · exact Or.inl (if_neg hword)

end Offset

/-! ### Leaves -/

namespace Leaf

/-- The action of a leaf at an event, with nothing cut. The offset is the one that is stated, if there is one. -/
def exactPlace (table : EventTable Instant) (event : String) (stated : Option Duration) (l : Leaf) :
    Except ResolutionError (Action Instant) :=
  match table.resolveExactly event with
  | .error e => .error e
  | .ok base =>
    match stated.bind base.add? with
    | some t => .ok ⟨t, l.task, l.comment⟩
    | none => .error (.outOfRange event)

/-- A number of microseconds had to be cut for the place of the leaf. -/
def Cut (table : EventTable Instant) (event : String) (stated : Option Duration) (l : Leaf) : Prop :=
  stated ≠ some l.offset ∨ table.Misfits event

variable {table : EventTable Instant} {event : String} {sign value : List Char} {l : Leaf}

lemma place_of_resolve_eq_error {e : ResolutionError} (h : table.resolve event = .error e) :
    l.place table event = .error e := by
  rw [place, h]
  rfl

lemma place_of_resolve_eq_ok {base : Instant} (h : table.resolve event = .ok base) :
    l.place table event = match base.add? l.offset with
      | some t => .ok ⟨t, l.task, l.comment⟩
      | none => .error (.outOfRange event) := by
  simp only [place, h, bind, Except.bind, TimeScale.add?_instant]
  cases base.add? l.offset with
  | none => rfl
  | some t => rfl

/-- Where the calendar does not have the instant of the cut offset, it does not have that of the stated one. -/
lemma bind_add?_eq_none (hoffset : Offset.read? sign value = some l.offset) {base : Instant}
    (h : base.add? l.offset = none) : (Offset.stated? sign value).bind base.add? = none := by
  obtain hstated | ⟨-, hstated | ⟨hneg, e, hstated, he⟩⟩ := Offset.stated?_cases hoffset
  · rw [hstated, Option.bind_some, h]
  · rw [hstated, Option.bind_none]
  · rw [hstated, Option.bind_some, Instant.add?_eq_none_iff]
    rw [Instant.add?_eq_none_iff] at h
    have hmem := base.mem
    simp only [InCalendar] at *
    omega

/-- No other offset than the stated one leads to the instant of the stated one. -/
lemma bind_add?_eq_some_iff (hoffset : Offset.read? sign value = some l.offset) {base t : Instant}
    (h : base.add? l.offset = some t) :
    (Offset.stated? sign value).bind base.add? = some t ↔ Offset.stated? sign value = some l.offset := by
  obtain hstated | ⟨-, hstated | ⟨-, e, hstated, he⟩⟩ := Offset.stated?_cases hoffset
  · rw [hstated, Option.bind_some, h]
    simp
  · rw [hstated]
    simp
  · have hne : e ≠ l.offset := by
      rintro rfl
      omega
    rw [hstated, Option.bind_some, Instant.add?_eq_some_iff, Option.some.injEq, Instant.add?_eq_some_iff.mp h]
    exact iff_of_false (by omega) hne

/-- The place at an event that has the instant it has when nothing is cut. Then the offset decides. -/
lemma place_eq_exactPlace_of_exact (hoffset : Offset.read? sign value = some l.offset)
    (hexact : table.resolveExactly event = table.resolve event) :
    l.place table event = l.exactPlace table event (Offset.stated? sign value) ↔
      ∀ a, l.place table event = .ok a → Offset.stated? sign value = some l.offset := by
  cases hresolve : table.resolve event with
  | error e =>
    rw [place_of_resolve_eq_error hresolve, exactPlace, hexact, hresolve]
    exact iff_of_true rfl (by simp)
  | ok base =>
    rw [place_of_resolve_eq_ok hresolve, exactPlace, hexact, hresolve]
    dsimp only
    cases hadd : base.add? l.offset with
    | none =>
      rw [bind_add?_eq_none hoffset hadd]
      exact iff_of_true rfl (by simp)
    | some t =>
      have hplace : ∀ o : Option Instant,
          (Except.ok ⟨t, l.task, l.comment⟩ : Except ResolutionError (Action Instant)) =
            (match o with
            | some t => .ok ⟨t, l.task, l.comment⟩
            | none => .error (.outOfRange event)) ↔ o = some t := by
        intro o
        cases o with
        | none => simp
        | some t' => simp [eq_comm]
      rw [hplace, bind_add?_eq_some_iff hoffset hadd]
      exact ⟨fun h _ _ => h, fun h => h _ rfl⟩

/-- Where nothing is cut, the place is exact. -/
lemma place_eq_exactPlace (hoffset : Offset.read? sign value = some l.offset) (hover : ¬table.Overshoots event)
    (hcut : ∀ a, l.place table event = .ok a → Offset.stated? sign value = some l.offset)
    (hfits : ¬table.Misfits event) :
    l.place table event = l.exactPlace table event (Offset.stated? sign value) := by
  exact (place_eq_exactPlace_of_exact hoffset (EventTable.resolveExactly_of_not_misfits hover hfits)).mpr hcut

/-- As long as the contacts are near, a place is exact if and only if nothing is cut for it. -/
lemma place_eq_exactPlace_iff (hoffset : Offset.read? sign value = some l.offset) (hnear : table.ContactsNear)
    (event : String) : l.place table event = l.exactPlace table event (Offset.stated? sign value) ↔
      ¬table.Overshoots event ∧
        ∀ a, l.place table event = .ok a → ¬l.Cut table event (Offset.stated? sign value) := by
  by_cases hover : table.Overshoots event
  · -- interpolated out of the calendar
    have hplace : l.place table event ≠ l.exactPlace table event (Offset.stated? sign value) := by
      rw [place_of_resolve_eq_error (EventTable.resolve_eq_overflow_iff.mpr ⟨rfl, hover⟩), exactPlace,
        hover.resolveExactly_eq]
      simp
    exact iff_of_false hplace fun h => h.1 hover
  rw [and_iff_right hover]
  by_cases hmisfits : table.Misfits event
  · -- what does not fit is to be refused, as it is where the calendar does not have the place
    rw [exactPlace, hmisfits.resolveExactly_eq hnear]
    constructor
    · intro hplace a ha
      rw [hplace] at ha
      cases ha
    · intro hcut
      obtain hresolve | ⟨base, hresolve⟩ := hmisfits.resolve_cases
      · exact place_of_resolve_eq_error hresolve
      · rw [place_of_resolve_eq_ok hresolve]
        split
        · next t ht =>
          refine absurd (Or.inr hmisfits) (hcut ⟨t, l.task, l.comment⟩ ?_)
          rw [place_of_resolve_eq_ok hresolve, ht]
        · rfl
  · rw [place_eq_exactPlace_of_exact hoffset (EventTable.resolveExactly_of_not_misfits hover hmisfits)]
    simp only [Cut, hmisfits, or_false, not_not]

/-- In the middle of the calendar nothing is cut for an action that there is. -/
lemma not_cut_of_central (hoffset : Offset.read? sign value = some l.offset) (hcontacts : table.ContactsCentral)
    (hbase : ∀ base, table.resolve event = .ok base → base.Central)
    (hfinite : ∀ fraction limb, table.fallsBack? event = some (fraction, limb) → (table.stretch fraction limb).isFinite)
    {a : Action Instant} (ha : l.place table event = .ok a) : ¬l.Cut table event (Offset.stated? sign value) := by
  rintro (hstated | hmisfits)
  · cases hresolve : table.resolve event with
    | error e =>
      rw [place_of_resolve_eq_error hresolve] at ha
      cases ha
    | ok base =>
      obtain ⟨hgreat, -⟩ := (Offset.stated?_cases hoffset).resolve_left hstated
      rw [place_of_resolve_eq_ok hresolve, (hbase base hresolve).add?_eq_none hgreat] at ha
      cases ha
  · rw [place_of_resolve_eq_error (hmisfits.resolve_eq hcontacts hfinite)] at ha
    cases ha

/-- The action of a leaf lies at its event plus the offset that the fields of its line state, and an event between two
contacts at the rounded part of their distance from one of them. The leaf is refused as out of range where one of these
does not fit a word of microseconds, or the calendar does not have the instant. All this holds if the event is not
interpolated out of the calendar and no number had to be cut, and in any case within 27000 years of 1970. It holds only
if no number had to be cut for an action that there is, as long as the contacts are less than `2 ^ 63` microseconds
apart. -/
theorem place_exact_iff {line : List Char} (h : Statement.read line = .ok (.leaf l)) (table : EventTable Instant)
    (event : String) :
    ∃ name own sign value rest, splitAt ',' line = name :: own :: sign :: value :: rest ∧
      l.event = String.ofList (trim own) ∧
      (¬table.Overshoots event → ¬l.Cut table event (Offset.stated? sign value) →
        l.place table event = l.exactPlace table event (Offset.stated? sign value)) ∧
      (table.ContactsNear →
        (l.place table event = l.exactPlace table event (Offset.stated? sign value) ↔
          ¬table.Overshoots event ∧
            ∀ a, l.place table event = .ok a → ¬l.Cut table event (Offset.stated? sign value))) ∧
      (table.ContactsCentral → (∀ base, table.resolve event = .ok base → base.Central) →
        (∀ fraction limb, table.fallsBack? event = some (fraction, limb) → (table.stretch fraction limb).isFinite) →
        ¬table.Overshoots event → l.place table event = l.exactPlace table event (Offset.stated? sign value)) := by
  obtain ⟨⟨name, own, sign, value, rest, hfields, hown, hoffset⟩, -⟩ := Statement.told_of_read h
  refine ⟨name, own, sign, value, rest, hfields, hown, fun hover hcut => ?_,
    fun hnear => place_eq_exactPlace_iff hoffset hnear event, fun hcontacts hbase hfinite hover => ?_⟩
  · obtain ⟨hstated, hfits⟩ := not_or.mp hcut
    exact place_eq_exactPlace hoffset hover (fun _ _ => not_not.mp hstated) hfits
  · rw [place_eq_exactPlace_iff hoffset hcontacts.near event]
    exact ⟨hover, fun a ha => not_cut_of_central hoffset hcontacts hbase hfinite ha⟩

/-- Ten seconds before the second contact. -/
def countdown : Leaf := ⟨"C2", .ofMicros (-10000000), .play "a.mp3", "c"⟩

/-- A second contact on 2024/04/08, and no other. -/
def eclipse : EventTable Instant := .ofInstants [("C2", ⟨1712601000000000000, by decide⟩)]

theorem countdown_exact :
    Statement.read "PLAY,C2,-,00:10,a.mp3,,,,,,,,c".toList = .ok (.leaf countdown) ∧
      countdown.place eclipse "C2" = countdown.exactPlace eclipse "C2" (Offset.stated? ['-'] "00:10".toList) ∧
      Offset.stated? ['-'] "00:10".toList = some countdown.offset := by
  have hread : Statement.read "PLAY,C2,-,00:10,a.mp3,,,,,,,,c".toList = .ok (.leaf countdown) := by decide +kernel
  have hline : splitAt ',' "PLAY,C2,-,00:10,a.mp3,,,,,,,,c".toList = "PLAY".toList :: "C2".toList :: ['-'] ::
      "00:10".toList :: ["a.mp3".toList, [], [], [], [], [], [], [], ['c']] := by decide
  have hstated : Offset.stated? ['-'] "00:10".toList = some countdown.offset := by decide +kernel
  have hover : ¬eclipse.Overshoots "C2" := by
    rintro ⟨hnone, -⟩
    cases hnone
  have hfits : ¬eclipse.Misfits "C2" := by
    rintro ⟨fraction, limb, first, last, hfall, -⟩
    cases hfall
  obtain ⟨name, own, sign, value, rest, hfields, -, hexact, -⟩ := place_exact_iff hread eclipse "C2"
  rw [hline] at hfields
  simp only [List.cons.injEq] at hfields
  obtain ⟨-, -, rfl, rfl, -⟩ := hfields
  exact ⟨hread, hexact hover (not_or.mpr ⟨not_not_intro hstated, hfits⟩), hstated⟩

/-- An offset of almost ten billion hours, cut to a word. -/
def eons : Leaf := ⟨"C1", .ofMicros 9223372036854775807, .play "a.mp3", "c"⟩

/-- A first contact in the first year of the calendar, and a second one in 1970. -/
def ancient : EventTable Instant := .ofInstants [("C1", .earliest), ("C2", default)]

/-- From the first year of the calendar, the cut offset leads to the year 30133, although the offset that is stated does
not fit a word. The same goes for a percentage that is placed so far behind the first contact. -/
theorem eons_cut :
    Statement.read "PLAY,C1,+,9999999999:00:00,a.mp3,,,,,,,,c".toList = .ok (.leaf eons) ∧
      (∃ a, eons.place ancient "C1" = .ok a) ∧
      Offset.stated? ['+'] "9999999999:00:00".toList = none ∧
      eons.exactPlace ancient "C1" (Offset.stated? ['+'] "9999999999:00:00".toList) = .error (.outOfRange "C1") ∧
      (∃ t, ancient.resolve "MAGPRE 1e300" = .ok t) ∧
      ancient.resolveExactly "MAGPRE 1e300" = .error (.outOfRange "MAGPRE 1e300") := by
  have hread : Statement.read "PLAY,C1,+,9999999999:00:00,a.mp3,,,,,,,,c".toList = .ok (.leaf eons) := by
    decide +kernel
  have hplace : eons.place ancient "C1" = .ok ⟨⟨888770808054775807000, by decide⟩, .play "a.mp3", "c"⟩ := by
    decide +kernel
  have hstated : Offset.stated? ['+'] "9999999999:00:00".toList = none := by decide +kernel
  have hresolve : ancient.resolve "MAGPRE 1e300" = .ok ⟨888770808054775807000, by decide⟩ := by decide +kernel
  refine ⟨hread, ⟨_, hplace⟩, hstated, ?_, ⟨_, hresolve⟩, by decide +kernel⟩
  rw [hstated]
  decide +kernel

end Leaf

end Totality
