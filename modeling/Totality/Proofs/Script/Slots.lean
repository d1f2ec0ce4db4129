import Totality.Proofs.Event.Overshoot
import Totality.Script.Schedule

/-!
# Slots

What a script asks for, spelled out action by action: every repetition of a leaf is a slot of its own. Whether a slot
gives an action, and which, depends on the event table alone.
-/

namespace Totality

/-- One repetition of a leaf: the event that places it, the shift from there, none if it does not fit a word, and what
is noted in the comment. -/
structure Slot where
  leaf : Leaf
  event : String
  shift : Option Duration
  note : String

namespace Slot

def ofLeaf (l : Leaf) : Slot := ⟨l, l.event, some .zero, ""⟩

/-- The leaf in the pass of a sweep with a value. The text of the value is in the event, and in the note of a magnitude
event. -/
def inSweep (v : Binary64) (l : Leaf) : Slot where
  leaf := l
  event := String.ofList (Sweep.firstWord l.event) ++ " " ++ Sweep.valueText v
  shift := some .zero
  note :=
    if Sweep.firstWord l.event = "MAGPRE".toList ∨ Sweep.firstWord l.event = "MAGPOST".toList then
      " (Mag. " ++ Sweep.valueText v ++ "%)"
    else ""

/-- The leaf in the repetition of a cadence with a shift and a number. -/
def inCadence (shift : Option Duration) (number : Nat) (l : Leaf) : Slot :=
  ⟨l, l.event, shift, " (iter. " ++ String.ofList (writePadded 3 number) ++ ")"⟩

/-! ### The action in a slot -/

/-- The action does what the leaf says, at the event plus the offset plus the shift, and has the note behind the
comment of the leaf. The calendar has the time before the shift, too. -/
structure Makes (table : EventTable Instant) (o : Slot) (a : Action Instant) : Prop where
  task : a.task = o.leaf.task
  comment : a.comment = o.leaf.comment ++ o.note
  time : ∃ base shift, table.resolve o.event = .ok base ∧ o.shift = some shift ∧
    InCalendar (base.nanos + o.leaf.offset.nanos) ∧
    a.time.nanos = base.nanos + o.leaf.offset.nanos + shift.nanos

/-- Why there is no action in a slot: the shift is looked at first, then the event, the offset, and the shifted time. -/
inductive Fails (table : EventTable Instant) (o : Slot) : ResolutionError → Prop where
  | shift (hshift : o.shift = none) : Fails table o (.outOfRange o.leaf.event)
  | event {shift : Duration} {e : ResolutionError} (hshift : o.shift = some shift)
      (hbase : table.resolve o.event = .error e) : Fails table o e
  | offset {shift : Duration} {base : Instant} (hshift : o.shift = some shift)
      (hbase : table.resolve o.event = .ok base) (hout : ¬InCalendar (base.nanos + o.leaf.offset.nanos)) :
      Fails table o (.outOfRange o.event)
  | shifted {shift : Duration} {base : Instant} (hshift : o.shift = some shift)
      (hbase : table.resolve o.event = .ok base) (hin : InCalendar (base.nanos + o.leaf.offset.nanos))
      (hout : ¬InCalendar (base.nanos + o.leaf.offset.nanos + shift.nanos)) :
      Fails table o (.outOfRange o.leaf.event)

/-- The event of a slot with a shift is interpolated to an instant out of the calendar. -/
def Overshoots (table : EventTable Instant) (o : Slot) : Prop := o.shift.isSome ∧ table.Overshoots o.event

/-- The action in a slot, or why there is none. -/
def place (table : EventTable Instant) (o : Slot) : Except ResolutionError (Action Instant) :=
  match o.shift with
  | none => .error (.outOfRange o.leaf.event)
  | some shift => do
    let action ← o.leaf.place table o.event
    match action.shift? shift with
    | none => .error (.outOfRange o.leaf.event)
    | some moved => pure (moved.annotate o.note)

section Place

variable {table : EventTable Instant} {o : Slot}

lemma place_of_shift_eq_none (h : o.shift = none) : o.place table = .error (.outOfRange o.leaf.event) := by
  rw [place, h]

lemma place_of_resolve_eq_error {shift : Duration} {e : ResolutionError} (hshift : o.shift = some shift)
    (h : table.resolve o.event = .error e) : o.place table = .error e := by
  rw [place, hshift, Leaf.place, h]
  rfl

lemma place_of_add?_eq_none {shift : Duration} {base : Instant} (hshift : o.shift = some shift)
    (hbase : table.resolve o.event = .ok base) (h : base.add? o.leaf.offset = none) :
    o.place table = .error (.outOfRange o.event) := by
  simp only [place, hshift, Leaf.place, hbase, bind, Except.bind, TimeScale.add?_instant, h]

lemma place_of_shift?_eq_none {shift : Duration} {base middle : Instant} (hshift : o.shift = some shift)
    (hbase : table.resolve o.event = .ok base) (hmiddle : base.add? o.leaf.offset = some middle)
    (h : middle.add? shift = none) : o.place table = .error (.outOfRange o.leaf.event) := by
  simp only [place, hshift, Leaf.place, hbase, bind, Except.bind, TimeScale.add?_instant, hmiddle, Action.shift?, h,
    Option.map_none]

lemma place_of_shift? {shift : Duration} {base middle time : Instant} (hshift : o.shift = some shift)
    (hbase : table.resolve o.event = .ok base) (hmiddle : base.add? o.leaf.offset = some middle)
    (h : middle.add? shift = some time) :
    o.place table = .ok ⟨time, o.leaf.task, o.leaf.comment ++ o.note⟩ := by
  simp only [place, hshift, Leaf.place, hbase, bind, Except.bind, TimeScale.add?_instant, hmiddle, Action.shift?, h,
    Option.map_some]
  rfl

lemma place_of_makes {a : Action Instant} (h : o.Makes table a) : o.place table = .ok a := by
  obtain ⟨htask, hcomment, base, shift, hbase, hshift, hin, htime⟩ := h
  obtain ⟨time, task, comment⟩ := a
  obtain rfl : task = o.leaf.task := htask
  obtain rfl : comment = o.leaf.comment ++ o.note := hcomment
  cases hmiddle : base.add? o.leaf.offset with
  | none => exact absurd hin (Instant.add?_eq_none_iff.mp hmiddle)
  | some middle =>
    refine place_of_shift? hshift hbase hmiddle (Instant.add?_eq_some_iff.mpr ?_)
    rw [Instant.add?_eq_some_iff.mp hmiddle]
    exact htime

lemma place_of_fails {e : ResolutionError} (h : o.Fails table e) : o.place table = .error e := by
  cases h with
  | shift hshift => exact place_of_shift_eq_none hshift
  | event hshift hbase => exact place_of_resolve_eq_error hshift hbase
  | offset hshift hbase hout => exact place_of_add?_eq_none hshift hbase (Instant.add?_eq_none_iff.mpr hout)
  | @shifted shift base hshift hbase hin hout =>
    cases hmiddle : base.add? o.leaf.offset with
    | none => exact absurd hin (Instant.add?_eq_none_iff.mp hmiddle)
    | some middle =>
      refine place_of_shift?_eq_none hshift hbase hmiddle (Instant.add?_eq_none_iff.mpr ?_)
      rw [Instant.add?_eq_some_iff.mp hmiddle]
      exact hout

lemma exists_makes_or_fails (table : EventTable Instant) (o : Slot) :
    (∃ a, o.Makes table a) ∨ ∃ e, o.Fails table e := by
  cases hshift : o.shift with
  | none => exact Or.inr ⟨_, .shift hshift⟩
  | some shift =>
    cases hbase : table.resolve o.event with
    | error e => exact Or.inr ⟨e, .event hshift hbase⟩
    | ok base =>
      by_cases hin : InCalendar (base.nanos + o.leaf.offset.nanos)
      · by_cases hout : InCalendar (base.nanos + o.leaf.offset.nanos + shift.nanos)
        · exact Or.inl ⟨⟨⟨_, hout⟩, o.leaf.task, o.leaf.comment ++ o.note⟩, rfl, rfl, base, shift, hbase, hshift, hin, rfl⟩
        · exact Or.inr ⟨_, .shifted hshift hbase hin hout⟩
      · exact Or.inr ⟨_, .offset hshift hbase hin⟩

lemma place_eq_ok_iff {a : Action Instant} : o.place table = .ok a ↔ o.Makes table a := by
  refine ⟨fun h => ?_, place_of_makes⟩
  rcases exists_makes_or_fails table o with ⟨a', ha'⟩ | ⟨e, he⟩
  · rw [place_of_makes ha'] at h
    exact Except.ok.inj h ▸ ha'
  · rw [place_of_fails he] at h
    cases h

lemma place_eq_error_iff {e : ResolutionError} : o.place table = .error e ↔ o.Fails table e := by
  refine ⟨fun h => ?_, place_of_fails⟩
  rcases exists_makes_or_fails table o with ⟨a, ha⟩ | ⟨e', he'⟩
  · rw [place_of_makes ha] at h
    cases h
  · rw [place_of_fails he'] at h
    exact Except.error.inj h ▸ he'

/-- The error is an overflow exactly where the slot overshoots. -/
lemma overshoots_iff_of_fails {e : ResolutionError} (h : o.Fails table e) :
    o.Overshoots table ↔ ∃ name, e = .overflow name := by
  have hresolve : o.Overshoots table → table.resolve o.event = .error (.overflow o.event) :=
    fun hover => EventTable.resolve_eq_overflow_iff.mpr ⟨rfl, hover.2⟩
  cases h with
  | shift hshift => simp [Overshoots, hshift]
  | event hshift hbase =>
    constructor
    · intro hover
      rw [hresolve hover] at hbase
      exact ⟨o.event, (Except.error.inj hbase).symm⟩
    · rintro ⟨name, rfl⟩
      exact ⟨by simp [hshift], (EventTable.resolve_eq_overflow_iff.mp hbase).2⟩
  | offset hshift hbase | shifted hshift hbase =>
    refine ⟨fun hover => ?_, nofun⟩
    rw [hresolve hover] at hbase
    cases hbase

end Place

/-! ### Repetitions of a leaf -/

lemma place_ofLeaf (table : EventTable Instant) (l : Leaf) : (ofLeaf l).place table = l.place table l.event := by
  simp only [place, ofLeaf, Action.shift?_zero, Action.annotate_empty]
  exact bind_pure _

lemma isSome_limbOf? (word : List Char) :
    (EventTable.limbOf? word).isSome ↔ word = "MAGPRE".toList ∨ word = "MAGPOST".toList := by
  rw [EventTable.limbOf?]
  split_ifs with hpre hpost
  · simp [hpre]
  · simp [hpost]
  · exact ⟨nofun, fun h => (h.elim hpre hpost).elim⟩

lemma place_inSweep (table : EventTable Instant) (v : Binary64) (l : Leaf) :
    (inSweep v l).place table = Sweep.passLeaf table (Sweep.valueText v) l := by
  simp only [place, inSweep, Sweep.passLeaf, Action.shift?_zero, isSome_limbOf?]
  split_ifs with hlimb
  · rfl
  · simp only [Action.annotate_empty]

lemma place_inCadence (table : EventTable Instant) (number : Nat) (seconds : Binary64) (l : Leaf) :
    (inCadence (Cadence.wholeCentiseconds seconds) number l).place table = Cadence.passLeaf table number seconds l := by
  rw [place, Cadence.passLeaf]
  cases hshift : Cadence.wholeCentiseconds seconds with
  | none => rfl
  | some shift =>
    refine congrArg (l.place table l.event >>= ·) (funext fun action => ?_)
    cases action.shift? shift with
    | none => rfl
    | some moved => rfl

end Slot

end Totality
