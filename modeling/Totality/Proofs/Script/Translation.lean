import Totality.Proofs.Calendar.LeapSecond
import Totality.Proofs.Event.Translation
import Totality.Proofs.Script.Expansion
import Totality.Proofs.Sequence.Order

/-!
# Schedules that are moved in time

If all instants of the event table lie a duration later, so does the schedule of a script, and nothing else in it
changes. A run over the moved table takes the same steps with the same outcome, as long as both runs stay in the
calendar. Points of time within a leap second are no instants, and do not move like that.
-/

namespace Totality

/-! ### Actions -/

/-- The same action, later by exactly a duration. -/
structure Action.Trails (d : Duration) (a a' : Action Instant) : Prop where
  time : a.time.Trails d a'.time
  task : a'.task = a.task
  comment : a'.comment = a.comment

lemma Action.due_of_trails {d : Duration} {a a' b b' : Action Instant} (ha : a.Trails d a') (hb : b.Trails d b') :
    a.due b = a'.due b' := by
  have ha := ha.time
  have hb := hb.time
  rw [Instant.Trails] at ha hb
  rw [due, due, TimeScale.le_instant, TimeScale.le_instant, decide_eq_decide, Instant.le_def, Instant.le_def, ha, hb]
  omega

lemma Sequence.forall₂_ofActions {d : Duration} {as as' : List (Action Instant)}
    (h : List.Forall₂ (Action.Trails d) as as') :
    List.Forall₂ (Action.Trails d) (ofActions as).actions (ofActions as').actions :=
  forall₂_mergeSort (r := Action.due) (s := Action.due) (fun _ _ _ _ ha hb => Action.due_of_trails ha hb) h

/-! ### Slots -/

namespace Slot

/-- A sum on the way to the action in a slot leaves the calendar: on the way to its event, with the offset, or with the
shift. A shift that does not fit a word is no such sum. -/
inductive Escapes (table : EventTable Instant) (o : Slot) : Prop where
  | event {shift : Duration} (hshift : o.shift = some shift) (hevent : table.Escapes o.event)
  | offset {shift : Duration} {base : Instant} (hshift : o.shift = some shift)
      (hbase : table.resolve o.event = .ok base) (hout : ¬InCalendar (base.nanos + o.leaf.offset.nanos))
  | shifted {shift : Duration} {base : Instant} (hshift : o.shift = some shift)
      (hbase : table.resolve o.event = .ok base)
      (hout : ¬InCalendar (base.nanos + o.leaf.offset.nanos + shift.nanos))

variable {table : EventTable Instant} {d : Duration} {o : Slot}

/-- A slot whose sums leave the calendar has no action, and the error says so. -/
lemma Escapes.offCalendar_place (h : o.Escapes table) : OffCalendar (o.place table) := by
  cases h with
  | event hshift hevent =>
    obtain ⟨name, hname | hname⟩ := hevent
    · exact ⟨name, Or.inl (place_of_resolve_eq_error hshift hname)⟩
    · exact ⟨name, Or.inr (place_of_resolve_eq_error hshift hname)⟩
  | offset hshift hbase hout => exact ⟨_, Or.inl (place_of_fails (.offset hshift hbase hout))⟩
  | @shifted shift base hshift hbase hout =>
    by_cases hin : InCalendar (base.nanos + o.leaf.offset.nanos)
    · exact ⟨_, Or.inl (place_of_fails (.shifted hshift hbase hin hout))⟩
    · exact ⟨_, Or.inl (place_of_fails (.offset hshift hbase hin))⟩

lemma place_moved (h : table.Movable d) (hin : ¬o.Escapes table) (hin' : ¬o.Escapes (table.moved d)) :
    Agree (Action.Trails d) (o.place table) (o.place (table.moved d)) := by
  cases hshift : o.shift with
  | none =>
    rw [place_of_shift_eq_none hshift, place_of_shift_eq_none hshift]
    exact .error _
  | some shift =>
    have hresolve : Agree (Instant.Trails d) (table.resolve o.event) ((table.moved d).resolve o.event) :=
      EventTable.resolve_moved h (fun hout => hin (.event hshift hout)) fun hout => hin' (.event hshift hout)
    rcases Agree.iff.mp hresolve with ⟨base, base', hbase, hbase', htrails⟩ | ⟨e, he, he'⟩
    · have hoffset : InCalendar (base.nanos + o.leaf.offset.nanos) := by
        by_contra hout
        exact hin (.offset hshift hbase hout)
      have hshifted : InCalendar (base.nanos + o.leaf.offset.nanos + shift.nanos) := by
        by_contra hout
        exact hin (.shifted hshift hbase hout)
      have hoffset' : InCalendar (base'.nanos + o.leaf.offset.nanos) := by
        by_contra hout
        exact hin' (.offset hshift hbase' hout)
      have hshifted' : InCalendar (base'.nanos + o.leaf.offset.nanos + shift.nanos) := by
        by_contra hout
        exact hin' (.shifted hshift hbase' hout)
      have hplace : o.place table = .ok ⟨⟨_, hshifted⟩, o.leaf.task, o.leaf.comment ++ o.note⟩ :=
        place_of_makes ⟨rfl, rfl, base, shift, hbase, hshift, hoffset, rfl⟩
      have hplace' : o.place (table.moved d) = .ok ⟨⟨_, hshifted'⟩, o.leaf.task, o.leaf.comment ++ o.note⟩ :=
        place_of_makes ⟨rfl, rfl, base', shift, hbase', hshift, hoffset', rfl⟩
      rw [hplace, hplace']
      refine .ok ⟨?_, rfl, rfl⟩
      rw [Instant.Trails] at *
      dsimp only
      omega
    · rw [place_of_resolve_eq_error hshift he, place_of_resolve_eq_error hshift he']
      exact .error e

end Slot

/-! ### Runs -/

/-- A step of a run over a script: to find the action in a slot, or to repeat the value at which a sweep has come to
rest. -/
inductive Script.Step where
  | slot (slot : Slot)
  | rest (sweep : Sweep)

namespace Script.Step

/-- What comes of a step. No other step is reached behind a sweep at rest. -/
def place (table : EventTable Instant) : Step → Except ScheduleError (Action Instant)
  | .slot o => (o.place table).mapError .unresolved
  | .rest s => .error (.endless s)

/-- A run leaves the calendar in one of its steps, all steps before it giving actions. -/
inductive Escape (table : EventTable Instant) : List Step → Prop where
  | here {o : Slot} {steps : List Step} (h : o.Escapes table) : Escape table (.slot o :: steps)
  | later {step : Step} {a : Action Instant} {steps : List Step} (hstep : step.place table = .ok a)
      (h : Escape table steps) : Escape table (step :: steps)

variable {table : EventTable Instant} {d : Duration} {steps : List Step}

/-- A run with an action in every step stays in the calendar. -/
lemma not_escape_of_mapM_eq_ok {as : List (Action Instant)} (h : steps.mapM (place table) = .ok as) :
    ¬Escape table steps := by
  intro hescape
  induction hescape generalizing as with
  | here hslot =>
    obtain ⟨name, hname⟩ := hslot.offCalendar_place
    rw [List.mapM_cons, place] at h
    rcases hname with hname | hname <;> rw [hname] at h <;> cases h
  | later hstep hescape ih =>
    rw [List.mapM_cons, bind_eq_ok] at h
    obtain ⟨a, -, h⟩ := h
    obtain ⟨as, has, -⟩ := bind_eq_ok.mp h
    exact ih has

lemma mapM_place_moved (h : table.Movable d) (hin : ¬Escape table steps) (hin' : ¬Escape (table.moved d) steps) :
    Agree (List.Forall₂ (Action.Trails d)) (steps.mapM (place table)) (steps.mapM (place (table.moved d))) := by
  induction steps with
  | nil => exact .ok .nil
  | cons step steps ih =>
    rw [List.mapM_cons, List.mapM_cons]
    have hstep : Agree (Action.Trails d) (step.place table) (step.place (table.moved d)) := by
      cases step with
      | slot o => exact (Slot.place_moved h (fun hout => hin (.here hout)) fun hout => hin' (.here hout)).mapError _
      | rest s => exact .error _
    refine hstep.bind fun a a' ha ha' htrails => ?_
    have hsteps := ih (fun hout => hin (.later ha hout)) fun hout => hin' (.later ha' hout)
    exact hsteps.bind fun as as' _ _ hall => .ok (.cons htrails hall)

end Script.Step

namespace Command

/-- The steps of a command: its slots in order. A sweep that comes to rest below its end has no more than those of its
values so far. -/
def steps : Command → List Script.Step
  | .leaf l => (slots (.leaf l)).map .slot
  | .loop (.sweep s) body =>
    (s.values.1.flatMap fun v => body.map (.inSweep v)).map .slot ++ if s.values.2 then [.rest s] else []
  | .loop (.cadence c) body => (slots (.loop (.cadence c) body)).map .slot

lemma actions_eq_mapM_steps (table : EventTable Instant) (c : Command) :
    c.actions table = c.steps.mapM (Script.Step.place table) := by
  have hslots : ∀ slots : List Slot,
      (slots.map Script.Step.slot).mapM (Script.Step.place table) =
        (slots.mapM (Slot.place table)).mapError .unresolved := by
    intro slots
    rw [List.mapM_map]
    exact mapM_mapError _ _
  cases c with
  | leaf l => rw [actions_leaf, steps, hslots]
  | loop l body =>
    cases l with
    | cadence c => rw [actions_cadence, steps, hslots]
    | sweep s =>
      have hpasses : ∀ vs : List Binary64, (vs.flatMap fun v => body.map (.inSweep v)).mapM (Slot.place table) =
          (vs.mapM (Sweep.pass table body)).map List.flatten := by
        intro vs
        rw [mapM_flatMap]
        congr 2
        funext v
        exact mapM_place_map (Slot.place_inSweep table v) body
      rw [steps, List.mapM_append, hslots, hpasses, actions, Loop.actions]
      generalize s.values = p
      obtain ⟨values, rests⟩ := p
      dsimp only
      cases values.mapM (Sweep.pass table body) with
      | error e => rfl
      | ok passes =>
        cases rests with
        | true => rfl
        | false => exact congrArg Except.ok (List.append_nil passes.flatten).symm

end Command

namespace Script

/-- The steps of a run over a script, command by command. -/
def steps (script : Script) : List Step := script.commands.flatMap Command.steps

/-- The run of a script over a table leaves the calendar in one of its steps. -/
def Escapes (table : EventTable Instant) (script : Script) : Prop := Step.Escape table script.steps

lemma actions_eq_mapM_steps (table : EventTable Instant) (script : Script) :
    script.actions table = script.steps.mapM (Step.place table) := by
  rw [actions, steps, mapM_flatMap]
  congr 2
  exact funext (Command.actions_eq_mapM_steps table)

/-- A script that has actions stays in the calendar. -/
lemma not_escapes_of_isOk {table : EventTable Instant} {script : Script} (h : (script.actions table).isOk) :
    ¬script.Escapes table := by
  rw [actions_eq_mapM_steps] at h
  cases hsteps : script.steps.mapM (Step.place table) with
  | ok as => exact Step.not_escape_of_mapM_eq_ok hsteps
  | error e =>
    rw [hsteps] at h
    cases h

/-- The schedule over a moved table is the schedule over the table with every action moved by as much: its actions are
the same ones in the same order, with the same comments. If there is no schedule over one of the tables, there is none
over the other for the same reason. A run that leaves the calendar is the only exception. -/
theorem schedule_moved (script : Script) {table : EventTable Instant} {d : Duration} (h : table.Movable d)
    (hin : ¬script.Escapes table) (hin' : ¬script.Escapes (table.moved d)) :
    (∃ s s', script.schedule table = .ok s ∧ script.schedule (table.moved d) = .ok s' ∧
      List.Forall₂ (Action.Trails d) s.actions s'.actions) ∨
    ∃ e, script.schedule table = .error e ∧ script.schedule (table.moved d) = .error e := by
  rw [← Agree.iff (R := fun s s' : Sequence Instant => List.Forall₂ (Action.Trails d) s.actions s'.actions)]
  have hactions : Agree (List.Forall₂ (Action.Trails d)) (script.actions table) (script.actions (table.moved d)) := by
    rw [actions_eq_mapM_steps, actions_eq_mapM_steps]
    exact Step.mapM_place_moved h hin hin'
  exact hactions.map fun as as' hall => Sequence.forall₂_ofActions hall

/-- The first two contacts, one minute apart, and a quarter of full magnitude and all of it between them. -/
def quarter : EventTable Instant :=
  (EventTable.ofReadings [("C1", moment 0), ("C2", moment 60000000000)]
    [⟨.ofUnits false Binary64.scale 4, moment 20000000000⟩, ⟨.one, moment 50000000000⟩] [] none).toOption.getD default

/-- One hour. -/
def hour : Duration := .ofMicros 3600000000

/-- A leaf, a sweep of which one value lies outside the curve and one on it, and a cadence, one hour later. -/
theorem prelude_moved_hour :
    quarter.Movable hour ∧ ¬prelude.Escapes quarter ∧ ¬prelude.Escapes (quarter.moved hour) ∧
      ∃ s s', prelude.schedule quarter = .ok s ∧ prelude.schedule (quarter.moved hour) = .ok s' ∧
        List.Forall₂ (Action.Trails hour) s.actions s'.actions := by
  have hmovable : quarter.Movable hour := by
    refine ⟨by decide +kernel, ?_⟩
    intro limb
    cases limb <;> decide +kernel
  have hok : (prelude.actions quarter).isOk := by decide +kernel
  have hin := not_escapes_of_isOk hok
  have hin' : ¬prelude.Escapes (quarter.moved hour) := not_escapes_of_isOk (by decide +kernel)
  refine ⟨hmovable, hin, hin', ?_⟩
  rcases schedule_moved prelude hmovable hin hin' with h | ⟨e, he, -⟩
  · exact h
  · rw [schedule, map_eq_error] at he
    rw [he] at hok
    cases hok

/-- The first contact within a leap second. -/
def leapContact : EventTable Stamp := .ofInstants [("C1", .endOf2016)]

/-- One day. -/
def day : Duration := .ofMicros 86400000000

/-- One second before the first contact. -/
def alarm : Script := ⟨[.leaf ⟨"C1", .ofMicros (-1000000), .play "a.mp3", "c"⟩]⟩

/-- A leap second counts for an offset from within it, and no longer once the table is moved out of it by a day: the
action is moved by a second less. -/
theorem alarm_moved_day :
    compile "PLAY,C1,-,00:01,a.mp3,,,,,,,,c".toList = .ok alarm ∧
      (leapContact.moved day).instant? "C1" = some (moment 1483315199900000000).stamp ∧
      ∃ a a' : Action Stamp,
        (alarm.schedule leapContact).map Sequence.actions = .ok [a] ∧
        (alarm.schedule (leapContact.moved day)).map Sequence.actions = .ok [a'] ∧
        TimeScale.add? a.time day = some (moment 1483315199900000000).stamp ∧
        a'.time = (moment 1483315198900000000).stamp := by
  refine ⟨by decide +kernel, by decide +kernel, ⟨(moment 1483228799900000000).stamp, .play "a.mp3", "c"⟩,
    ⟨(moment 1483315198900000000).stamp, .play "a.mp3", "c"⟩, ?_⟩
  decide +kernel

end Script

end Totality
