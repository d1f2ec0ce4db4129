import Totality.Proofs.Calendar.TimeScale
import Totality.Proofs.Event.Map
import Totality.Proofs.Except
import Totality.Proofs.Replay.Sequencer
import Totality.Script.Schedule

/-!
# Programs over embedded points of time

Schedules and replays commute with every map between points of time that changes nothing of what is done with them. So
what is said of instants holds of what a clock shows, as long as the tables, actions and starts lie outside of leap
seconds: a clock shows instants there, and the program never comes into a leap second by itself. The main statements
are `schedule_map` and `legs_map`.
-/

namespace Totality

open TimeScale (Embeds)

variable {σ τ : Type} {f : σ → τ}

/-! ### Actions and sequences -/

/-- The same action at another point of time. -/
def Action.map (f : σ → τ) (a : Action σ) : Action τ := ⟨f a.time, a.task, a.comment⟩

@[simp] lemma Action.time_map (f : σ → τ) (a : Action σ) : (a.map f).time = f a.time := rfl

section Actions

variable [TimeScale σ] [TimeScale τ] (h : Embeds f)

include h

lemma Action.shift?_map (a : Action σ) (d : Duration) : (a.map f).shift? d = (a.shift? d).map (.map f) := by
  rw [shift?, shift?, time_map, h.add?]
  cases TimeScale.add? a.time d with
  | none => rfl
  | some t => rfl

lemma Sequence.actions_ofActions_map (as : List (Action σ)) :
    (ofActions (as.map (.map f))).actions = (ofActions as).actions.map (.map f) :=
  (List.map_mergeSort fun a _ b _ => (h.le a.time b.time).symm).symm

lemma Sequence.enabled_map (as : List (Action σ)) (disabled : List ActionKind) :
    (ofActions (as.map (.map f))).enabled disabled = ((ofActions as).enabled disabled).map (.map f) := by
  rw [enabled, enabled, actions_ofActions_map h, List.filter_map]
  rfl

end Actions

/-! ### Replays -/

/-- The same clock, started at another point of time. -/
def Clock.map (f : σ → τ) (c : Clock σ) : Clock τ := ⟨f c.start, c.longest⟩

def Run.map (f : σ → τ) (r : Run σ) : Run τ := ⟨r.taken.map fun p => (p.1.map f, p.2), r.interrupted⟩

def Sequencer.map (f : σ → τ) (s : Sequencer σ) : Sequencer τ := ⟨s.clock.map f, s.now, s.pending.map (.map f)⟩

namespace Clock

variable [TimeScale σ] [TimeScale τ] (h : Embeds f) (c : Clock σ) (ms : Nat)

include h

lemma reading_map : (c.map f).reading ms = f (c.reading ms) := by
  rw [reading, reading, map, h.add?]
  cases TimeScale.add? c.start ⟨ms * milliNanos⟩ with
  | none => exact h.latest.symm
  | some t => rfl

lemma late_map_iff (t : σ) : (c.map f).Late ms (f t) ↔ c.Late ms t := by
  rw [Late, Late, reading_map h, h.since]

lemma wake_map (t : σ) : (c.map f).wake ms (f t) = c.wake ms t := by
  rw [wake, wake, reading_map h, h.since]
  rfl

end Clock

namespace Sequencer

variable [TimeScale σ] [TimeScale τ] (h : Embeds f)

include h

/-- Action by action, the same is skipped, put back and handed over. -/
lemma take_map (c : Clock σ) (stop : Option Stop) (now : Nat) (as : List (Action σ)) :
    take (c.map f) stop now (as.map (.map f)) = (take c stop now as).map (.map f) (.map f) := by
  induction as generalizing now with
  | nil => rfl
  | cons a rest ih =>
    have hlateIff := c.late_map_iff h now a.time
    have hwake := c.wake_map h now a.time
    rw [List.map_cons]
    rcases take_cons_cases c stop now a with hlate | ⟨hdue, ⟨s, hs, hcut⟩ | hcut⟩
    · rw [take_of_late hlate, take_of_late (hlateIff.mpr hlate), ih]
      rfl
    · rw [take_of_cut hdue hs hcut, take_of_cut (mt hlateIff.mp hdue) hs (hwake ▸ hcut)]
      rfl
    · rw [take_of_uncut hdue hcut, take_of_uncut (mt hlateIff.mp hdue) (hwake ▸ hcut), Action.time_map, hwake, ih]
      rfl

lemma go_map (s : Sequencer σ) (leg : Leg) : (s.map f).go leg = (s.go leg).map (.map f) (.map f) :=
  take_map h s.clock (leg.stop? s.clock (s.begins leg)) (s.begins leg) s.pending

lemma prepare_map (as : List (Action σ)) (disabled : List ActionKind) (c : Clock σ) :
    prepare (.ofActions (as.map (.map f))) disabled (c.map f) = (prepare (.ofActions as) disabled c).map f := by
  rw [prepare, Sequence.enabled_map h]
  rfl

/-- The legs of a replay take and leave the same, at the same milliseconds. -/
theorem legs_map (as : List (Action σ)) (disabled : List ActionKind) (c : Clock σ) (legs : List Leg) :
    (prepare (.ofActions (as.map (.map f))) disabled (c.map f)).legs legs =
      ((prepare (.ofActions as) disabled c).legs legs).map (Prod.map (.map f) (.map f)) := by
  rw [prepare_map h]
  generalize prepare (.ofActions as) disabled c = s
  induction legs generalizing s with
  | nil => rfl
  | cons leg rest ih =>
    rw [Sequencer.legs, go_map h, Sequencer.legs, List.map_cons, ← ih]
    rfl

end Sequencer

/-! ### Events -/

def Crossing.map (f : σ → τ) : Crossing σ → Crossing τ
  | .outside => .outside
  | .reached t => .reached (f t)
  | .overflow => .overflow

section Events

variable [TimeScale σ] [TimeScale τ] (h : Embeds f)

include h

lemma Curve.between_map (low high : Reading σ) (target : Binary64) :
    between (low.map f) (high.map f) target = (between low high target).map f := by
  simp only [between, Reading.magnitude_map, Reading.time_map, h.since, h.add?]
  cases TimeScale.add? low.time _ with
  | none => rfl
  | some t => rfl

lemma Curve.crossing_map (curve : List (Reading σ)) (target : Binary64) :
    crossing (curve.map (.map f)) target = (crossing curve target).map f := by
  simp only [crossing, bounds?_map, List.getElem?_map]
  cases bounds? curve target with
  | none => rfl
  | some bounds =>
    obtain ⟨lo, hi⟩ := bounds
    dsimp only
    cases curve[lo]? with
    | none => rfl
    | some low =>
      cases curve[hi]? with
      | none => rfl
      | some high =>
        simp only [Option.map_some, Reading.magnitude_map, Reading.time_map, between_map h]
        split_ifs <;> rfl

namespace EventTable

omit h in
omit [TimeScale σ] [TimeScale τ] in
lemma contact_map (table : EventTable σ) (event name : String) :
    (table.map f).contact event name = (table.contact event name).map f := by
  rw [contact, contact, instant?_map]
  cases table.instant? name with
  | none => rfl
  | some t => rfl

lemma fallback_map (table : EventTable σ) (event : String) (fraction : Binary64) (limb : Limb) :
    (table.map f).fallback event fraction limb = (table.fallback event fraction limb).map f := by
  cases limb with
  | pre =>
    simp only [fallback, contact_map, map_bind, bind_map, maxMagnitude_map, h.since, h.add?]
    congr
    funext first
    congr
    funext second
    cases TimeScale.add? first _ with
    | none => rfl
    | some t => rfl
  | post =>
    simp only [fallback, contact_map, map_bind, bind_map, h.since, h.add?]
    congr
    funext third
    congr
    funext fourth
    cases TimeScale.add? fourth _ with
    | none => rfl
    | some t => rfl

lemma resolveMagnitude_map (table : EventTable σ) (event : String) (percent : List Char) (limb : Limb) :
    (table.map f).resolveMagnitude event percent limb = (table.resolveMagnitude event percent limb).map f := by
  rw [resolveMagnitude, resolveMagnitude]
  cases fraction? percent with
  | none => rfl
  | some fraction =>
    simp only [curve_map, Curve.crossing_map h]
    cases Curve.crossing (table.curve limb) fraction with
    | outside => exact fallback_map h table event fraction limb
    | reached t => rfl
    | overflow => rfl

lemma resolve_map (table : EventTable σ) (event : String) :
    (table.map f).resolve event = (table.resolve event).map f := by
  rw [resolve, resolve, instant?_map]
  cases table.instant? event with
  | some t => rfl
  | none =>
    simp only [Option.map_none]
    split
    · next word percent hwords =>
      cases limbOf? word with
      | none => rfl
      | some limb => exact resolveMagnitude_map h table event percent limb
    · rfl

end EventTable

end Events

/-! ### Schedules -/

section Schedules

variable [TimeScale σ] [TimeScale τ] (h : Embeds f) (table : EventTable σ)

include h

lemma Leaf.place_map (event : String) (l : Leaf) :
    l.place (table.map f) event = (l.place table event).map (.map f) := by
  rw [place, place, EventTable.resolve_map h, map_bind, bind_map]
  congr
  funext base
  rw [h.add?]
  cases TimeScale.add? base l.offset with
  | none => rfl
  | some t => rfl

lemma Sweep.passLeaf_map (value : String) (l : Leaf) :
    passLeaf (table.map f) value l = (passLeaf table value l).map (.map f) := by
  simp only [passLeaf, Leaf.place_map h, map_bind, bind_map]
  congr
  funext action
  split_ifs <;> rfl

lemma Cadence.passLeaf_map (number : Nat) (seconds : Binary64) (l : Leaf) :
    passLeaf (table.map f) number seconds l = (passLeaf table number seconds l).map (.map f) := by
  rw [passLeaf, passLeaf]
  cases wholeCentiseconds seconds with
  | none => rfl
  | some shift =>
    simp only [Leaf.place_map h, map_bind, bind_map]
    congr
    funext action
    rw [Action.shift?_map h]
    cases action.shift? shift with
    | none => rfl
    | some moved => rfl

lemma Sweep.pass_map (body : List Leaf) (v : Binary64) :
    pass (table.map f) body v = (pass table body v).map (List.map (.map f)) :=
  mapM_eq_map (passLeaf_map h table (valueText v)) body

lemma Cadence.pass_map (body : List Leaf) (number : Nat) (seconds : Binary64) :
    pass (table.map f) body number seconds = (pass table body number seconds).map (List.map (.map f)) :=
  mapM_eq_map (passLeaf_map h table number seconds) body

lemma Loop.actions_map (body : List Leaf) (l : Loop) :
    l.actions (table.map f) body = (l.actions table body).map (List.map (.map f)) := by
  cases l with
  | sweep s =>
    rw [actions, actions]
    generalize s.values = p
    obtain ⟨values, endless⟩ := p
    dsimp only
    rw [mapM_eq_map (Sweep.pass_map h table body)]
    cases values.mapM (Sweep.pass table body) with
    | error e => rfl
    | ok passes =>
      cases endless with
      | true => rfl
      | false => exact congrArg Except.ok List.map_flatten.symm
  | cadence c =>
    rw [actions, actions]
    generalize (Cadence.offsets (c.direction.sign * c.delay) c.iterations (.zero false) []).zipIdx 1 = offsets
    dsimp only
    rw [mapM_eq_map fun p : Binary64 × Nat => Cadence.pass_map h table body p.2 p.1]
    cases offsets.mapM fun p => Cadence.pass table body p.2 p.1 with
    | error e => rfl
    | ok passes => exact congrArg Except.ok List.map_flatten.symm

lemma Command.actions_map (c : Command) :
    c.actions (table.map f) = (c.actions table).map (List.map (.map f)) := by
  cases c with
  | leaf l =>
    rw [actions, actions, Leaf.place_map h]
    cases l.place table l.event with
    | error e => rfl
    | ok a => rfl
  | loop l body => exact Loop.actions_map h table body l

lemma Script.actions_map (script : Script) :
    script.actions (table.map f) = (script.actions table).map (List.map (.map f)) := by
  rw [actions, actions, mapM_eq_map (Command.actions_map h table)]
  cases script.commands.mapM (Command.actions table) with
  | error e => rfl
  | ok lists => exact congrArg Except.ok List.map_flatten.symm

/-- The schedule of a script has the same actions in the same order, or there is none for the same reason. -/
theorem Script.schedule_map (script : Script) :
    (script.schedule (table.map f)).map Sequence.actions =
      (script.schedule table).map fun s => s.actions.map (.map f) := by
  rw [schedule, schedule, actions_map h]
  cases script.actions table with
  | error e => rfl
  | ok as => exact congrArg Except.ok (Sequence.actions_ofActions_map h as)

end Schedules

end Totality
