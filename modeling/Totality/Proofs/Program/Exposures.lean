import Totality.Proofs.Replay.Conservation
import Totality.Proofs.Replay.Turns
import Totality.Proofs.Script.Leaves
import Totality.Proofs.Sequence.Independence
import Totality.Proofs.Sequence.Rows

/-!
# Exposures that reach the camera

A script makes no action with an exposure that cannot be made, and whatever is done with its actions afterwards, none
arises. A sequence file is not checked: its rows are taken with any numbers. The main statement is `arises_proper_iff`.
-/

namespace Totality

/-! ### Where actions come from -/

namespace Action

/-- An action that a script makes or that a record of a sequence file holds, or one that is made from such an action by
moving it and by adding to its comment. Only some records are admitted. -/
inductive Arises (admitted : List (List UInt8) → Prop) : Action Instant → Prop where
  | made {text : List Char} {script : Script} {table : EventTable Instant} {as : List (Action Instant)}
      {a : Action Instant}
      (hcompile : Script.compile text = .ok script) (hactions : script.actions table = .ok as) (ha : a ∈ as) :
      Arises admitted a
  | listed {bytes : List UInt8} {record : List (List UInt8)} {a : Action Instant} (hrecord : record ∈ Csv.records bytes)
      (hadmitted : admitted record) (ha : ofRecord? record = some a) : Arises admitted a
  | moved {a b : Action Instant} {d : Duration} (h : Arises admitted a) (hshift : a.shift? d = some b) :
      Arises admitted b
  | annotated {a : Action Instant} (h : Arises admitted a) (note : String) : Arises admitted (a.annotate note)

/-- A record holds a picture, and its numbers are read, but are not those of an exposure that can be made. -/
def Careless (record : List (List UInt8)) : Prop :=
  ∃ row time e, Csv.fieldTexts? record = some row ∧ column row 0 ≠ "date" ∧
    Instant.readParts? (column row 0).toList (column row 1).toList = some time ∧
    ActionKind.ofTag? (column row 2) = some .capture ∧ number? row 3 = some e.shutter ∧
    number? row 4 = some e.aperture ∧
    (readNat? 32 (Text.trim (column row 5).toList)).map UInt32.ofNat = some e.iso ∧ ¬Exposure.Proper e

variable {record : List (List UInt8)} {row : List String} {a : Action Instant}

lemma ofRecord?_eq_some_iff : ofRecord? record = some a ↔
    ∃ row, Csv.fieldTexts? record = some row ∧ column row 0 ≠ "date" ∧ ofRow? row = some a := by
  rw [ofRecord?, Option.bind_eq_bind, Option.bind_eq_some_iff]
  refine exists_congr fun row => and_congr_right fun _ => ?_
  split
  · next h => exact iff_of_false (by simp) fun hne => hne.1 h
  · next h => exact (and_iff_right h).symm

lemma taskOfRow?_capture_eq_some_iff {task : Task} :
    taskOfRow? row .capture = some task ↔ ∃ e, number? row 3 = some e.shutter ∧ number? row 4 = some e.aperture ∧
      (readNat? 32 (Text.trim (column row 5).toList)).map UInt32.ofNat = some e.iso ∧ task = .capture e := by
  rw [taskOfRow?]
  cases number? row 3 with
  | none => simp
  | some shutter =>
    cases number? row 4 with
    | none => simp
    | some aperture =>
      cases readNat? 32 (Text.trim (column row 5).toList) with
      | none => simp
      | some iso =>
        constructor
        · intro h
          obtain rfl := Option.some.inj h
          exact ⟨⟨shutter, aperture, UInt32.ofNat iso⟩, rfl, rfl, rfl, rfl⟩
        · rintro ⟨⟨shutter', aperture', iso'⟩, hshutter, haperture, hiso, rfl⟩
          obtain rfl := Option.some.inj hshutter
          obtain rfl := Option.some.inj haperture
          obtain rfl := Option.some.inj hiso
          rfl

/-- The careless records are those that hold an action with an exposure that cannot be made. -/
lemma careless_iff : Careless record ↔ ∃ a, ofRecord? record = some a ∧ ¬a.task.Proper := by
  constructor
  · rintro ⟨row, time, e, hrow, hdate, htime, hkind, hshutter, haperture, hiso, hnot⟩
    have htask := taskOfRow?_capture_eq_some_iff.mpr ⟨e, hshutter, haperture, hiso, rfl⟩
    refine ⟨⟨time, .capture e, column row 7⟩, ofRecord?_eq_some_iff.mpr ⟨row, hrow, hdate, ?_⟩, ?_⟩
    · simp [ofRow?, htime, hkind, htask]
    · rwa [Task.proper_capture]
  · rintro ⟨a, ha, hnot⟩
    obtain ⟨row, hrow, hdate, ha⟩ := ofRecord?_eq_some_iff.mp ha
    simp only [ofRow?, Option.bind_eq_bind, Option.bind_eq_some_iff] at ha
    obtain ⟨time, htime, kind, hkind, task, htask, hpure⟩ := ha
    obtain rfl := Option.some.inj hpure
    cases kind with
    | play =>
      obtain rfl := Option.some.inj htask
      exact absurd (Task.proper_play _) hnot
    | capture =>
      obtain ⟨e, hshutter, haperture, hiso, rfl⟩ := taskOfRow?_capture_eq_some_iff.mp htask
      rw [Task.proper_capture] at hnot
      exact ⟨row, time, e, hrow, hdate, htime, hkind, hshutter, haperture, hiso, hnot⟩

/-- Whatever is done with an action, it comes from a record that is admitted or is as it ought to be. -/
lemma Arises.proper {admitted : List (List UInt8) → Prop}
    (hadmitted : ∀ bytes, ∀ record ∈ Csv.records bytes, admitted record → ¬Careless record) (h : Arises admitted a) :
    a.task.Proper := by
  induction h with
  | made hcompile hactions ha => exact Script.proper_of_mem_actions hcompile hactions ha
  | listed hrecord hadm ha =>
    by_contra hnot
    exact hadmitted _ _ hrecord hadm (careless_iff.mpr ⟨_, ha, hnot⟩)
  | moved _ hshift ih =>
    obtain ⟨t, -, rfl⟩ := Option.map_eq_some_iff.mp hshift
    exact ih
  | annotated _ note ih => exact ih

end Action

/-! ### What is handed over -/

namespace Sequencer

/-- What is handed over was pending. -/
lemma mem_pending_of_mem_fired {s : Sequencer Instant} {legs : List Leg} {p : Nat × Action Instant}
    (h : p ∈ s.fired legs) : p.2 ∈ s.pending := by
  rw [s.fired_eq legs false, Run.fired, List.mem_filterMap] at h
  obtain ⟨⟨a, fate⟩, hmem, hfate⟩ := h
  rw [← s.processed_append_pending legs, List.mem_append, List.mem_map]
  cases fate with
  | skipped => cases hfate
  | dispatched ms =>
    obtain rfl := Option.some.inj hfate
    exact Or.inl ⟨_, hmem, rfl⟩

/-- Sorting and leaving out kinds of actions bring in no other action. -/
lemma mem_of_mem_fired {as : List (Action Instant)} {disabled : List ActionKind} {clock : Clock Instant}
    {legs : List Leg} {p : Nat × Action Instant} (h : p ∈ (prepare (.ofActions as) disabled clock).fired legs) :
    p.2 ∈ as := by
  have hpending := mem_pending_of_mem_fired h
  exact List.mem_mergeSort.mp (List.mem_of_mem_filter hpending)

end Sequencer

/-- The turns of a camera are for captures that were handed over. -/
lemma Station.exists_of_mem_cameraTurns {st : Station} {camera : Nat → Exposure → Attempt}
    (hcamera : st.camera = some camera) (hfirst : st.submissions = []) {fired : List (Nat × Action Instant)} {t : Turn}
    (ht : t ∈ (fired.foldl (fun st p => st.dispatch p.1 p.2.task) st).cameraTurns) :
    ∃ p ∈ fired, p.2.task = .capture t.submission.exposure := by
  have hfold : (fired.map fun p => (p.1, p.2.task)).foldl (fun st p => st.dispatch p.1 p.2) st =
      fired.foldl (fun st p => st.dispatch p.1 p.2.task) st := List.foldl_map
  rw [← hfold, cameraTurns_foldl_dispatch hcamera, hfirst, List.nil_append] at ht
  have hsubmission := List.mem_map_of_mem (f := Turn.submission) ht
  rw [map_submission_turns, List.mem_filterMap] at hsubmission
  obtain ⟨task, htask, hsome⟩ := hsubmission
  obtain ⟨p, hp, rfl⟩ := List.mem_map.mp htask
  refine ⟨p, hp, ?_⟩
  cases hp : p.2.task with
  | capture e =>
    rw [hp] at hsome
    rw [← Option.some.inj hsome]
  | play file =>
    rw [hp] at hsome
    cases hsome

/-! ### What the camera is told -/

namespace Camera

/-- The operation sets this exposure: it is what the texts in the operation are read as. -/
def Sets (operation : List String) (e : Exposure) : Prop :=
  ∃ aperture iso shutter : String,
    operation = ["--set-config", "aperture=" ++ aperture, "--set-config", "iso=" ++ iso,
      "--set-config", "shutterspeed=" ++ shutter] ∧
    Binary64.read? aperture.toList = some e.aperture ∧ readNat? 32 iso.toList = some e.iso.toNat ∧
    Shutter.read? shutter.toList = some e.shutter

/-- The settings for an exposure that can be made set one that can be made; only the shutter time may be another. -/
lemma exists_sets_settings {e : Exposure} (h : e.Proper) :
    ∃ e', Sets (settings e) e' ∧ e'.Proper ∧ e'.aperture = e.aperture ∧ e'.iso = e.iso := by
  have haperture : Binary64.read? e.aperture.text.toList = some e.aperture := by
    rw [Binary64.text, String.toList_ofList, Binary64.read?_write]
  have hiso : readNat? 32 (toString e.iso).toList = some e.iso.toNat := by
    rw [← Action.readNat?_iso, Action.toList_iso, (allDigits_digitsOf _).solid.trim]
  obtain ⟨s, hs⟩ : ∃ s, Shutter.read? (Shutter.text e.shutter).toList = some s := by
    by_cases hlt : e.shutter.lt Binary64.one
    · obtain ⟨s, hs, -⟩ := Shutter.exists_read?_text_of_lt h.shutter hlt
      exact ⟨s, hs⟩
    · refine ⟨e.shutter, ?_⟩
      rw [Shutter.text, if_neg hlt, Binary64.text, String.toList_ofList]
      exact Shutter.read?_write h.shutter
  have hproper : Exposure.Proper { e with shutter := s } := ⟨Shutter.proper_of_read? hs, h.aperture⟩
  exact ⟨{ e with shutter := s }, ⟨_, _, _, rfl, haperture, hiso, hs⟩, hproper, rfl, rfl⟩

/-- A call for a turn takes a picture or sets the exposure of the turn. -/
lemma arguments_of_call? {camera : Camera} {e : Exposure} {request : CameraCall} {call : Call}
    (h : camera.call? e request = some call) :
    call.arguments = camera.arguments triggering ∨ call.arguments = camera.arguments (settings e) := by
  cases request with
  | stage e' => cases h
  | apply =>
    obtain rfl := Option.some.inj h
    exact Or.inr rfl
  | trigger =>
    obtain rfl := Option.some.inj h
    exact Or.inl rfl

end Camera

namespace RunOptions

/-- The exposures that a replay sets are those of its actions. -/
lemma arguments_of_mem_replay {host : Host} {c : Config} {as : List (Action Instant)} {start : Instant}
    {camera : Camera} {call : Call} (h : call ∈ (replay host c (.ofActions as) start (some camera)).1) :
    call.arguments = camera.arguments Camera.triggering ∨
      ∃ a ∈ as, ∃ e, a.task = .capture e ∧ call.arguments = camera.arguments (Camera.settings e) := by
  simp only [replay] at h
  obtain ⟨t, ht, h⟩ := List.mem_flatMap.mp h
  obtain ⟨⟨ms, request⟩, -, hcall⟩ := List.mem_filterMap.mp h
  refine (Camera.arguments_of_call? hcall).imp_right fun hsettings => ?_
  obtain ⟨p, hp, htask⟩ := Station.exists_of_mem_cameraTurns rfl rfl ht
  have hfired :
      p ∈ (Sequencer.prepare (.ofActions as) c.run.disabled (.starting start)).fired [{ stopAfter := none }] := by
    rwa [Sequencer.fired, Sequencer.legs, Sequencer.legs, List.flatMap_singleton]
  exact ⟨p.2, Sequencer.mem_of_mem_fired hfired, _, htask, hsettings⟩

end RunOptions

namespace Action

/-- As long as no careless record is admitted, every action has an exposure that can be made, and only then. Replaying
actions that have one, in whatever order and with some of them left out, hands over no others, and all that the camera
is told is to take a picture and to set exposures that can be made. -/
theorem arises_proper_iff (admitted : List (List UInt8) → Prop) :
    ((∀ a, Arises admitted a → a.task.Proper) ↔
      ∀ bytes, ∀ record ∈ Csv.records bytes, admitted record → ¬Careless record) ∧
    ∀ as : List (Action Instant), (∀ a ∈ as, a.task.Proper) →
      (∀ disabled clock legs, ∀ p ∈ (Sequencer.prepare (.ofActions as) disabled clock).fired legs, p.2.task.Proper) ∧
      ∀ host c start camera, ∀ call ∈ (RunOptions.replay host c (.ofActions as) start (some camera)).1,
        call.arguments = camera.arguments Camera.triggering ∨
          ∃ operation e, call.arguments = camera.arguments operation ∧ Camera.Sets operation e ∧ e.Proper := by
  refine ⟨⟨fun h bytes record hrecord hadmitted hcareless => ?_, fun h a ha => ha.proper h⟩, fun as has => ⟨?_, ?_⟩⟩
  · obtain ⟨a, ha, hnot⟩ := careless_iff.mp hcareless
    exact hnot (h a (.listed hrecord hadmitted ha))
  · exact fun disabled clock legs p hp => has _ (Sequencer.mem_of_mem_fired hp)
  · intro host c start camera call hcall
    refine (RunOptions.arguments_of_mem_replay hcall).imp_right ?_
    rintro ⟨a, ha, e, htask, harguments⟩
    have he : e.Proper := has a ha e htask
    obtain ⟨e', hsets, hproper, -, -⟩ := Camera.exists_sets_settings he
    exact ⟨_, e', harguments, hsets, hproper⟩

/-- A file of one row, with a shutter time that is not a number and an infinite aperture. -/
def unreal : List UInt8 := Utf8.encode "2024/04/08,18:00:00.0,PICT,NaN,inf,100,,c\n"

/-- The action in that row. -/
def unrealCapture : Action Instant where
  time := ⟨1712599200000000000, by decide⟩
  task := .capture ⟨.nan, .infinity false, 100⟩
  comment := "c"

/-- The row is taken, and it is handed over with an exposure that cannot be made. What the camera is told then is read
as no exposure. -/
theorem unreal_reaches_camera :
    (Sequence.read unreal).actions = [unrealCapture] ∧
      ((Sequencer.prepare (.read unreal) [] (.starting ⟨0, by decide⟩)).fired [{ stopAfter := none }]).map Prod.snd =
        [unrealCapture] ∧
      ¬unrealCapture.task.Proper ∧
      Camera.settings ⟨.nan, .infinity false, 100⟩ = ["--set-config", "aperture=inf", "--set-config", "iso=100",
        "--set-config", "shutterspeed=NaN"] ∧
      ∀ e, ¬Camera.Sets (Camera.settings ⟨.nan, .infinity false, 100⟩) e := by
  have hrecords : (Csv.records unreal).filterMap ofRecord? = [unrealCapture] := by decide +kernel
  have hread : (Sequence.read unreal).actions = [unrealCapture] := by
    rw [Sequence.read, hrecords]
    exact List.mergeSort_singleton _
  have hsettings : Camera.settings ⟨.nan, .infinity false, 100⟩ = ["--set-config", "aperture=inf", "--set-config",
      "iso=100", "--set-config", "shutterspeed=NaN"] := by decide +kernel
  refine ⟨hread, ?_, fun h => absurd (h _ rfl).aperture (by decide), hsettings, ?_⟩
  · rw [Sequencer.prepare, Sequence.enabled, hread]
    decide +kernel
  · rintro e ⟨aperture, iso, shutter, hoperation, -, -, hshutter⟩
    rw [hsettings] at hoperation
    simp only [List.cons.injEq] at hoperation
    have htext : "shutterspeed=".toList ++ "NaN".toList = "shutterspeed=".toList ++ shutter.toList := by
      rw [← String.toList_append, ← String.toList_append, ← hoperation.2.2.2.2.2.1]
      rfl
    have hnan : shutter.toList = "NaN".toList := (List.append_cancel_left htext).symm
    have hnone : Shutter.read? "NaN".toList = none := by decide +kernel
    rw [hnan, hnone] at hshutter
    cases hshutter

end Action

end Totality
