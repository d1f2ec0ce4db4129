import Totality.Proofs.Script.Expansion
import Totality.Proofs.Script.ShutterText

/-!
# Leaves and their lines

A leaf has its event, its offset and its settings from the fields of a line. What these were checked for holds of every
action that a script makes, since an action does what a leaf says.
-/

namespace Totality

/-- An exposure that can be made. -/
structure Exposure.Proper (e : Exposure) : Prop where
  shutter : Shutter.Proper e.shutter
  aperture : e.aperture.isFinite

/-- A task that asks for no exposure that cannot be made. -/
def Task.Proper (t : Task) : Prop := ∀ e, t = .capture e → e.Proper

@[simp] lemma Task.proper_capture {e : Exposure} : (Task.capture e).Proper ↔ e.Proper :=
  ⟨fun h => h e rfl, fun h _ he => Task.capture.inj he ▸ h⟩

@[simp] lemma Task.proper_play (file : String) : (Task.play file).Proper := by
  intro e he
  cases he

/-- The fields of a line, which begin with the event and the offset of a leaf, and the check of its exposure. -/
structure Leaf.Told (l : Leaf) (fields : List (List Char)) : Prop where
  placed : ∃ name event sign offset rest, fields = name :: event :: sign :: offset :: rest ∧
    l.event = String.ofList (Text.trim event) ∧ Offset.read? sign offset = some l.offset
  task : l.task.Proper

/-! ### Statements -/

namespace Statement

variable {line sign value : List Char} {fields : List (List Char)} {l : Leaf}

lemma offsetField_eq_ok_iff {d : Duration} : offsetField sign value = .ok d ↔ Offset.read? sign value = some d := by
  rw [offsetField]
  cases Offset.read? sign value with
  | none => simp [invalid]
  | some d' => rw [Except.ok.injEq, Option.some.injEq]

lemma shutterField_eq_ok_iff {s : Binary64} : shutterField value = .ok s ↔ Shutter.read? value = some s := by
  rw [shutterField]
  cases Shutter.read? value with
  | none => simp [invalid]
  | some s' => rw [Except.ok.injEq, Option.some.injEq]

lemma told_of_readCapture (h : readCapture fields = .ok (.leaf l)) (name : List Char) : l.Told (name :: fields) := by
  unfold readCapture at h
  split at h
  · simp only [bind_eq_ok, offsetField_eq_ok_iff, shutterField_eq_ok_iff, finiteField_eq_ok_iff] at h
    obtain ⟨d, hd, s, hs, f, ⟨-, hf⟩, i, -, h⟩ := h
    cases h
    exact ⟨⟨name, _, _, _, _, rfl, rfl, hd⟩, Task.proper_capture.mpr ⟨Shutter.proper_of_read? hs, hf⟩⟩
  · cases h

lemma told_of_readPlay (h : readPlay fields = .ok (.leaf l)) (name : List Char) : l.Told (name :: fields) := by
  unfold readPlay at h
  split at h
  · simp only [bind_eq_ok, offsetField_eq_ok_iff] at h
    obtain ⟨d, hd, h⟩ := h
    cases h
    exact ⟨⟨name, _, _, _, _, rfl, rfl, hd⟩, Task.proper_play _⟩
  · cases h

lemma readLoop_ne_leaf (kind : List Char) (fields : List (List Char)) (l : Leaf) :
    readLoop kind fields ≠ .ok (.leaf l) := by
  intro h
  unfold readLoop at h
  split_ifs at h
  · split at h
    · simp only [readSweep, bind_eq_ok, invalid] at h
      obtain ⟨a, -, d, -, b, -, h⟩ := h
      split_ifs at h
      cases h
    · cases h
  · split at h
    · simp only [readCadence, bind_eq_ok, invalid] at h
      obtain ⟨code, -, seconds, -, n, -, h⟩ := h
      split_ifs at h
      cases h
    · cases h

/-- A leaf is told by the fields of its line. -/
lemma told_of_read (h : read line = .ok (.leaf l)) : l.Told (Text.splitAt ',' line) := by
  unfold read at h
  split at h
  · cases h
  · next name fields hline =>
    rw [hline]
    split_ifs at h
    · cases h
    · exact told_of_readCapture h name
    · exact told_of_readPlay h name
    · split at h
      · exact absurd h (readLoop_ne_leaf _ _ _)
      · cases h
    · split at h <;> cases h

end Statement

/-! ### Actions -/

namespace Command

lemma leaf_mem_of_mem_slots {c : Command} {o : Slot} (h : o ∈ c.slots) : o.leaf ∈ c.leaves := by
  cases c with
  | leaf l =>
    obtain rfl := List.mem_singleton.mp h
    exact List.mem_singleton_self l
  | loop loop body =>
    cases loop with
    | sweep s =>
      obtain ⟨k, -, h⟩ := List.mem_flatMap.mp h
      obtain ⟨l, hl, rfl⟩ := List.mem_map.mp h
      exact hl
    | cadence c =>
      obtain ⟨k, -, h⟩ := List.mem_flatMap.mp h
      obtain ⟨l, hl, rfl⟩ := List.mem_map.mp h
      exact hl

end Command

namespace Script

variable {text : List Char} {script : Script}

/-- The leaves of a script are told by its lines. -/
lemma exists_told_of_compile (h : compile text = .ok script) {l : Leaf}
    (hl : l ∈ script.commands.flatMap Command.leaves) : ∃ line, l.Told (Text.splitAt ',' line) := by
  obtain ⟨sts, hsts, hspells⟩ := compile_iff_spells.mp h
  rw [Command.flatMap_leaves_of_spells hspells, List.mem_filterMap] at hl
  obtain ⟨st, hst, hleaf⟩ := hl
  obtain ⟨line, hline⟩ := exists_read_of_reads hsts st hst
  cases st with
  | leaf l' =>
    obtain rfl := Option.some.inj hleaf
    exact ⟨line, Statement.told_of_read hline⟩
  | openLoop => cases hleaf
  | closeLoop => cases hleaf

/-- An action of a script is made in one of its slots. -/
lemma exists_makes_of_mem (h : compile text = .ok script) {table : EventTable Instant} {as : List (Action Instant)}
    (hactions : script.actions table = .ok as) {a : Action Instant} (ha : a ∈ as) :
    ∃ o ∈ script.slots, o.Makes table a := by
  obtain ⟨-, hmakes⟩ := (actions_eq_ok_iff (admitted_of_compile h)).mp hactions
  obtain ⟨i, hi, rfl⟩ := List.getElem_of_mem ha
  have hi' : i < script.slots.length := by rwa [hmakes.length_eq]
  exact ⟨script.slots[i], List.getElem_mem hi', hmakes.get hi' hi⟩

/-- No action of a script asks for an exposure that cannot be made. -/
lemma proper_of_mem_actions (h : compile text = .ok script) {table : EventTable Instant} {as : List (Action Instant)}
    (hactions : script.actions table = .ok as) {a : Action Instant} (ha : a ∈ as) : a.task.Proper := by
  obtain ⟨o, ho, hmakes⟩ := exists_makes_of_mem h hactions ha
  obtain ⟨c, hc, ho⟩ := List.mem_flatMap.mp ho
  have hleaf := List.mem_flatMap.mpr ⟨c, hc, Command.leaf_mem_of_mem_slots ho⟩
  obtain ⟨line, htold⟩ := exists_told_of_compile h hleaf
  rw [hmakes.task]
  exact htold.task

end Script

end Totality
