import Mathlib.Tactic.Lemma
import Totality.Program
import Totality.Proofs.Host.Directory
import Totality.Proofs.Sequence.Rows

/-!
# The file of a compiled sequence

A file is written when everything else is done, and the sequence file that is written holds each action of the script.
-/

namespace Totality

namespace Sequence

/-- The file of the sequence of some actions holds them in order, each at the start of its tenth of a second. -/
lemma actions_read_write_ofActions (as : List (Action Instant)) :
    (read (Utf8.encode (ofActions as).write)).actions = (as.mergeSort Action.due).map Action.floorTenth := by
  have hsorted : ((as.mergeSort Action.due).map Action.floorTenth).Pairwise fun a b => a.due b :=
    List.pairwise_map.mpr ((ofActions as).sorted.imp Action.due_floorTenth)
  rw [read, records_write, filterMap_ofRecord?_rows]
  exact actions_ofActions hsorted

end Sequence

namespace CompileOptions

variable {o : CompileOptions} {d : Directory}

/-- The timing export is read, the script is compiled, and its leaves have their actions. -/
def Plans (o : CompileOptions) (d : Directory) (as : List (Action Instant)) : Prop :=
  ∃ table script, TimingExport.load d o.timingFile = .ok table ∧ Script.load d o.script = .ok script ∧
    script.actions table = .ok as

/-- There is a sequence exactly if no stage before it fails. -/
lemma sequence_eq_ok_iff {s : Sequence Instant} :
    o.sequence d = .ok s ↔ ∃ as, o.Plans d as ∧ Sequence.ofActions as = s := by
  simp only [sequence, Plans, Script.schedule, bind_eq_ok, mapError_eq_ok, map_eq_ok]
  constructor
  · rintro ⟨table, htable, script, hscript, as, has, rfl⟩
    exact ⟨as, ⟨table, script, htable, hscript, has⟩, rfl⟩
  · rintro ⟨as, ⟨table, script, htable, hscript, has⟩, rfl⟩
    exact ⟨table, htable, script, hscript, as, has, rfl⟩

lemma exists_sequence_eq_error (h : ¬∃ as, o.Plans d as) : ∃ e, o.sequence d = .error e := by
  cases hs : o.sequence d with
  | error e => exact ⟨e, rfl⟩
  | ok s =>
    obtain ⟨as, has, -⟩ := sequence_eq_ok_iff.mp hs
    exact absurd ⟨as, has⟩ h

/-- Compiling into a file leaves every file as it was if a stage before it fails. If none does, a file is written that
holds the actions of the script in the order of time, those of one instant in the order of the script, each at the start
of its tenth of a second and the same otherwise. If the host refuses to write it, then, too, every file is left as it
was. -/
theorem outcome_keeps_or_writes (o : CompileOptions) (host : Host) {path : String} (hpath : o.target? = some path) :
    ((¬∃ as, o.Plans host.directory as) →
      (∃ e, (o.outcome host).result = .error e) ∧ (o.outcome host).directory = host.directory) ∧
    ∀ as, o.Plans host.directory as →
      ∃ bytes, (Sequence.read bytes).actions = (as.mergeSort Action.due).map Action.floorTenth ∧
        ((∃ d, host.directory.write path bytes = .ok d ∧ (o.outcome host).result = .ok () ∧
            (o.outcome host).directory = d ∧ d.read path = .ok bytes) ∨
          ∃ fault, host.directory.write path bytes = .error fault ∧
            (o.outcome host).result = .error (.creating path fault) ∧
            (o.outcome host).directory = host.directory) := by
  constructor
  · intro hnone
    obtain ⟨e, he⟩ := exists_sequence_eq_error hnone
    have houtcome : o.outcome host = { result := .error e, directory := host.directory } := by simp only [outcome, he]
    rw [houtcome]
    exact ⟨⟨e, rfl⟩, rfl⟩
  · intro as has
    have hsequence : o.sequence host.directory = .ok (.ofActions as) := sequence_eq_ok_iff.mpr ⟨as, has, rfl⟩
    refine ⟨Utf8.encode (Sequence.ofActions as).write, Sequence.actions_read_write_ofActions as, ?_⟩
    simp only [outcome, hsequence, hpath]
    cases hwrite : host.directory.write path (Utf8.encode (Sequence.ofActions as).write) with
    | error fault => exact Or.inr ⟨fault, rfl, rfl, rfl⟩
    | ok d => exact Or.inl ⟨d, rfl, rfl, rfl, Directory.read_of_write hwrite⟩

/-- One contact and one reading, a script with a sound and a capture, and a file of an earlier run. -/
def desk : Host where
  directory := ⟨[
    ("times.txt", Utf8.encode "1st Contact  2024/04/08  17:02:11.6\n17:05:00.0  54.1  180.2  0.25\n"),
    ("script.txt", Utf8.encode "PLAY,C1,+,00:00,a.mp3,,,,,,,,c\nTAKEPIC,MAGPRE 25,-,00:01.5,cam,0.001,8,100,,,,,d\n"),
    ("out.csv", [0x21])]⟩
  reply _ := .hangs
  now := default

def deskOrder : CompileOptions := ⟨"script.txt", "times.txt", some "out.csv"⟩

/-- The file of the earlier run is written anew. -/
theorem outcome_desk :
    deskOrder.target? = some "out.csv" ∧
      ∃ as bytes, deskOrder.Plans desk.directory as ∧
        (Sequence.read bytes).actions = (as.mergeSort Action.due).map Action.floorTenth ∧
        (deskOrder.outcome desk).directory.read "out.csv" = .ok bytes := by
  have hpath : deskOrder.target? = some "out.csv" := by decide
  obtain ⟨hfails, hwrites⟩ := outcome_keeps_or_writes deskOrder desk hpath
  have hok : (deskOrder.outcome desk).result.isOk := by decide +kernel
  have hplans : ∃ as, deskOrder.Plans desk.directory as := by
    by_contra hnone
    obtain ⟨⟨e, he⟩, -⟩ := hfails hnone
    rw [he] at hok
    cases hok
  obtain ⟨as, has⟩ := hplans
  obtain ⟨bytes, hbytes, ⟨d, -, -, hd, hread⟩ | ⟨fault, -, he, -⟩⟩ := hwrites as has
  · exact ⟨hpath, as, bytes, has, hbytes, hd ▸ hread⟩
  · rw [he] at hok
    cases hok

end CompileOptions

end Totality
