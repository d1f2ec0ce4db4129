import Totality.Host.Directory
import Totality.Toml.Document
/-!
# Configuration

What a run takes from its configuration file: three sections, each with defaults. Names that no section has,
and values of the wrong type, are refused.
-/

namespace Totality

/-! ### Sections -/

/-- The settings of a replay. -/
structure RunSection where
  soundsDir : String := "sounds"
  disableCapture : Bool := false
  disableAudio : Bool := false
  /-- How long to wait in the end for what is still going on, in milliseconds. -/
  drainTimeoutMs : Nat := 10000

/-- The settings of the camera. -/
structure DeviceSection where
  program : String := "gphoto2"
  model : Option String := none
  port : Option String := none
  /-- How long to wait for one event, in milliseconds. -/
  captureTimeoutMs : Nat := 100
  /-- How many events to wait for. -/
  maxWaitEvents : Nat := 10

/-- The settings of the player. -/
structure AudioSection where
  player : String := "mpg123"
  args : List String := ["-q"]

structure Config where
  run : RunSection := {}
  device : DeviceSection := {}
  audio : AudioSection := {}

/-- The largest number of 64 binary digits. -/
def wordLimit : Nat := 18446744073709551615

/-- How long to wait for one picture, in milliseconds; the longest wait is the largest number. -/
def DeviceSection.captureWaitMs (d : DeviceSection) : Nat :=
  min wordLimit (d.captureTimeoutMs * d.maxWaitEvents)

/-! ### Reading -/

/-- The fields of a section in order: their names, and how each takes its value. -/
abbrev Fields (σ : Type) := List (String × (Toml.Value → σ → Option σ))

namespace Fields

/-- Read a section: a table gives values by name, an array gives them in the order of the fields. -/
def read {σ : Type} (fields : Fields σ) (default : σ) : Toml.Value → Option σ
  | .table _ entries => entries.foldlM (fun s (name, v) => do
      let (_, take) ← fields.find? fun f => f.1 == name
      take v s) default
  | .array items => (fields.zip items).foldlM (fun s ((_, take), v) => take v s) default
  | .tables before last =>
    (fields.zip (before ++ [.table .header last])).foldlM (fun s ((_, take), v) => take v s) default
  | _ => none

end Fields

namespace Toml.Value

def asText? : Value → Option String
  | .text s => some s
  | _ => none

def asFlag? : Value → Option Bool
  | .flag b => some b
  | _ => none

/-- A whole number from zero to a limit. -/
def asNat? (limit : Nat) : Value → Option Nat
  | .integer n => if 0 ≤ n ∧ n ≤ limit then some n.toNat else none
  | _ => none

def asTexts? : Value → Option (List String)
  | .array items => items.mapM asText?
  | _ => none

end Toml.Value

def RunSection.fields : Fields RunSection := [
  ("sounds_dir", fun v s => v.asText?.map fun x => { s with soundsDir := x }),
  ("disable_capture", fun v s => v.asFlag?.map fun x => { s with disableCapture := x }),
  ("disable_audio", fun v s => v.asFlag?.map fun x => { s with disableAudio := x }),
  ("drain_timeout_ms", fun v s => (v.asNat? wordLimit).map fun x => { s with drainTimeoutMs := x })]

def DeviceSection.fields : Fields DeviceSection := [
  ("program", fun v s => v.asText?.map fun x => { s with program := x }),
  ("model", fun v s => v.asText?.map fun x => { s with model := some x }),
  ("port", fun v s => v.asText?.map fun x => { s with port := some x }),
  ("capture_timeout_ms", fun v s => (v.asNat? wordLimit).map fun x => { s with captureTimeoutMs := x }),
  ("max_wait_events", fun v s => (v.asNat? 4294967295).map fun x => { s with maxWaitEvents := x })]

def AudioSection.fields : Fields AudioSection := [
  ("player", fun v s => v.asText?.map fun x => { s with player := x }),
  ("args", fun v s => v.asTexts?.map fun x => { s with args := x })]

namespace Config

def fields : Fields Config := [
  ("run", fun v c => (RunSection.fields.read {} v).map fun s => { c with run := s }),
  ("device", fun v c => (DeviceSection.fields.read {} v).map fun s => { c with device := s }),
  ("audio", fun v c => (AudioSection.fields.read {} v).map fun s => { c with audio := s })]

/-- Read the text of a configuration file. -/
def read? (text : String) : Option Config := do
  fields.read {} (.table .header (← Toml.read? text))

end Config

/-! ### Checking -/

/-- A setting that no run can work with. -/
inductive ConfigFault where
  | noProgram
  | noCaptureTimeout
  | noWaitEvents
  | noPlayer
  deriving DecidableEq, Repr

def ConfigFault.message : ConfigFault → String
  | .noProgram => "[device].program must not be empty"
  | .noCaptureTimeout => "[device].capture_timeout_ms must be >= 1 (got 0)"
  | .noWaitEvents => "[device].max_wait_events must be >= 1 (got 0)"
  | .noPlayer => "[audio].player must not be empty"

/-- Why a configuration file is of no use. -/
inductive ConfigError where
  | unreadable (fault : HostFault)
  | malformed
  | invalid (fault : ConfigFault)
  deriving DecidableEq, Repr

namespace Config

/-- The first setting that no run can work with. -/
def fault? (c : Config) : Option ConfigFault :=
  if (Text.trimmed c.device.program).isEmpty then some .noProgram
  else if c.device.captureTimeoutMs = 0 then some .noCaptureTimeout
  else if c.device.maxWaitEvents = 0 then some .noWaitEvents
  else if (Text.trimmed c.audio.player).isEmpty then some .noPlayer
  else none

/-- Read and check the text of a configuration file. -/
def ofText (text : String) : Except ConfigError Config :=
  match read? text with
  | none => .error .malformed
  | some c =>
    match c.fault? with
    | some fault => .error (.invalid fault)
    | none => .ok c

/-- Load the configuration file at a path. -/
def load (d : Directory) (path : String) : Except ConfigError Config :=
  match d.readText path with
  | .error fault => .error (.unreadable fault)
  | .ok text => ofText text

/-- The file that is looked for where no other is named. -/
def defaultPath : String := "Sequencer.toml"

/-- Load the file that is named, which has to be there, or else the one of the default name if it is there. -/
def loadOrDefault (d : Directory) (path? : Option String) : Except ConfigError Config :=
  match path? with
  | some path => load d path
  | none => if d.isFile defaultPath then load d defaultPath else .ok {}

end Config

end Totality
