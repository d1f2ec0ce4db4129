import Totality.Config
import Totality.Device.Camera
import Totality.Host.Inputs
import Totality.Replay.Preview
import Totality.Replay.Sequencer
import Totality.Replay.Station
import Totality.Script.Schedule
import Totality.Sequence.Rows
import Totality.Usage
/-!
# The program

The two orders: compile a script into a sequence file, and replay a sequence file. Both are functions of what
the host has to offer, and say what they leave behind: the files, what is printed, and the calls of other
programs.
-/

namespace Totality

open Text

/-! ### The host -/

/-- A program that is started, with its arguments. -/
structure Call where
  program : String
  arguments : List String
  deriving DecidableEq

/-- What the host has to offer: the working directory, what comes of a call, and the time. -/
structure Host where
  directory : Directory
  reply : Call → Reply
  now : Instant

/-! ### Failures -/

/-- Why an order is not carried out. -/
inductive Failure where
  | timing (path : String) (error : LoadError TimingExport.Error)
  | script (path : String) (error : LoadError CompileError)
  | schedule (error : ScheduleError)
  | creating (path : String) (fault : HostFault)
  | config (error : ConfigError)
  | opening (path : String) (fault : HostFault)
  | reading (fault : HostFault)
  | device (error : DeviceError)

namespace Failure

/-- A message from the outside inwards: what was tried, and each cause behind it. -/
def chain (parts : List String) : String := ": ".intercalate parts

def timingText (path : String) : LoadError TimingExport.Error → List String
  | .unreadable fault => [TimingExport.unreadableMessage path fault]
  | .refused e => ["Event table error: " ++ e.message, e.message]

def scriptText (path : String) : LoadError CompileError → List String
  | .unreadable fault => [Script.unreadableMessage path fault]
  | .refused e => ["Compile error: " ++ e.message, e.message]

def configText : ConfigError → List String
  | .unreadable fault => ["IO error: " ++ fault.message, fault.message]
  | .malformed => ["TOML parsing error"]
  | .invalid fault => ["Configuration error: " ++ fault.message]

def message : Failure → String
  | .timing path e => chain (("reading timing file " ++ quoted path) :: timingText path e)
  | .script path e => chain (("compiling script " ++ quoted path) :: scriptText path e)
  | .schedule e => e.message
  | .creating path fault => chain ["creating " ++ quoted path, fault.message]
  | .config e => chain (configText e)
  | .opening path fault => chain ["opening sequence " ++ quoted path, fault.message]
  | .reading fault => chain ["CSV error: " ++ fault.message, fault.message, fault.message]
  | .device e => e.message

end Failure

/-- What an order leaves behind. -/
structure Outcome where
  result : Except Failure Unit
  directory : Directory
  printed : String := ""
  /-- The calls of the camera's program, in order. -/
  cameraCalls : List Call := []
  /-- The calls of the player, in order. -/
  playerCalls : List Call := []

/-! ### Compiling -/

namespace CompileOptions

/-- The sequence that a script and a timing export give. -/
def sequence (o : CompileOptions) (d : Directory) : Except Failure (Sequence Instant) := do
  let table ← (TimingExport.load d o.timingFile).mapError (Failure.timing o.timingFile)
  let script ← (Script.load d o.script).mapError (Failure.script o.script)
  (script.schedule table).mapError Failure.schedule

/-- The file to write; without one, or with `-`, the sequence is printed. -/
def target? (o : CompileOptions) : Option String :=
  o.output.filter fun path => PathName.dropTrailing path.toList.reverse != ['-']

/-- Compile a script. Nothing is written unless there is a sequence to write. -/
def outcome (o : CompileOptions) (host : Host) : Outcome :=
  let directory := host.directory
  match o.sequence directory with
  | .error e => { result := .error e, directory }
  | .ok s =>
    match o.target? with
    | none => { result := .ok (), directory, printed := s.write }
    | some path =>
      match directory.write path (Utf8.encode s.write) with
      | .error fault => { result := .error (.creating path fault), directory }
      | .ok directory => { result := .ok (), directory }

end CompileOptions

/-! ### Replaying -/

namespace RunOptions

/-- The configuration with what the command line says instead. -/
def override (o : RunOptions) (c : Config) : Config :=
  { c with
    run := { c.run with
      disableCapture := o.noCamera || c.run.disableCapture
      disableAudio := o.noSound || c.run.disableAudio
      soundsDir := o.soundsDir.getD c.run.soundsDir }
    device := { c.device with
      model := o.model <|> c.device.model
      port := o.port <|> c.device.port } }

/-- The sequence to replay. -/
def load (o : RunOptions) (d : Directory) : Except Failure (Sequence Instant) := do
  let place ← (d.locate o.sequence).mapError (Failure.opening o.sequence)
  let bytes ← (d.readAt place).mapError Failure.reading
  pure (.read bytes)

end RunOptions

/-- The kinds that a configuration disables. -/
def RunSection.disabled (r : RunSection) : List ActionKind :=
  (if r.disableCapture then [.capture] else []) ++ if r.disableAudio then [.play] else []

/-- How a connected camera acts on captures, its program answering at once. -/
def Camera.attempt (reply : Call → Reply) (waitMs : Nat) (c : Camera) (_ : Nat) (e : Exposure) : Attempt :=
  let error? (limit : Option Nat) (operation : List String) : Option DeviceError :=
    match c.outcome limit (reply ⟨c.program, c.arguments operation⟩) with
    | .ok _ => none
    | .error e => some e
  ⟨0, error? none (Camera.settings e), 0, error? (some waitMs) Camera.triggering⟩

/-- The call that a camera is asked for at a turn, if it takes one. -/
def Camera.call? (c : Camera) (e : Exposure) : CameraCall → Option Call
  | .stage _ => none
  | .apply => some ⟨c.program, c.arguments (Camera.settings e)⟩
  | .trigger => some ⟨c.program, c.arguments Camera.triggering⟩

/-- How a player's program plays a file, answering at once. -/
def PlayerProgram.player (reply : Call → Reply) (directory : String) (p : PlayerProgram) : Player where
  directory
  plays _ path :=
    match p.outcome path (reply ⟨p.program, p.arguments path⟩) with
    | .ok _ => (0, none)
    | .error e => (0, some e)

namespace RunOptions

/-- The camera of a configuration. -/
def connect (reply : Call → Reply) (d : DeviceSection) : Except DeviceError Camera :=
  Camera.connect d.program d.model d.port (reply ⟨d.program, Camera.detectArguments⟩)

/-- Replay a sequence with a camera, if captures are not disabled, and a player, if sounds are not. What fails
on the way does not stop the replay. -/
def replay (host : Host) (c : Config) (s : Sequence Instant) (start : Instant) (camera : Option Camera) :
    List Call × List Call :=
  let player : PlayerProgram := ⟨c.audio.player, c.audio.args⟩
  let station : Station := {
    camera := camera.map (Camera.attempt host.reply c.device.captureWaitMs)
    player := if c.run.disableAudio then none else some (player.player host.reply c.run.soundsDir) }
  let (run, after) := (Sequencer.prepare s c.run.disabled (.starting start)).run none
  let station := run.fired.foldl (fun st (ms, a) => st.dispatch ms a.task) station
  let happens (ms : Nat) : Bool := Station.sees after.now c.run.drainTimeoutMs ms
  (station.cameraTurns.flatMap fun t => (t.calls.filter fun p => happens p.1).filterMap fun (_, call) =>
      camera.bind fun cam => cam.call? t.submission.exposure call,
    (station.sounds.filter fun sound => happens sound.ms).map fun sound =>
      ⟨player.program, player.arguments sound.path⟩)

/-- Replay a sequence file, or show what a replay would do. -/
def outcome (o : RunOptions) (host : Host) (configPath : Option String) : Outcome :=
  let directory := host.directory
  match (Config.loadOrDefault directory configPath).mapError Failure.config with
  | .error e => { result := .error e, directory }
  | .ok config =>
    let c := o.override config
    match o.load directory with
    | .error e => { result := .error e, directory }
    | .ok s =>
      let start := o.time.getD host.now
      if o.dryRun then
        { result := .ok (), directory, printed := (Preview.of s c.run.disabled start).text }
      else if c.run.disableCapture then
        { result := .ok (), directory, playerCalls := (replay host c s start none).2 }
      else
        let detection : Call := ⟨c.device.program, Camera.detectArguments⟩
        match connect host.reply c.device with
        | .error e => { result := .error (.device e), directory, cameraCalls := [detection] }
        | .ok camera =>
          let (captures, sounds) := replay host c s start (some camera)
          { result := .ok (), directory, cameraCalls := detection :: captures, playerCalls := sounds }

end RunOptions

/-- Carry out the order of a command line. -/
def Usage.outcome (u : Usage) (host : Host) : Outcome :=
  match u.order with
  | .compile o => o.outcome host
  | .run o => o.outcome host u.config

end Totality
