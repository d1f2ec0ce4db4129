import Totality.Action
import Totality.Device.Error
import Totality.Script.Field
import Totality.Text.Basic
/-!
# Cameras

A camera is driven by a program that is started once for each operation. The program lists the cameras that
are attached, and one of them is chosen by part of its model and by its port.
-/

namespace Totality

open Text

/-! ### Programs -/

/-- What comes of starting a program. -/
inductive Reply where
  | refused (fault : HostFault)
  | exited (code : Nat) (out err : String)
  /-- The program does not end. -/
  | hangs

/-! ### Detection -/

structure DetectedCamera where
  model : String
  port : String
  deriving DecidableEq, Repr

namespace DetectedCamera

/-- A row of the table of cameras: the model, blanks, and the port, which holds none. -/
def ofLine? (line : List Char) : Option DetectedCamera :=
  match cutLast? isBlank (trim line) with
  | none => none
  | some (model, port) =>
    let model := trim model
    if model.isEmpty then none else some ⟨String.ofList model, String.ofList port⟩

/-- A line of dashes, which ends the head of the table. -/
def isRule (line : List Char) : Bool := "---".toList.isPrefixOf (trimStart line)

/-- The cameras in a table, which begins below a line of dashes. -/
def ofTable (table : List Char) : List DetectedCamera :=
  (((lines table).dropWhile fun line => !isRule line).drop 1).filterMap ofLine?

/-- Whether a camera has a part of a model in its own, and has a port. -/
def isWanted (model port : Option String) (c : DetectedCamera) : Bool :=
  (model.all fun m => Text.contains m.toList c.model.toList) && port.all fun p => c.port == p

/-- Choose a camera: the first if nothing is asked for, else the only one that is wanted. -/
def select (cameras : List DetectedCamera) (model port : Option String) :
    Except DeviceError DetectedCamera :=
  if model.isNone && port.isNone then
    match cameras with
    | [] => .error (.initFailed "no cameras detected")
    | c :: _ => .ok c
  else
    match cameras.filter (isWanted model port) with
    | [] => .error (.initFailed "no connected cameras match")
    | [c] => .ok c
    | _ => .error (.initFailed "camera model and/or port are not specific enough")

end DetectedCamera

/-! ### Operation -/

/-- A camera that was chosen, and the exposure that it is to be set to. -/
structure Camera where
  program : String
  detected : DetectedCamera
  staged : Option Exposure := none

/-- What a program writes as a complaint, without the blanks around it. -/
def complaint (err : String) : String := trimmed err

def exitText (program : String) (code : Nat) : String :=
  program ++ " exited with exit status: " ++ toString code

namespace Camera

/-- The arguments that ask for the table of cameras. -/
def detectArguments : List String := ["--auto-detect"]

/-- Choose a camera from what the program answers. -/
def connect (program : String) (model port : Option String) : Reply → Except DeviceError Camera
  | .refused fault => .error (.initFailed ("running " ++ program ++ ": " ++ fault.message))
  | .hangs => .error (.initFailed ("running " ++ program))
  | .exited code out err =>
    if code = 0 then
      (DetectedCamera.select (DetectedCamera.ofTable out.toList) model port).map fun c => { program, detected := c }
    else .error (.initFailed (program ++ " --auto-detect failed: " ++ complaint err))

/-- All arguments of an operation on the camera. -/
def arguments (c : Camera) (operation : List String) : List String :=
  ["--camera", c.detected.model, "--port", c.detected.port] ++ operation

def stage (c : Camera) (e : Exposure) : Camera := { c with staged := some e }

/-- The operation that sets an exposure. -/
def settings (e : Exposure) : List String :=
  ["--set-config", "aperture=" ++ e.aperture.text, "--set-config", "iso=" ++ toString e.iso,
    "--set-config", "shutterspeed=" ++ Shutter.text e.shutter]

/-- The operation that takes a picture and waits for it. -/
def triggering : List String := ["--trigger-capture", "--wait-event=1f"]

/-- What is to be started to apply the staged exposure, if there is one; it is staged no longer. -/
def apply (c : Camera) : Option (List String) × Camera :=
  (c.staged.map fun e => c.arguments (settings e), { c with staged := none })

/-- What comes of an operation that may take `limit` milliseconds, if there is a limit. A program that has no
time at all is given up as soon as it is started. -/
def outcome (c : Camera) (limit : Option Nat) : Reply → Except DeviceError Unit
  | .refused fault => .error (.host fault)
  | .hangs => .error (.timeout (limit.getD 0))
  | .exited code _ err =>
    if limit = some 0 then .error (.timeout 0)
    else if code = 0 then .ok ()
    else .error (.commandFailed (exitText c.program code ++ ": " ++ complaint err))

end Camera

/-! ### Players -/

/-- A program that plays one sound file each time it is started. -/
structure PlayerProgram where
  program : String
  options : List String

namespace PlayerProgram

def arguments (p : PlayerProgram) (path : String) : List String := p.options ++ [path]

/-- What comes of playing a file. -/
def outcome (p : PlayerProgram) (path : String) : Reply → Except DeviceError Unit
  | .refused fault => .error (.host fault)
  | .hangs => .error (.commandFailed p.program)
  | .exited code _ err =>
    if code = 0 then .ok ()
    else .error (.commandFailed (exitText p.program code ++ " playing " ++ quoted path ++ ": " ++
      complaint err))

end PlayerProgram

end Totality
