import Totality.Calendar.Notation
import Totality.LogLevel
/-!
# The command line

The arguments of a call name a command and say how to carry it out. Options stand in any order, also behind
what they do not belong to; a value is looked at only when the next argument has been recognised.
-/

namespace Totality

/-! ### What a command line says -/

/-- How to compile a script. -/
structure CompileOptions where
  script : String
  timingFile : String
  output : Option String
  deriving DecidableEq

/-- How to replay a sequence. -/
structure RunOptions where
  sequence : String
  time : Option Instant
  noSound : Bool
  noCamera : Bool
  model : Option String
  port : Option String
  soundsDir : Option String
  dryRun : Bool
  deriving DecidableEq

inductive Order where
  | compile (options : CompileOptions)
  | run (options : RunOptions)
  deriving DecidableEq

/-- A whole command line. -/
structure Usage where
  config : Option String
  logLevel : Option LogLevel
  order : Order
  deriving DecidableEq

/-- Why a command line gives no order. -/
inductive UsageError where
  | missingArgument
  | missingCommand
  | unknownArgument
  | unknownCommand
  /-- An option is given twice. -/
  | conflict
  /-- An option lacks its value, or its value is of no use. -/
  | invalidValue
  /-- A flag is given a value. -/
  | tooManyValues
  /-- A time that cannot be read. -/
  | invalidTime (text : String)
  /-- There are no arguments. -/
  | nothingSaid
  | helpWanted
  | versionWanted
  deriving DecidableEq, Repr

/-- What is said about a time that cannot be read. -/
def UsageError.timeMessage (text : String) : String :=
  "expected \"YYYY/MM/DD HH:MM:SS.s\" with an optional trailing Z, got '" ++ text ++ "'"

def UsageError.message : UsageError → String
  | .missingArgument => "a required argument is missing"
  | .missingCommand => "a command is missing"
  | .unknownArgument => "unexpected argument"
  | .unknownCommand => "unknown command"
  | .conflict => "an option is given twice"
  | .invalidValue => "an option lacks a valid value"
  | .tooManyValues => "a flag takes no value"
  | .invalidTime text => UsageError.timeMessage text
  | .nothingSaid | .helpWanted =>
    "usage: eclipse-sequencer [--config PATH] [--log-level LEVEL] COMMAND\n\n" ++
    "  compile SCRIPT -t FILE [-o OUT]\n" ++
    "  run SEQUENCE [-t DATETIME] [--no-sound] [--no-camera] [--model MODEL] [--port PORT]\n" ++
    "      [--sounds-dir DIR] [--dry-run]"
  | .versionWanted => "eclipse-sequencer 0.1.0"

namespace Usage

/-! ### Options -/

/-- One thing that a command line says. -/
inductive Remark where
  | config (path : String)
  | logLevel (level : LogLevel)
  | script (path : String)
  | timingFile (path : String)
  | output (path : String)
  | sequence (path : String)
  | time (t : Instant)
  | noSound
  | noCamera
  | model (name : String)
  | port (name : String)
  | soundsDir (path : String)
  | dryRun

/-- A place for a value: its name, and how the value is read. -/
structure Slot where
  name : String
  read : String → Except UsageError Remark

/-- What an option asks for. -/
inductive Request where
  | value (read : String → Except UsageError Remark)
  | flag (remark : Remark)
  | stop (error : UsageError)

structure Switch where
  name : String
  letter : Option Char
  request : Request

/-- What may be said at one level of the command line. -/
structure Grammar where
  switches : List Switch
  /-- The values without an option in front, in order. -/
  slots : List Slot
  commands : List String

/-- A path may not be empty. -/
def readPath (remark : String → Remark) (s : String) : Except UsageError Remark :=
  if s.isEmpty then .error .invalidValue else .ok (remark s)

def readLevel (s : String) : Except UsageError Remark :=
  match LogLevel.ofWord? s with
  | some l => .ok (.logLevel l)
  | none => .error .invalidValue

/-- Read a time; a trailing `Z` adds nothing, since all times are universal. -/
def readTime (s : String) : Except UsageError Remark :=
  let text := Text.trim s.toList
  match Instant.read? (if text.getLast? = some 'Z' then text.dropLast else text) with
  | some t => .ok (.time t)
  | none => .error (.invalidTime (String.ofList text))

def helpSwitch : Switch := ⟨"help", some 'h', .stop .helpWanted⟩

/-- The options that every level knows. -/
def commonSwitches : List Switch := [
  ⟨"config", none, .value (readPath .config)⟩,
  ⟨"log-level", none, .value readLevel⟩,
  helpSwitch]

def mainGrammar : Grammar where
  switches := commonSwitches ++ [⟨"version", some 'V', .stop .versionWanted⟩]
  slots := []
  commands := ["compile", "run", "help"]

def compileGrammar : Grammar where
  switches := commonSwitches ++ [
    ⟨"timing-file", some 't', .value (readPath .timingFile)⟩,
    ⟨"output", some 'o', .value (readPath .output)⟩]
  slots := [⟨"SCRIPT", readPath .script⟩]
  commands := []

def runGrammar : Grammar where
  switches := commonSwitches ++ [
    ⟨"time", some 't', .value readTime⟩,
    ⟨"no-sound", none, .flag .noSound⟩,
    ⟨"no-camera", none, .flag .noCamera⟩,
    ⟨"model", none, .value fun s => .ok (.model s)⟩,
    ⟨"port", none, .value fun s => .ok (.port s)⟩,
    ⟨"sounds-dir", none, .value (readPath .soundsDir)⟩,
    ⟨"dry-run", none, .flag .dryRun⟩]
  slots := [⟨"SEQUENCE", readPath .sequence⟩]
  commands := []

/-! ### One level -/

/-- The arguments of a level that were taken in so far. -/
structure Scan where
  /-- What was said, by the names of options and slots. -/
  said : List (String × Remark) := []
  /-- The slot that was named last, with its value once it has one. -/
  pending : Option (Slot × Option String) := none
  /-- How many values came without an option. -/
  filled : Nat := 0
  /-- Whether an argument `--` has ended the options. -/
  escaped : Bool := false

namespace Scan

/-- Take a remark to a name, which may have but one. -/
def say (s : Scan) (name : String) (remark : Except UsageError Remark) : Except UsageError Scan :=
  if s.said.any fun p => p.1 == name then .error .conflict
  else remark.map fun r => { s with said := s.said ++ [(name, r)] }

/-- Look at the value that is pending. -/
def settle (s : Scan) : Except UsageError Scan :=
  match s.pending with
  | none => .ok s
  | some (_, none) => .error .invalidValue
  | some (slot, some value) => say { s with pending := none } slot.name (slot.read value)

/-- Whether an option still wants its value. -/
def waits (s : Scan) : Bool := s.pending.any fun p => p.2.isNone

/-- Take in an option, with the value that is attached to it. -/
def option (s : Scan) (w : Switch) (attached : Option String) : Except UsageError Scan := do
  match w.request, attached with
  | .stop e, _ => let _ ← s.settle; .error e
  | .flag remark, _ => (← s.settle).say w.name (.ok remark)
  | .value read, some v => (← s.settle).say w.name (read v)
  | .value read, none => pure { ← s.settle with pending := some (⟨w.name, read⟩, none) }

/-- Take in an argument that begins with two dashes. -/
def long (g : Grammar) (s : Scan) (arg : List Char) : Except UsageError Scan :=
  let (name, attached) := match Text.cut? (· = '=') arg with
    | some (name, v) => (String.ofList name, some (String.ofList v))
    | none => (String.ofList arg, none)
  match g.switches.find? fun w => w.name == name with
  | none => .error .unknownArgument
  | some w =>
    match w.request, attached with
    | .value _, _ | _, none => s.option w attached
    | _, some _ => .error .tooManyValues

/-- Take in the letters behind one dash; the letter of an option takes the rest as its value. -/
def short (g : Grammar) (s : Scan) : List Char → Except UsageError Scan
  | [] => .ok s
  | c :: rest =>
    match g.switches.find? fun w => w.letter == some c with
    | none => .error .unknownArgument
    | some w =>
      match w.request, rest with
      | .value _, [] => s.option w none
      | .value _, '=' :: v => s.option w (some (String.ofList v))
      | .value _, v => s.option w (some (String.ofList v))
      | _, _ => do short g (← s.option w none) rest

/-- Take in a value without an option. -/
def bare (g : Grammar) (s : Scan) (arg : String) : Except UsageError Scan :=
  match g.slots[s.filled]? with
  | some slot => do pure { ← s.settle with pending := some (slot, some arg), filled := s.filled + 1 }
  | none =>
    if g.commands.isEmpty || (s.escaped && g.commands.contains arg) then .error .unknownArgument
    else .error .unknownCommand

/-- Take in an argument that is no command. -/
def add (g : Grammar) (s : Scan) (arg : String) : Except UsageError Scan :=
  if s.escaped then s.bare g arg
  else
    match arg.toList with
    | ['-', '-'] => .ok { s with escaped := true }
    | '-' :: '-' :: r => s.long g r
    | '-' :: c :: r => s.short g (c :: r)
    | _ =>
      match s.pending with
      | some (slot, none) => .ok { s with pending := some (slot, some arg) }
      | _ => s.bare g arg

/-- Take in arguments up to a command; the command comes with the arguments behind it. -/
def all (g : Grammar) (s : Scan) : List String → Except UsageError (Scan × Option (String × List String))
  | [] => .ok (s, none)
  | arg :: rest =>
    if !s.escaped && !s.waits && g.commands.contains arg then .ok (s, some (arg, rest))
    else do all g (← s.add g arg) rest

end Scan

/-! ### The whole -/

/-- Everything that is said behind a command. -/
def remarks (g : Grammar) (args : List String) : Except UsageError (List Remark) := do
  let (s, _) ← Scan.all g {} args
  pure ((← s.settle).said.map Prod.snd)

def CompileOptions.of (rs : List Remark) : Except UsageError CompileOptions :=
  let script? := rs.findSome? fun | .script p => some p | _ => none
  let timingFile? := rs.findSome? fun | .timingFile p => some p | _ => none
  match script?, timingFile? with
  | some script, some timingFile =>
    .ok { script, timingFile, output := rs.findSome? fun | .output p => some p | _ => none }
  | _, _ => .error .missingArgument

def RunOptions.of (rs : List Remark) : Except UsageError RunOptions :=
  match rs.findSome? fun | .sequence p => some p | _ => none with
  | none => .error .missingArgument
  | some sequence =>
    .ok {
      sequence
      time := rs.findSome? fun | .time t => some t | _ => none
      noSound := rs.any fun | .noSound => true | _ => false
      noCamera := rs.any fun | .noCamera => true | _ => false
      model := rs.findSome? fun | .model m => some m | _ => none
      port := rs.findSome? fun | .port p => some p | _ => none
      soundsDir := rs.findSome? fun | .soundsDir p => some p | _ => none
      dryRun := rs.any fun | .dryRun => true | _ => false }

/-- The answer to the command `help` with further arguments: help, if they name one command or none. -/
def helpError : List String → UsageError
  | [] => .helpWanted
  | [name] => if mainGrammar.commands.contains name then .helpWanted else .unknownCommand
  | _ => .unknownCommand

/-- The order that follows a command, with all that is said behind the command. -/
def orderOf (command : String) (args : List String) : Except UsageError (Order × List Remark) := do
  if command = "compile" then
    let rs ← remarks compileGrammar args
    pure (.compile (← CompileOptions.of rs), rs)
  else if command = "run" then
    let rs ← remarks runGrammar args
    pure (.run (← RunOptions.of rs), rs)
  else .error (helpError args)

/-- Read the arguments of a call. What the levels have in common counts most where it is said last. -/
def read (args : List String) : Except UsageError Usage := do
  let (s, command?) ← Scan.all mainGrammar {} args
  match command? with
  | none =>
    let s ← s.settle
    .error (if s.said.isEmpty then .nothingSaid else .missingCommand)
  | some (command, rest) =>
    let (order, inner) ← orderOf command rest
    let said := inner ++ (← s.settle).said.map Prod.snd
    pure {
      config := said.findSome? fun | .config p => some p | _ => none
      logLevel := said.findSome? fun | .logLevel l => some l | _ => none
      order }

end Usage

end Totality
