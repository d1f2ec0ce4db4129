import Std.Time.DateTime.Timestamp
import Totality.Program
/-!
# Running the program

Reading the files that a command line names, carrying out its order, and writing what it leaves behind. Files
are those of the working directory; no other programs are started.
-/

namespace Totality

/-- The paths that a command line names. -/
def Usage.paths (u : Usage) : List String :=
  u.config.toList ++ match u.order with
    | .compile o => [o.script, o.timingFile] ++ o.output.toList
    | .run o => [o.sequence, Config.defaultPath]

/-- The file of the working directory that a path leads to, if there is no other directory on the path. -/
def localName? (path : String) : Option String :=
  match ((Text.splitAt '/' path.toList).map Directory.component).filterMap (fun
    | .named name => some (some name)
    | .parent => some none
    | .same => none) with
  | [some name] => if path.toList.head? = some '/' then none else some name
  | _ => none

def readFile? (name : String) : IO (Option (String × List UInt8)) := do
  match ← (IO.FS.readBinFile name).toBaseIO with
  | .ok bytes => return some (name, bytes.data.toList)
  | .error _ => return none

def readDirectory (u : Usage) : IO Directory := do
  let files ← (u.paths.filterMap localName?).eraseDups.mapM readFile?
  return ⟨files.filterMap id⟩

/-- Write the files that an order has changed. -/
def writeChanges (before after : Directory) : IO Unit :=
  after.files.forM fun (name, bytes) => do
    if before.find? name != some bytes then IO.FS.writeBinFile name ⟨bytes.toArray⟩

def presentInstant : IO Instant := do
  let t ← Std.Time.Timestamp.now
  return (Instant.ofNanos? t.toNanosecondsSinceUnixEpoch.val).getD .latest

/-- Carry out the order of a command line on this host. -/
def perform (u : Usage) : IO UInt32 := do
  let directory ← readDirectory u
  let outcome := u.outcome ⟨directory, fun _ => .refused .notFound, ← presentInstant⟩
  writeChanges directory outcome.directory
  IO.print outcome.printed
  match outcome.result with
  | .ok _ => return 0
  | .error e =>
    IO.eprintln ("eclipse-sequencer error: " ++ e.message)
    return 1

/-- Read the arguments of a call and carry out their order. -/
def execute (args : List String) : IO UInt32 := do
  match Usage.read args with
  | .ok u => perform u
  | .error e =>
    if e = .helpWanted ∨ e = .versionWanted then
      IO.println e.message
      return 0
    else
      IO.eprintln e.message
      return 2

end Totality

def main (args : List String) : IO UInt32 := Totality.execute args
