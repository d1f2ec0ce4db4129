import Totality.Event.TimingExport
import Totality.Host.Directory
import Totality.Script.Compile
import Totality.Text.Quoted
/-!
# Input files

Scripts and timing exports as files. A script has to be valid text; in an export, malformed bytes are replaced.
-/

namespace Totality

open Text

/-- Why an input file gives nothing: it cannot be read, or its content is refused. -/
inductive LoadError (ε : Type) where
  | unreadable (fault : HostFault)
  | refused (error : ε)

/-- Load the script at a path. -/
def Script.load (d : Directory) (path : String) : Except (LoadError CompileError) Script :=
  match d.readText path with
  | .error fault => .error (.unreadable fault)
  | .ok text => (Script.compile text.toList).mapError .refused

/-- What is said about a script that cannot be read. -/
def Script.unreadableMessage (path : String) (fault : HostFault) : String :=
  "reading script " ++ quoted path ++ ": " ++ fault.message

namespace TimingExport

/-- Load the event table of the export at a path. -/
def load (d : Directory) (path : String) : Except (LoadError Error) (EventTable Instant) :=
  match d.read path with
  | .error fault => .error (.unreadable fault)
  | .ok bytes => (TimingExport.read (Utf8.decodeLenient bytes)).mapError .refused

/-- What is said about an export that cannot be read. -/
def unreadableMessage (path : String) (fault : HostFault) : String :=
  "reading timing file " ++ quoted path ++ ": " ++ fault.message

end TimingExport

end Totality
