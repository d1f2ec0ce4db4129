import Totality.Host.Fault
import Totality.Text.Basic
import Totality.Text.Utf8
/-!
# The working directory

Files are looked for by paths that start at the working directory, which holds files and no directories. Of
other directories it is known that they exist where `/` or `..` leads, and nothing of what they hold.
-/

namespace Totality

open Text

/-- The files of the working directory by name, each name once. -/
structure Directory where
  files : List (String × List UInt8) := []

/-- Where a path leads. -/
inductive Place where
  /-- The working directory. -/
  | here
  /-- Some other directory. -/
  | elsewhere
  | file (name : String)
  deriving DecidableEq

/-- The limits on names and paths, in bytes. -/
def nameLimit : Nat := 255

def pathLimit : Nat := 4095

namespace Directory

def find? (d : Directory) (name : String) : Option (List UInt8) :=
  (d.files.find? fun f => f.1 == name).map Prod.snd

/-- Put a file in the directory, in the place of one with the same name. -/
def put (d : Directory) (name : String) (bytes : List UInt8) : Directory :=
  ⟨(name, bytes) :: d.files.filter fun f => f.1 != name⟩

/-- A component of a path: an empty one and `.` stay where they are, and `..` leads out. -/
inductive Component where
  | same
  | parent
  | named (name : String)

def component : List Char → Component
  | [] | ['.'] => .same
  | ['.', '.'] => .parent
  | name => .named (String.ofList name)

/-- Follow one component of a path. -/
def step (d : Directory) (place : Place) (part : List Char) : Except HostFault Place :=
  match place, component part with
  | .file _, _ => .error .notADirectory
  | _, .same => .ok place
  | _, .parent => .ok .elsewhere
  | _, .named name =>
    if nameLimit < (Utf8.encode name).length then .error .nameTooLong
    else if place = .here ∧ (d.find? name).isSome then .ok (.file name)
    else .error .notFound

/-- Follow components from where an absolute or a relative path starts. -/
def follow (d : Directory) (parts : List (List Char)) : Except HostFault Place :=
  match parts with
  | [] :: _ :: _ => parts.foldlM d.step .elsewhere
  | _ => parts.foldlM d.step .here

/-- The components of a path that can be looked for at all. -/
def parts (path : String) : Except HostFault (List (List Char)) :=
  if path.toList.contains '\x00' then .error .nulInName
  else if path.isEmpty then .error .notFound
  else if pathLimit < (Utf8.encode path).length then .error .nameTooLong
  else .ok (splitAt '/' path.toList)

/-- Open what a path leads to. -/
def locate (d : Directory) (path : String) : Except HostFault Place := do
  d.follow (← parts path)

/-- What is read at a place; a directory cannot be read as a file. -/
def readAt (d : Directory) : Place → Except HostFault (List UInt8)
  | .file name => .ok ((d.find? name).getD [])
  | .here | .elsewhere => .error .isADirectory

/-- The bytes of the file at a path. -/
def read (d : Directory) (path : String) : Except HostFault (List UInt8) := do
  d.readAt (← d.locate path)

/-- The text of the file at a path. -/
def readText (d : Directory) (path : String) : Except HostFault String := do
  match Utf8.decode? (← d.read path) with
  | some text => .ok text
  | none => .error .notUtf8

/-- Whether a path leads to a file. -/
def isFile (d : Directory) (path : String) : Bool :=
  match d.locate path with
  | .ok (.file _) => true
  | _ => false

/-- The directory part of a path and its last component, if that can name a file. -/
def creation (parts : List (List Char)) : List (List Char) × Option String :=
  match parts.getLast? with
  | some [] => ((parts.reverse.dropWhile List.isEmpty).tail.reverse, none)
  | some last =>
    match component last with
    | .named name => (parts.dropLast, some name)
    | _ => (parts.dropLast, none)
  | none => ([], none)

/-- Write a file, which need not have been there. -/
def write (d : Directory) (path : String) (bytes : List UInt8) : Except HostFault Directory := do
  let parts ← parts path
  let (above, name?) := creation parts
  let place ← if above.isEmpty then .ok .here else d.follow (above ++ [[]])
  match name? with
  | none => .error .isADirectory
  | some name =>
    if nameLimit < (Utf8.encode name).length then .error .nameTooLong
    else if place = .here then .ok (d.put name bytes)
    else .error .notFound

end Directory

end Totality
