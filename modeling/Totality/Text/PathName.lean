/-!
# Path names

Paths are slash-separated texts. Slashes and components `.` at the end of a path do not count.
-/

namespace Totality.PathName

/-- Drop slashes and components `.` from the end, given the path in reverse. -/
def dropTrailing : List Char → List Char
  | '/' :: r => dropTrailing r
  | '.' :: '/' :: r => dropTrailing r
  | cs => cs

/-- The path up to its last component, and that component: a directory part that is empty or ends with a
slash, and a name without slashes. -/
def splitName (path : List Char) : List Char × List Char :=
  let r := dropTrailing path.reverse
  ((r.dropWhile (· != '/')).reverse, (r.takeWhile (· != '/')).reverse)

/-- The last component as a file name; `.` and `..` are none. -/
def fileName? (path : List Char) : Option (List Char) :=
  let name := (splitName path).2
  if name.isEmpty || name = ['.'] || name = ['.', '.'] then none else some name

/-- A file name without its extension. A dot in front starts no extension. -/
def stem (name : List Char) : List Char :=
  match name.reverse.dropWhile (· != '.') with
  | [] => name
  | _ :: before => if before.isEmpty then name else before.reverse

/-- The path with another extension; a path without a file name stays as it is. Two dots and an extension, at
the very end, leave `..` when the extension is taken off, and that is no file name either. -/
def withExtension (ext path : List Char) : List Char :=
  match fileName? path with
  | none => path
  | some name =>
    let dir := (splitName path).1
    if stem name = ['.'] ∧ dir ++ name = path then dir ++ ['.', '.']
    else dir ++ stem name ++ '.' :: ext

/-- The path `name` seen from the directory `dir`; an absolute name stands for itself. -/
def join (dir name : List Char) : List Char :=
  if name.head? = some '/' || dir.isEmpty then name
  else if dir.getLast? = some '/' then dir ++ name
  else dir ++ '/' :: name

end Totality.PathName
