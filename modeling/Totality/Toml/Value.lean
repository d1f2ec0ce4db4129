/-!
# Values and tables

A document is a table of values by their names. A table remembers how it came to be, for that decides whether
a later line may still add to it.
-/

namespace Totality.Toml

/-- How a table came to be. -/
inductive Origin where
  /-- It has a header of its own. -/
  | header
  /-- It lies on the path of a header. -/
  | implied
  /-- It lies on the path of a dotted key. -/
  | dotted
  /-- It is written as a value. -/
  | inline
  deriving DecidableEq, Repr

inductive Value where
  | text (s : String)
  | integer (n : Int)
  | flag (b : Bool)
  /-- A number with a fraction or an exponent, as it is written. -/
  | real (written : String)
  /-- A day, a time of day or both, as written. -/
  | moment (written : String)
  | array (items : List Value)
  | table (origin : Origin) (entries : List (String × Value))
  /-- Tables under one header that is repeated; the last may still grow. -/
  | tables (before : List Value) (last : List (String × Value))

abbrev Entries := List (String × Value)

/-- A key with the keys in front of it. -/
structure Key where
  path : List String
  last : String

namespace Entries

def get? (es : Entries) (name : String) : Option Value := (es.find? fun e => e.1 == name).map Prod.snd

/-- Put a value under a name, in the place of one that is there. -/
def put (es : Entries) (name : String) (v : Value) : Entries :=
  if (es.get? name).isSome then es.map fun e => if e.1 == name then (name, v) else e
  else es ++ [(name, v)]

/-- Add a value under a key. The tables on its path are those of dotted keys, and new ones. -/
def insert (key : String) (v : Value) : List String → Entries → Option Entries
  | [], es => if (es.get? key).isSome then none else some (es ++ [(key, v)])
  | name :: path, es =>
    match es.get? name with
    | none => (insert key v path []).map fun sub => es.put name (.table .dotted sub)
    | some (.table .dotted sub) => (insert key v path sub).map fun sub => es.put name (.table .dotted sub)
    | some _ => none

/-- Change the table that a header's path leads to. Every table but one written as a value lets a header
pass, and of repeated tables the last does. -/
def under (change : Entries → Option Entries) : List String → Entries → Option Entries
  | [], es => change es
  | name :: path, es =>
    match es.get? name with
    | none => (under change path []).map fun sub => es.put name (.table .implied sub)
    | some (.table origin sub) =>
      if origin = .inline then none
      else (under change path sub).map fun sub => es.put name (.table origin sub)
    | some (.tables before last) => (under change path last).map fun last => es.put name (.tables before last)
    | some _ => none

/-- Begin a table that has a header. -/
def openTable (key : String) (es : Entries) : Option Entries :=
  match es.get? key with
  | none => some (es.put key (.table .header []))
  | some (.table .implied sub) => some (es.put key (.table .header sub))
  | some _ => none

/-- Begin another table of those under a repeated header. -/
def openNext (key : String) (es : Entries) : Option Entries :=
  match es.get? key with
  | none => some (es.put key (.tables [] []))
  | some (.tables before last) => some (es.put key (.tables (before ++ [.table .header last]) []))
  | some _ => none

end Entries

end Totality.Toml
