import Totality.Text.Utf8
/-!
# Comma-separated records

A record ends at a newline, a return, or both; empty lines are no records. A quote opens a quoted field only
at its start; within it two quotes stand for one. What follows the closing quote still belongs to the
field, and the end of the input closes everything.
-/

namespace Totality.Csv

/-! ### Reading -/

/-- Where the reader stands. -/
inductive Place where
  | recordStart
  | fieldStart
  | plain
  | quoted
  /-- Behind a quote within a quoted field: it closes the field unless another follows. -/
  | quoteSeen
  deriving DecidableEq, Repr

/-- What has been read: the field in work, the fields before it in its record, and the records before
that, each in reverse. -/
structure Reader where
  place : Place
  field : List UInt8
  fields : List (List UInt8)
  records : List (List (List UInt8))

namespace Reader

def init : Reader := ⟨.recordStart, [], [], []⟩

def quote : UInt8 := 0x22
def comma : UInt8 := 0x2C
def newline : UInt8 := 0x0A
def carriage : UInt8 := 0x0D

def push (r : Reader) (place : Place) (b : UInt8) : Reader := { r with place := place, field := b :: r.field }

def endField (r : Reader) : Reader :=
  { r with place := .fieldStart, field := [], fields := r.field.reverse :: r.fields }

def endRecord (r : Reader) : Reader :=
  ⟨.recordStart, [], [], (r.field.reverse :: r.fields).reverse :: r.records⟩

/-- A byte outside quotes. -/
def plainByte (r : Reader) (b : UInt8) : Reader :=
  if b = comma then r.endField
  else if b = newline ∨ b = carriage then r.endRecord
  else r.push .plain b

def step (r : Reader) (b : UInt8) : Reader :=
  match r.place with
  | .recordStart =>
    if b = newline ∨ b = carriage then r
    else if b = quote then { r with place := .quoted } else r.plainByte b
  | .fieldStart => if b = quote then { r with place := .quoted } else r.plainByte b
  | .plain => r.plainByte b
  | .quoted => if b = quote then { r with place := .quoteSeen } else r.push .quoted b
  | .quoteSeen => if b = quote then r.push .quoted b else r.plainByte b

/-- The records at the end of the input. -/
def finish (r : Reader) : List (List (List UInt8)) :=
  match r.place with
  | .recordStart => r.records.reverse
  | _ => r.endRecord.records.reverse

end Reader

/-- The bytes without a byte order mark in front. -/
def dropMark : List UInt8 → List UInt8
  | 0xEF :: 0xBB :: 0xBF :: r => r
  | bytes => bytes

/-- The records of a file, each a list of fields in bytes. -/
def records (bytes : List UInt8) : List (List (List UInt8)) :=
  ((dropMark bytes).foldl Reader.step .init).finish

/-- The fields of a record as texts, if all of them are well formed. -/
def fieldTexts? (record : List (List UInt8)) : Option (List String) := record.mapM Utf8.decode?

/-! ### Writing -/

/-- A field stands between quotes if it holds a comma, a quote or a line break. -/
def needsQuotes (field : List Char) : Bool :=
  field.any fun c => c = ',' ∨ c = '"' ∨ c = '\r' ∨ c = '\n'

def writeField (field : List Char) : List Char :=
  if needsQuotes field then
    '"' :: field.flatMap (fun c => if c = '"' then ['"', '"'] else [c]) ++ ['"']
  else field

/-- A record of two or more fields as a line. -/
def writeRecord (fields : List String) : List Char :=
  ((fields.map fun f => writeField f.toList).intersperse [',']).flatten ++ ['\n']

end Totality.Csv
