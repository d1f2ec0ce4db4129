import Totality.Calendar.Notation
import Totality.Event.Table
import Totality.Text.Digit
/-!
# Timing exports

The text in which a prediction program lists contact times and magnitudes, one to a line. Lines of no known
form are passed over. Readings carry a time of day only: their day is that of the first numbered contact.
They belong to the limb before maximum until a magnitude falls, and to the limb after it from there on.
-/

namespace Totality.TimingExport

open Text

/-! ### Forms of lines

Each form is matched from the start of a line, and what follows it does not count.
-/

/-- Exactly `n` digits, and the rest. -/
def takeDigits? : Nat → List Char → Option (List Char × List Char)
  | 0, cs => some ([], cs)
  | n + 1, c :: cs => if isDigit c then (takeDigits? n cs).map fun (ds, r) => (c :: ds, r) else none
  | _ + 1, [] => none

/-- Groups of digits of given lengths, each followed by its separator. -/
def takeGroups? : List (Nat × Char) → Nat → List Char → Option (List Char × List Char)
  | [], n, cs => takeDigits? n cs
  | (k, sep) :: groups, n, cs => do
    let (ds, r) ← takeDigits? k cs
    match r with
    | c :: r =>
      if c = sep then
        let (more, r) ← takeGroups? groups n r
        pure (ds ++ c :: more, r)
      else none
    | [] => none

/-- A date `dddd/dd/dd`. -/
def takeDate? : List Char → Option (List Char × List Char) := takeGroups? [(4, '/'), (2, '/')] 2

/-- A time of day `dd:dd:dd.d`. -/
def takeTime? : List Char → Option (List Char × List Char) :=
  takeGroups? [(2, ':'), (2, ':'), (2, '.')] 1

/-- One blank or more. -/
def takeBlanks? : List Char → Option (List Char)
  | c :: cs => if isBlank c then some (trimStart cs) else none
  | [] => none

/-- A character of a decimal number. -/
def isDecimal (c : Char) : Bool := c.isDigit || c == '.'

/-- One or more characters of a decimal number. -/
def takeDecimal? (cs : List Char) : Option (List Char × List Char) :=
  let number := cs.takeWhile isDecimal
  if number.isEmpty then none else some (number, cs.dropWhile isDecimal)

/-- A given text in front, dropped. -/
def takeText? (text : String) (cs : List Char) : Option (List Char) :=
  if text.toList.isPrefixOf cs then some (cs.drop text.toList.length) else none

/-- Blanks, a date, blanks and a time of day. -/
def takeTimestamp? (cs : List Char) : Option (List Char × List Char) := do
  let (date, r) ← takeDate? (← takeBlanks? cs)
  let (time, _) ← takeTime? (← takeBlanks? r)
  pure (date, time)

/-- The decimal number behind the last space that has one behind it. -/
def lastNumber? : List Char → Option (List Char)
  | [] => none
  | c :: cs =>
    match lastNumber? cs with
    | some number => some number
    | none => if c = ' ' then (takeDecimal? cs).map (·.1) else none

/-- A line of a known form, with its texts. -/
inductive Line where
  /-- `1st Contact  2024/04/08  17:02:11.6` -/
  | numberedContact (name : Char) (date time : List Char)
  /-- `C2  2024/04/08  18:18:29.3` -/
  | contact (name : Char) (date time : List Char)
  /-- `Max Eclipse  2024/04/08  18:20:18.0` -/
  | maximum (date time : List Char)
  /-- `Magnitude at maximum : 1.0136` -/
  | maxMagnitude (number : List Char)
  /-- `17:05:00.0  54.1  180.2  0.0213` -/
  | reading (time number : List Char)
  deriving DecidableEq

namespace Line

def numberedContact? : List Char → Option Line
  | c :: _ :: _ :: r => do
    let (date, time) ← takeTimestamp? (← takeText? " Contact" r)
    pure (.numberedContact c date time)
  | _ => none

def contact? : List Char → Option Line
  | 'C' :: c :: r =>
    if isDigit c then (takeTimestamp? r).map fun (date, time) => .contact c date time else none
  | _ => none

def maximum? (cs : List Char) : Option Line := do
  let (date, time) ← takeTimestamp? (← takeText? "Max Eclipse" cs)
  pure (.maximum date time)

def maxMagnitude? (cs : List Char) : Option Line := do
  let number ← lastNumber? (← takeText? "Magnitude at maximum " cs)
  pure (.maxMagnitude number)

def reading? (cs : List Char) : Option Line := do
  let (time, r) ← takeTime? cs
  let (_, r) ← takeDecimal? (← takeBlanks? r)
  let (_, r) ← takeDecimal? (← takeBlanks? r)
  let (number, _) ← takeDecimal? (← takeBlanks? r)
  pure (.reading time number)

/-- The first form that a line has. -/
def ofChars? (cs : List Char) : Option Line :=
  numberedContact? cs <|> contact? cs <|> maximum? cs <|> maxMagnitude? cs <|> reading? cs

end Line

/-! ### Reading -/

/-- What is wrong with a line of a known form. -/
inductive Fault where
  | timestamp
  | timeOfDay
  | number (text : String)
  | undatedReading
  deriving DecidableEq, Repr

def Fault.message : Fault → String
  | .timestamp => "invalid date or time"
  | .timeOfDay => "invalid time of day"
  | .number text => "invalid number '" ++ text ++ "'"
  | .undatedReading => "magnitude reading before any contact line"

/-- Why an export gives no event table. -/
inductive Error where
  | line (number : Nat) (fault : Fault)
  | curve (error : CurveError)
  deriving DecidableEq

def Error.message : Error → String
  | .line number fault => "timing file line " ++ toString number ++ ": " ++ fault.message
  | .curve error => error.message

/-- What the lines so far have told; both limbs are kept in reverse. -/
structure Scan where
  instants : List (String × Instant) := []
  date : Option Date := none
  pre : List (Reading Instant) := []
  post : List (Reading Instant) := []
  falling : Bool := false
  previous : Option Binary64 := none
  maxMagnitude : Option Binary64 := none

namespace Scan

def timestamp (date time : List Char) : Except Fault Instant :=
  match Instant.readParts? date time with
  | some t => .ok t
  | none => .error .timestamp

def number (text : List Char) : Except Fault Binary64 :=
  match Binary64.read? text with
  | some x => .ok x
  | none => .error (.number (String.ofList text))

/-- File a reading under its limb. -/
def addReading (s : Scan) (r : Reading Instant) : Scan :=
  let falling := s.falling || s.previous.any fun p => r.magnitude.lt p
  if falling then { s with falling := true, post := r :: s.post }
  else { s with previous := some r.magnitude, pre := r :: s.pre }

def addLine (s : Scan) : Line → Except Fault Scan
  | .numberedContact c date time => do
    let t ← timestamp date time
    pure { s with
      date := s.date <|> some t.date
      instants := EventTable.put (String.ofList ['C', c]) t s.instants }
  | .contact c date time => do
    let t ← timestamp date time
    pure { s with instants := EventTable.put (String.ofList ['C', c]) t s.instants }
  | .maximum date time => do
    let t ← timestamp date time
    pure { s with instants := EventTable.put "MAX" t s.instants }
  | .maxMagnitude text => do
    let x ← number text
    pure { s with maxMagnitude := some x }
  | .reading time text =>
    match s.date with
    | none => .error .undatedReading
    | some date =>
      match DayTime.read? time with
      | none => .error .timeOfDay
      | some t => do
        let x ← number text
        pure (s.addReading ⟨x, Instant.on date t⟩)

/-- Read lines, the first of which has the given number. -/
def addLines (s : Scan) : Nat → List (List Char) → Except Error Scan
  | _, [] => .ok s
  | n, cs :: rest =>
    match Line.ofChars? cs with
    | none => addLines s (n + 1) rest
    | some line =>
      match s.addLine line with
      | .ok s => addLines s (n + 1) rest
      | .error fault => .error (.line n fault)

def table (s : Scan) : Except Error (EventTable Instant) :=
  match EventTable.ofReadings s.instants s.pre.reverse s.post.reverse s.maxMagnitude with
  | .ok t => .ok t
  | .error e => .error (.curve e)

end Scan

/-- The event table of an export. -/
def read (text : List Char) : Except Error (EventTable Instant) := do
  let scan ← Scan.addLines {} 1 (lines text)
  scan.table

end Totality.TimingExport
