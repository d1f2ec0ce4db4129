import Totality.Calendar.Instant
import Totality.Number.Integer
import Totality.Text.Basic
/-!
# Dates and times in text

Dates are written `YYYY/MM/DD` and times of day `HH:MM:SS.s`, the tenths cut off and not rounded. Reading is
wider: numbers may have any number of digits, and a second any number of decimals, of which six count.
-/

namespace Totality

open Text Calendar

/-! ### Writing -/

def writePadded (width n : Nat) : List Char := padZeros width (digitsOf n)

/-- A year has at least four digits; a year beyond 9999 shows its sign. -/
def writeYear (year : Int) : List Char :=
  let digits := writePadded 4 year.natAbs
  if year < 0 then '-' :: digits else if 9999 < year then '+' :: digits else digits

def Date.write (sep : Char) (d : Date) : List Char :=
  writeYear d.year ++ sep :: (writePadded 2 d.month ++ sep :: writePadded 2 d.day)

/-- Hours, minutes and seconds; within a leap second the seconds go on to 60. -/
def Stamp.writeClock (s : Stamp) : List Char :=
  let n := s.secondOfDay
  writePadded 2 (n / 3600) ++ ':' :: (writePadded 2 (n / 60 % 60) ++
    ':' :: writePadded 2 (n % 60 + s.nanos / 1000000000))

/-- The date of a stamp as `YYYY/MM/DD`. -/
def Stamp.dateText (s : Stamp) : String := String.ofList (s.date.write '/')

/-- The time of day of a stamp as `HH:MM:SS.s`; within a leap second the tenths stay at nine. -/
def Stamp.timeText (s : Stamp) : String :=
  String.ofList (s.writeClock ++ '.' :: digitsOf (min 9 (s.nanos / 100000000)))

namespace Instant

def dateText (t : Instant) : String := t.stamp.dateText

def timeText (t : Instant) : String := t.stamp.timeText

/-- The fraction of a second with as many groups of three digits as it needs. -/
def writeFraction (nanos : Nat) : List Char :=
  if nanos = 0 then []
  else if nanos % 1000000 = 0 then '.' :: writePadded 3 (nanos / 1000000)
  else if nanos % 1000 = 0 then '.' :: writePadded 6 (nanos / 1000)
  else '.' :: writePadded 9 nanos

/-- An instant in a message: `2024-04-08 18:00:00.500 UTC`. -/
def text (t : Instant) : String :=
  let s := t.stamp
  String.ofList (s.date.write '-' ++ ' ' :: s.writeClock ++ writeFraction s.nanos) ++ " UTC"

end Instant

/-! ### Reading -/

/-- Read a date `YYYY/MM/DD`. Blanks around the numbers do not count. -/
def Date.read? (cs : List Char) : Option Date :=
  match splitAt '/' (trim cs) with
  | [y, m, d] => do
    let year ← (IntegerRange.signed 32).read? (trim y)
    let month ← readNat? 32 (trim m)
    let day ← readNat? 32 (trim d)
    ofYearMonthDay? year month day
  | _ => none

/-- The microseconds of a decimal fraction of a second, further digits cut off. -/
def readFraction? (digits : List Char) : Option Nat :=
  if digits.all Char.isDigit then some (digitsValue ((digits ++ List.replicate 6 '0').take 6)) else none

/-- Read a time of day `HH:MM:SS` with any decimals after the seconds. -/
def DayTime.read? (cs : List Char) : Option DayTime :=
  match splitAt ':' (trim cs) with
  | [h, m, s] => do
    let hour ← readNat? 32 h
    let minute ← readNat? 32 m
    let (whole, fraction) := (cut? (· == '.') s).getD (s, [])
    let second ← readNat? 32 whole
    let micros ← readFraction? fraction
    ofParts? hour minute second micros
  | _ => none

namespace Instant

/-- Read a date and a time of day. -/
def readParts? (date time : List Char) : Option Instant := do
  let d ← Date.read? date
  let t ← DayTime.read? time
  pure (on d t)

/-- Read a date and a time of day with a blank between them. -/
def read? (cs : List Char) : Option Instant := do
  let (date, time) ← cut? isBlank (trim cs)
  readParts? date time

end Instant

end Totality
