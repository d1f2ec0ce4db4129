import Totality.Calendar.Date
import Totality.Number.Decimal
import Totality.Text.Basic
import Totality.Toml.Quotation
import Totality.Toml.Value
/-!
# Numbers, flags and times

The values that are written without quotes. Underscores may stand between two digits.
-/

namespace Totality.Toml

open Text

/-- Digits, with underscores between them left out. -/
def digits? (isDigit : Char → Bool) (cs : List Char) : Option (List Char) :=
  let groups := splitAt '_' cs
  if groups.all fun g => !g.isEmpty && g.all isDigit then some groups.flatten else none

/-- Decimal digits without a zero in front. -/
def whole? (cs : List Char) : Option (List Char) :=
  (digits? Char.isDigit cs).filter fun ds => ds.length = 1 || ds.head? != some '0'

/-- Digits of a base, all of them below it. -/
def based? (base : Nat) (cs : List Char) : Option Int := do
  let ds ← digits? (fun c => (Quotation.hexDigit? c).any (· < base)) cs
  pure (ds.foldl (fun v c => v * base + (Quotation.hexDigit? c).getD 0) 0 : Nat)

/-- A whole number: decimal with an optional sign, or with the letter of its base and no sign. -/
def integer? : List Char → Option Int
  | '0' :: 'x' :: r => based? 16 r
  | '0' :: 'o' :: r => based? 8 r
  | '0' :: 'b' :: r => based? 2 r
  | cs =>
    let (negative, r) := takeSign cs
    (whole? r).map fun ds => Binary64.signed negative (digitsValue ds)

/-- Whether a text is a number with a fraction or an exponent. -/
def isReal (cs : List Char) : Bool :=
  let (_, r) := takeSign cs
  if r = "inf".toList ∨ r = "nan".toList then true
  else
    let (mantissa, exponent?) := match cut? (fun c => c = 'e' || c = 'E') r with
      | some (m, e) => (m, some e)
      | none => (r, none)
    let (wholePart, fraction?) := match cut? (· = '.') mantissa with
      | some (w, f) => (w, some f)
      | none => (mantissa, none)
    (exponent?.isSome || fraction?.isSome) && (whole? wholePart).isSome &&
      (fraction?.all fun f => (digits? Char.isDigit f).isSome) &&
      exponent?.all fun e => (digits? Char.isDigit (takeSign e).2).isSome

/-! ### Times -/

/-- Two digits with a value up to a limit. -/
def isTwoDigits (limit : Nat) (cs : List Char) : Bool :=
  cs.length = 2 && cs.all Char.isDigit && digitsValue cs ≤ limit

/-- A day as `YYYY-MM-DD`. -/
def isDay (cs : List Char) : Bool :=
  match splitAt '-' cs with
  | [y, m, d] =>
    y.length = 4 && y.all Char.isDigit && isTwoDigits 12 m && isTwoDigits 31 d &&
      (Date.ofYearMonthDay? (digitsValue y) (digitsValue m) (digitsValue d)).isSome
  | _ => false

/-- A time of day as `HH:MM`, `HH:MM:SS` or with a fraction of a second. -/
def isTimeOfDay (cs : List Char) : Bool :=
  match splitAt ':' cs with
  | [h, m] => isTwoDigits 23 h && isTwoDigits 59 m
  | [h, m, s] =>
    isTwoDigits 23 h && isTwoDigits 59 m &&
      match cut? (· = '.') s with
      | none => isTwoDigits 60 s
      | some (s, f) => isTwoDigits 60 s && !f.isEmpty && f.all Char.isDigit
  | _ => false

/-- A time of day and how far it is from universal time. -/
def isZonedTime (cs : List Char) : Bool :=
  match cutLast? (fun c => c = 'Z' || c = 'z' || c = '+' || c = '-') cs with
  | none => false
  | some (t, []) => isTimeOfDay t && (cs.getLast? == some 'Z' || cs.getLast? == some 'z')
  | some (t, offset) =>
    isTimeOfDay t && !(cs.contains 'Z' || cs.contains 'z') &&
      match splitAt ':' offset with
      | [h, m] => isTwoDigits 23 h && isTwoDigits 59 m
      | _ => false

/-- A day, a time of day, or a day and a time with `T` or a blank between them. -/
def isMoment (cs : List Char) : Bool :=
  isDay cs || isTimeOfDay cs ||
    match cut? (fun c => c = 'T' || c = 't' || c = ' ') cs with
    | none => false
    | some (d, t) => isDay d && (isTimeOfDay t || isZonedTime t)

/-! ### Values -/

/-- The characters of values without quotes. -/
def isScalarChar (c : Char) : Bool :=
  c.isAlphanum || c = '+' || c = '-' || c = '_' || c = '.' || c = ':'

/-- The value that a text without quotes stands for. -/
def scalar? (cs : List Char) : Option Value :=
  if cs = "true".toList then some (.flag true)
  else if cs = "false".toList then some (.flag false)
  else
    match integer? cs with
    | some n => some (.integer n)
    | none =>
      if isReal cs then some (.real (String.ofList cs))
      else if isMoment cs then some (.moment (String.ofList cs))
      else none

/-- Where a value without quotes ends: a day goes on behind a blank with a time of day. -/
def takeScalar (cs : List Char) : List Char × List Char :=
  let word := cs.takeWhile isScalarChar
  let rest := cs.dropWhile isScalarChar
  match rest with
  | ' ' :: d :: r =>
    if isDay word ∧ d.isDigit then
      (word ++ ' ' :: (d :: r).takeWhile isScalarChar, (d :: r).dropWhile isScalarChar)
    else (word, rest)
  | _ => (word, rest)

/-- Read a value without quotes. -/
def readScalar? (cs : List Char) : Option (Value × List Char) :=
  let (word, rest) := takeScalar cs
  (scalar? word).map fun v => (v, rest)

end Totality.Toml
