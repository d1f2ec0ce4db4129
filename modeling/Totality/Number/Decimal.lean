import Totality.Number.Binary64
/-!
# Decimal numerals

Reading a decimal numeral as the nearest binary64 number, and writing a binary64 number with the fewest
digits that read back as itself. Numerals are always written positionally, without an exponent.
-/

namespace Totality

/-- The decimal number `± coefficient · 10 ^ exponent`. -/
structure Decimal where
  negative : Bool
  coefficient : Nat
  exponent : Int
  deriving DecidableEq, Repr

/-- Why a text is no decimal numeral. -/
inductive NumeralError where
  | empty
  | malformed
  deriving DecidableEq, Repr

namespace NumeralError

def message : NumeralError → String
  | .empty => "cannot parse float from empty string"
  | .malformed => "invalid float literal"

end NumeralError

/-! ### Reading -/

/-- The whole number that a list of decimal digits denotes. -/
def digitsValue (ds : List Char) : Nat :=
  ds.foldl (fun v c => v * 10 + (c.toNat - '0'.toNat)) 0

/-- A sign in front of a numeral, `true` for minus, and what follows it. -/
def takeSign : List Char → Bool × List Char
  | '-' :: r => (true, r)
  | '+' :: r => (false, r)
  | cs => (false, cs)

/-- A whole number with an optional sign, as after the `e` of a numeral. -/
def readExponent? (cs : List Char) : Option Int :=
  let (negative, ds) := takeSign cs
  if ds.isEmpty || !ds.all Char.isDigit then none
  else some (Binary64.signed negative (digitsValue ds))

namespace Decimal

/-- An unsigned numeral: digits with an optional point, at least one digit, an optional exponent. -/
def ofUnsigned? (negative : Bool) (cs : List Char) : Option Decimal :=
  let whole := cs.takeWhile Char.isDigit
  let afterWhole := cs.dropWhile Char.isDigit
  let (fraction, rest) := match afterWhole with
    | '.' :: r => (r.takeWhile Char.isDigit, r.dropWhile Char.isDigit)
    | r => ([], r)
  if whole.isEmpty && fraction.isEmpty then none
  else
    let coefficient := digitsValue (whole ++ fraction)
    let places : Int := fraction.length
    match rest with
    | [] => some ⟨negative, coefficient, -places⟩
    | c :: r =>
      if c = 'e' ∨ c = 'E' then
        (readExponent? r).map fun e => ⟨negative, coefficient, e - places⟩
      else none

/-- The nearest binary64 number. Beyond `10 ^ 400`, and below `10 ^ -400`, a larger exponent changes
nothing, so the exponent is cut there. -/
def toBinary64 (d : Decimal) : Binary64 :=
  let up := (min d.exponent 400).toNat
  let down := min (-d.exponent).toNat (401 + d.coefficient.log2)
  Binary64.ofUnits d.negative (d.coefficient * Nat.pow 10 up * Binary64.scale) (Nat.pow 10 down)

end Decimal

namespace Binary64

/-- The names of the special numbers, in any case. -/
def ofName? (negative : Bool) (cs : List Char) : Option Binary64 :=
  let name := cs.map Char.toLower
  if name = "inf".toList ∨ name = "infinity".toList then some (.infinity negative)
  else if name = "nan".toList then some .nan
  else none

/-- Read a numeral: an optional sign, then a decimal number or the name of a special one. -/
def read (cs : List Char) : Except NumeralError Binary64 :=
  if cs.isEmpty then .error .empty
  else
    let (negative, body) := takeSign cs
    match Decimal.ofUnsigned? negative body with
    | some d => .ok d.toBinary64
    | none =>
      match ofName? negative body with
      | some x => .ok x
      | none => .error .malformed

def read? (cs : List Char) : Option Binary64 := (read cs).toOption

/-! ### Writing

The numbers that round to `n` units form an interval. The coarsest decimal grid that has a point in it
gives the fewest digits; of its points in the interval the nearest to `n` is written, of two equally
near the larger.
-/

/-- Twice the lower and the upper end of the rounding interval of `n` units, in quarter units: the gap
below a power of two is half the gap above it. -/
def interval (n : Nat) : Nat × Nat :=
  let s := spacing n
  let below := if s > 1 ∧ n = 4503599627370496 * s then s else 2 * s
  (4 * n - below, 4 * n + 2 * s)

/-- Whether `c · 10 ^ e` rounds to `n` units; the ends belong to an even significand. -/
def roundsTo (n c : Nat) (e : Int) : Bool :=
  let (lo, hi) := interval n
  let point := 4 * c * Nat.pow 10 e.toNat * scale
  let one := Nat.pow 10 (-e).toNat
  if n / spacing n % 2 = 0 then decide (lo * one ≤ point ∧ point ≤ hi * one)
  else decide (lo * one < point ∧ point < hi * one)

/-- The multiple of `10 ^ e` that is written for `n` units, if one rounds to it. -/
def gridPoint? (n : Nat) (e : Int) : Option Nat :=
  let num := n * Nat.pow 10 (-e).toNat
  let den := Nat.pow 10 e.toNat * scale
  let c := num / den
  match roundsTo n c e, roundsTo n (c + 1) e with
  | true, true => some (if 2 * (num % den) < den then c else c + 1)
  | true, false => some c
  | false, true => some (c + 1)
  | false, false => none

/-- Try the grids `10 ^ (k - 1074)` for falling `k`. On the last one every number is a point. -/
def shortestFrom (n : Nat) : Nat → Nat × Int
  | 0 => (n * Nat.pow 5 1074, -1074)
  | k + 1 =>
    match gridPoint? n ((k + 1 : Nat) - 1074) with
    | some c => (c, (k + 1 : Nat) - 1074)
    | none => shortestFrom n k

/-- A decimal grid that is coarser than the magnitude of `n` units, counted from `10 ^ -1074`. -/
def coarseGrid (n : Nat) : Nat :=
  let bits := n.log2 + 1
  if bits ≤ 1074 then 1074 - (1074 - bits) * 301 / 1000
  else 1074 + (bits - 1074) * 302 / 1000 + 1

/-- The shortest decimal that reads back as `n` units, as a coefficient and an exponent. -/
def shortest (n : Nat) : Nat × Int :=
  if n = 0 then (0, 0) else shortestFrom n (coarseGrid n)

end Binary64

/-- The decimal digits of a whole number. -/
def digitsOf (n : Nat) : List Char := Nat.toDigits 10 n

/-- Zeros in front, up to `width` characters. -/
def padZeros (width : Nat) (cs : List Char) : List Char :=
  List.replicate (width - cs.length) '0' ++ cs

/-- `coefficient · 10 ^ exponent` written without an exponent. -/
def writePositional (coefficient : Nat) (exponent : Int) : List Char :=
  let ds := digitsOf coefficient
  if 0 ≤ exponent then
    if coefficient = 0 then ds else ds ++ List.replicate exponent.toNat '0'
  else
    let places := (-exponent).toNat
    let ds := padZeros (places + 1) ds
    ds.take (ds.length - places) ++ '.' :: ds.drop (ds.length - places)

def writeSign (negative : Bool) (cs : List Char) : List Char :=
  if negative then '-' :: cs else cs

namespace Binary64

/-- The shortest text that reads back as the same number. -/
def write : Binary64 → List Char
  | .nan => "NaN".toList
  | .infinity s => writeSign s "inf".toList
  | .finite s n _ => writeSign s (writePositional (shortest n).1 (shortest n).2)

/-- One decimal of the exact value, a tie to the even digit, zeros in front up to four characters. -/
def writeTenths : Binary64 → List Char
  | .nan => " NaN".toList
  | .infinity s => if s then "-inf".toList else " inf".toList
  | .finite s n _ =>
    let tenths := roundHalfEven (n * 10) scale
    let body := digitsOf (tenths / 10) ++ '.' :: digitsOf (tenths % 10)
    writeSign s (padZeros (if s then 3 else 4) body)

def text (x : Binary64) : String := String.ofList x.write

end Binary64

end Totality
