import Totality.Number.Decimal
/-!
# Whole numbers in text

Reading a whole number of a fixed range: ASCII digits after an optional sign. The first character that is
wrong, or that leaves the range, decides the error.
-/

namespace Totality

/-- Why a text is no whole number of the wanted range. -/
inductive IntegerError where
  | empty
  | badDigit
  | tooLarge
  | tooSmall
  deriving DecidableEq, Repr

namespace IntegerError

def message : IntegerError → String
  | .empty => "cannot parse integer from empty string"
  | .badDigit => "invalid digit found in string"
  | .tooLarge => "number too large to fit in target type"
  | .tooSmall => "number too small to fit in target type"

end IntegerError

/-- A range of whole numbers. -/
structure IntegerRange where
  lo : Int
  hi : Int

namespace IntegerRange

/-- The whole numbers of `bits` binary digits, without and with a sign. -/
def unsigned (bits : Nat) : IntegerRange := ⟨0, (Nat.pow 2 bits : Int) - 1⟩

def signed (bits : Nat) : IntegerRange := ⟨-(Nat.pow 2 (bits - 1) : Int), (Nat.pow 2 (bits - 1) : Int) - 1⟩

/-- Append digits to a magnitude that has to stay within `limit`. -/
def readDigits (limit : Nat) (overflow : IntegerError) : Nat → List Char → Except IntegerError Nat
  | v, [] => .ok v
  | v, c :: cs =>
    if !c.isDigit then .error .badDigit
    else
      let v := v * 10 + (c.toNat - '0'.toNat)
      if limit < v then .error overflow else readDigits limit overflow v cs

/-- Read a number of the range. A minus belongs to a range that reaches below zero. -/
def read (range : IntegerRange) (cs : List Char) : Except IntegerError Int :=
  match cs with
  | [] => .error .empty
  | ['+'] | ['-'] => .error .badDigit
  | '+' :: ds => (readDigits range.hi.toNat .tooLarge 0 ds).map Int.ofNat
  | '-' :: ds =>
    if range.lo < 0 then (readDigits range.lo.natAbs .tooSmall 0 ds).map fun n => -(n : Int)
    else .error .badDigit
  | ds => (readDigits range.hi.toNat .tooLarge 0 ds).map Int.ofNat

def read? (range : IntegerRange) (cs : List Char) : Option Int := (range.read cs).toOption

end IntegerRange

/-- Read a natural number of `bits` binary digits. -/
def readNat? (bits : Nat) (cs : List Char) : Option Nat :=
  ((IntegerRange.unsigned bits).read? cs).map Int.toNat

end Totality
