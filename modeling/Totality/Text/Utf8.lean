/-!
# Texts as bytes

Strict decoding refuses malformed bytes; lenient decoding puts U+FFFD in the place of each malformed
part, the longest start of a character counting as one part.
-/

namespace Totality.Utf8

def encode (s : String) : List UInt8 := s.toUTF8.data.toList

/-- The text that the bytes encode, if they are well formed. -/
def decode? (bytes : List UInt8) : Option String := String.fromUTF8? ⟨bytes.toArray⟩

/-- The start of a character: its bits so far, how many bytes are missing, and where the next may lie. -/
structure Partial where
  bits : Nat
  missing : Nat
  lo : Nat
  hi : Nat

/-- What stands for a malformed part. -/
def replacement : Char := '\uFFFD'

/-- Begin a character with a byte. -/
def start (out : List Char) (b : Nat) : List Char × Option Partial :=
  if b < 0x80 then (Char.ofNat b :: out, none)
  else if 0xC2 ≤ b ∧ b ≤ 0xDF then (out, some ⟨b - 0xC0, 1, 0x80, 0xBF⟩)
  else if 0xE0 ≤ b ∧ b ≤ 0xEF then
    (out, some ⟨b - 0xE0, 2, if b = 0xE0 then 0xA0 else 0x80, if b = 0xED then 0x9F else 0xBF⟩)
  else if 0xF0 ≤ b ∧ b ≤ 0xF4 then
    (out, some ⟨b - 0xF0, 3, if b = 0xF0 then 0x90 else 0x80, if b = 0xF4 then 0x8F else 0xBF⟩)
  else (replacement :: out, none)

/-- Take one byte; the characters so far are kept in reverse. -/
def step (state : List Char × Option Partial) (byte : UInt8) : List Char × Option Partial :=
  let b := byte.toNat
  match state with
  | (out, none) => start out b
  | (out, some p) =>
    if p.lo ≤ b ∧ b ≤ p.hi then
      let bits := p.bits * 64 + (b - 0x80)
      if p.missing = 1 then (Char.ofNat bits :: out, none)
      else (out, some ⟨bits, p.missing - 1, 0x80, 0xBF⟩)
    else start (replacement :: out) b

/-- The text of bytes that need not be well formed. -/
def decodeLenient (bytes : List UInt8) : List Char :=
  match bytes.foldl step ([], none) with
  | (out, none) => out.reverse
  | (out, some _) => (replacement :: out).reverse

end Totality.Utf8
