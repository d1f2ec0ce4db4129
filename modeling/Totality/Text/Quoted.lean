import Totality.Text.Unprintable
/-!
# Quoted text

Names in messages stand between double quotes, with quotes and backslashes escaped and every unprintable
character shown by its number.
-/

namespace Totality.Text

/-- The digits of a number in base sixteen, small letters. -/
def hexDigits (n : Nat) : List Char := Nat.toDigits 16 n

/-- How one character is written between quotes. -/
def escape (c : Char) : List Char :=
  if c = '"' then ['\\', '"']
  else if c = '\\' then ['\\', '\\']
  else if c = '\n' then ['\\', 'n']
  else if c = '\r' then ['\\', 'r']
  else if c = '\t' then ['\\', 't']
  else if c.toNat = 0 then ['\\', '0']
  else if isUnprintable c then ['\\', 'u', '\x7b'] ++ hexDigits c.toNat ++ ['\x7d']
  else [c]

/-- The text between double quotes. -/
def quoted (s : String) : String :=
  String.ofList ('"' :: s.toList.flatMap escape ++ ['"'])

end Totality.Text
