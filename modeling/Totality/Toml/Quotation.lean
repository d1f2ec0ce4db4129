/-!
# Quoted texts

The four ways to quote a text: with double quotes, where escapes stand for characters, and with single quotes,
where they do not; and each of them on one line or, with tripled quotes, over several.
-/

namespace Totality.Toml

/-- A character that may stand for itself in a comment or between quotes. -/
def isPlain (c : Char) : Bool := c = '\t' || (0x20 ≤ c.toNat && c.toNat ≠ 0x7F)

/-- A way to quote: the quote, and whether escapes count. -/
structure Quotation where
  mark : Char
  escapes : Bool

namespace Quotation

def double : Quotation := ⟨'"', true⟩

def single : Quotation := ⟨'\'', false⟩

/-! ### Escapes -/

def hexDigit? (c : Char) : Option Nat :=
  if c.isDigit then some (c.toNat - '0'.toNat)
  else if 'a' ≤ c ∧ c ≤ 'f' then some (c.toNat - 'a'.toNat + 10)
  else if 'A' ≤ c ∧ c ≤ 'F' then some (c.toNat - 'A'.toNat + 10)
  else none

/-- The character whose number is given by hexadecimal digits. -/
def coded? (digits : List Char) : Option Char := do
  let ds ← digits.mapM hexDigit?
  let n := ds.foldl (fun v d => v * 16 + d) 0
  if n.isValidChar then some (Char.ofNat n) else none

/-- An escape without its backslash: the character, and how many characters the escape takes. -/
def escape? : List Char → Option (Char × Nat)
  | 'b' :: _ => some ('\x08', 1)
  | 't' :: _ => some ('\t', 1)
  | 'n' :: _ => some ('\n', 1)
  | 'f' :: _ => some ('\x0c', 1)
  | 'r' :: _ => some ('\r', 1)
  | 'e' :: _ => some ('\x1b', 1)
  | '"' :: _ => some ('"', 1)
  | '\\' :: _ => some ('\\', 1)
  | 'x' :: r => number 2 r
  | 'u' :: r => number 4 r
  | 'U' :: r => number 8 r
  | _ => none
where
  number (width : Nat) (r : List Char) : Option (Char × Nat) :=
    if r.length < width then none else (coded? (r.take width)).map fun c => (c, width + 1)

/-- Whether each return is followed by a newline. -/
def returnsPaired : List Char → Bool
  | [] => true
  | '\r' :: '\n' :: r => returnsPaired r
  | '\r' :: _ => false
  | _ :: r => returnsPaired r

/-- How many blanks and line breaks follow a backslash at the end of a line; they are no part of the text. -/
def gap? (cs : List Char) : Option Nat :=
  let run := cs.takeWhile fun c => c = ' ' || c = '\t' || c = '\n' || c = '\r'
  if run.contains '\n' && returnsPaired run then some run.length else none

/-! ### Texts -/

/-- The rest of a text on one line, and what follows its quote. -/
def line (q : Quotation) (cs : List Char) : Option (List Char × List Char) :=
  match cs with
  | [] => none
  | c :: r =>
    if c = q.mark then some ([], r)
    else if q.escapes ∧ c = '\\' then
      match escape? r with
      | none => none
      | some (x, n) => (line q (r.drop n)).map fun (s, rest) => (x :: s, rest)
    else if isPlain c then (line q r).map fun (s, rest) => (c :: s, rest)
    else none
termination_by cs.length

/-- The rest of a text over several lines, and what follows its quotes. Of more than three quotes at its end
up to two belong to the text. -/
def block (q : Quotation) (cs : List Char) : Option (List Char × List Char) :=
  match cs with
  | [] => none
  | c :: r =>
    if c = q.mark ∧ r.take 2 = [q.mark, q.mark] then
      let own := ((r.drop 2).takeWhile (· = q.mark)).take 2
      some (own, r.drop (2 + own.length))
    else if q.escapes ∧ c = '\\' then
      match gap? r with
      | some n => block q (r.drop n)
      | none =>
        match escape? r with
        | none => none
        | some (x, n) => (block q (r.drop n)).map fun (s, rest) => (x :: s, rest)
    else if isPlain c ∨ c = '\n' ∨ (c = '\r' ∧ r.head? = some '\n') then
      (block q r).map fun (s, rest) => (c :: s, rest)
    else none
termination_by cs.length

/-- A line break right after the quotes is no part of a text. -/
def dropBreak : List Char → List Char
  | '\n' :: r => r
  | '\r' :: '\n' :: r => r
  | cs => cs

/-- Read a text at its opening quote, on one line only or in any form. -/
def read? (q : Quotation) (oneLine : Bool) (cs : List Char) : Option (String × List Char) :=
  if !oneLine && cs.take 3 = [q.mark, q.mark, q.mark] then
    (block q (dropBreak (cs.drop 3))).map fun (s, rest) => (String.ofList s, rest)
  else (line q (cs.drop 1)).map fun (s, rest) => (String.ofList s, rest)

end Quotation

end Totality.Toml
