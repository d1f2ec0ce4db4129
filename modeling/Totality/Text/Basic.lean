/-!
# Blanks, fields and lines

A text is handled as its list of characters. Blanks are the characters of Unicode's class White_Space.
-/

namespace Totality.Text

/-- A character of the class White_Space. -/
def isBlank (c : Char) : Bool :=
  let n := c.toNat
  decide ((9 ≤ n ∧ n ≤ 13) ∨ n = 0x20 ∨ n = 0x85 ∨ n = 0xA0 ∨ n = 0x1680 ∨ (0x2000 ≤ n ∧ n ≤ 0x200A) ∨
    n = 0x2028 ∨ n = 0x2029 ∨ n = 0x202F ∨ n = 0x205F ∨ n = 0x3000)

def trimStart (cs : List Char) : List Char := cs.dropWhile isBlank

def trimEnd (cs : List Char) : List Char := (trimStart cs.reverse).reverse

/-- The text without the blanks at both ends. -/
def trim (cs : List Char) : List Char := trimEnd (trimStart cs)

/-- The pieces between separators, at least one. -/
def splitAt (sep : Char) (cs : List Char) : List (List Char) :=
  cs.foldr (fun c pieces =>
    if c = sep then [] :: pieces
    else match pieces with
      | [] => [[c]]
      | p :: ps => (c :: p) :: ps) [[]]

/-- The words between blanks. -/
def words (cs : List Char) : List (List Char) :=
  (cs.foldr (fun c pieces =>
    if isBlank c then [] :: pieces
    else match pieces with
      | [] => [[c]]
      | p :: ps => (c :: p) :: ps) [[]]).filter fun p => !p.isEmpty

/-- The text before and after the first character that satisfies `p`. -/
def cut? (p : Char → Bool) (cs : List Char) : Option (List Char × List Char) :=
  match cs.dropWhile (fun c => !p c) with
  | [] => none
  | _ :: after => some (cs.takeWhile (fun c => !p c), after)

/-- The text before and after the last character that satisfies `p`. -/
def cutLast? (p : Char → Bool) (cs : List Char) : Option (List Char × List Char) :=
  (cut? p cs.reverse).map fun (after, before) => (before.reverse, after.reverse)

/-- A line without the return at its end. -/
def dropReturn (line : List Char) : List Char :=
  if line.getLast? = some '\r' then line.dropLast else line

/-- The lines of a text. A line ends with a newline, or a return and a newline; what follows the last
newline is a line if it is not empty. -/
def lines (cs : List Char) : List (List Char) :=
  let pieces := splitAt '\n' cs
  let rest := pieces.getLast?.getD []
  pieces.dropLast.map dropReturn ++ if rest.isEmpty then [] else [rest]

/-- Whether `part` occurs in the text. -/
def contains (part : List Char) : List Char → Bool
  | [] => part.isEmpty
  | c :: cs => part.isPrefixOf (c :: cs) || contains part cs

/-- The text without the blanks at both ends, as a string. -/
def trimmed (s : String) : String := String.ofList (trim s.toList)

end Totality.Text
