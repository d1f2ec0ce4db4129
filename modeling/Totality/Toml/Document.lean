import Totality.Toml.Scalar
/-!
# Documents

A document is read line by line: a header names the table that the lines below it fill, and every other line
gives a value to a key. Whatever breaks a rule makes the whole document unreadable.
-/

namespace Totality.Toml

/-! ### Between the parts -/

def isGap (c : Char) : Bool := c = ' ' || c = '\t'

def skipGap (cs : List Char) : List Char := cs.dropWhile isGap

/-- Skip blanks, line breaks and comments, to begin within a comment or not. -/
def skipLines (inComment : Bool) : List Char → Option (List Char)
  | [] => some []
  | '\n' :: r => skipLines false r
  | '\r' :: '\n' :: r => skipLines false r
  | c :: r =>
    if inComment then if isPlain c then skipLines true r else none
    else if c = '#' then skipLines true r
    else if isGap c then skipLines false r
    else some (c :: r)

/-- End a line, behind blanks and a comment. -/
def endLine? (cs : List Char) : Option (List Char) :=
  let r := match skipGap cs with
    | '#' :: r => r.dropWhile isPlain
    | r => r
  match r with
  | [] => some []
  | '\n' :: r => some r
  | '\r' :: '\n' :: r => some r
  | _ => none

/-- Skip what may stand on either side of an equals sign: blanks, and within braces also line breaks and
comments. -/
def skipAround (braces : Bool) (cs : List Char) : Option (List Char) :=
  if braces then skipLines false cs else some (skipGap cs)

/-! ### Keys -/

def isBareChar (c : Char) : Bool := c.isAlphanum || c = '-' || c = '_'

/-- Read one part of a key: quoted on one line, or bare. -/
def readName? (cs : List Char) : Option (String × List Char) :=
  match cs with
  | '"' :: _ => Quotation.double.read? true cs
  | '\'' :: _ => Quotation.single.read? true cs
  | _ =>
    let name := cs.takeWhile isBareChar
    if name.isEmpty then none else some (String.ofList name, cs.dropWhile isBareChar)

/-- How deep arrays and tables may lie in each other, and how many parts a key may have. -/
def depthLimit : Nat := 80

/-- Read a key of at most `parts` parts with dots between them, and the blanks around them. -/
def readKey? (parts : Nat) (cs : List Char) : Option (Key × List Char) :=
  match parts with
  | 0 => none
  | parts + 1 => do
    let (name, r) ← readName? (skipGap cs)
    match skipGap r with
    | '.' :: r =>
      let (key, r) ← readKey? parts r
      pure (⟨name :: key.path, key.last⟩, r)
    | r => pure (⟨[], name⟩, r)

/-! ### Values -/

mutual

/-- Read a value that is not longer than `fuel`, in which `depth` arrays and tables may be open at once. -/
def readValue? (fuel depth : Nat) (cs : List Char) : Option (Value × List Char) :=
  match fuel with
  | 0 => none
  | fuel + 1 =>
    match cs with
    | '"' :: _ => (Quotation.double.read? false cs).map fun (s, r) => (.text s, r)
    | '\'' :: _ => (Quotation.single.read? false cs).map fun (s, r) => (.text s, r)
    | '[' :: r => if depth = 0 then none else readItems? fuel (depth - 1) [] r
    | '\x7b' :: r => if depth = 0 then none else readPairs? fuel (depth - 1) [] r
    | _ => readScalar? cs

/-- Read the rest of an array behind the items that it has so far, which are kept in reverse. -/
def readItems? (fuel depth : Nat) (done : List Value) (cs : List Char) : Option (Value × List Char) :=
  match fuel with
  | 0 => none
  | fuel + 1 => do
    match ← skipLines false cs with
    | ']' :: r => pure (.array done.reverse, r)
    | cs =>
      let (v, r) ← readValue? fuel depth cs
      match ← skipLines false r with
      | ',' :: r => readItems? fuel depth (v :: done) r
      | ']' :: r => pure (.array (v :: done).reverse, r)
      | _ => none

/-- Read the rest of a table that is written as a value. -/
def readPairs? (fuel depth : Nat) (done : Entries) (cs : List Char) : Option (Value × List Char) :=
  match fuel with
  | 0 => none
  | fuel + 1 => do
    match ← skipLines false cs with
    | '\x7d' :: r => pure (.table .inline done, r)
    | cs =>
      let (key, v, r) ← readPair? true fuel depth cs
      let done ← done.insert key.last v key.path
      match ← skipLines false r with
      | ',' :: r => readPairs? fuel depth done r
      | '\x7d' :: r => pure (.table .inline done, r)
      | _ => none

/-- Read a key and its value, within braces or on a line of its own. -/
def readPair? (braces : Bool) (fuel depth : Nat) (cs : List Char) : Option (Key × Value × List Char) :=
  match fuel with
  | 0 => none
  | fuel + 1 => do
    let (key, r) ← readKey? depthLimit cs
    match ← skipAround braces r with
    | '=' :: r =>
      let (v, r) ← readValue? fuel depth (← skipAround braces r)
      pure (key, v, r)
    | _ => none

end

/-! ### Lines -/

inductive Line where
  | header (key : Key)
  | repeated (key : Key)
  | pair (key : Key) (value : Value)

/-- Read the line that begins a text, and the end of the line. -/
def readLine? (cs : List Char) : Option (Line × List Char) := do
  match cs with
  | '[' :: '[' :: r =>
    match ← readKey? depthLimit r with
    | (key, ']' :: ']' :: r) => pure (.repeated key, ← endLine? r)
    | _ => none
  | '[' :: r =>
    match ← readKey? depthLimit r with
    | (key, ']' :: r) => pure (.header key, ← endLine? r)
    | _ => none
  | _ =>
    let (key, v, r) ← readPair? false (cs.length + 2) depthLimit cs
    pure (.pair key v, ← endLine? r)

/-- A document that was read up to some line: its values, and where the last header leads. -/
structure Draft where
  entries : Entries := []
  current : List String := []

/-- Take in a line. -/
def Draft.add? (d : Draft) : Line → Option Draft
  | .header key => do
    pure ⟨← d.entries.under (Entries.openTable key.last) key.path, key.path ++ [key.last]⟩
  | .repeated key => do
    pure ⟨← d.entries.under (Entries.openNext key.last) key.path, key.path ++ [key.last]⟩
  | .pair key v => do
    pure { d with entries := ← d.entries.under (Entries.insert key.last v key.path) d.current }

/-- Read at most `fuel` lines to the end of the text. -/
def readLines? (fuel : Nat) (d : Draft) (cs : List Char) : Option Draft :=
  match fuel with
  | 0 => none
  | fuel + 1 => do
    match ← skipLines false cs with
    | [] => pure d
    | cs =>
      let (line, r) ← readLine? cs
      readLines? fuel (← d.add? line) r

/-- Read a document; a byte order mark in front of it does not count. -/
def read? (text : String) : Option Entries :=
  let cs := match text.toList with
    | '\uFEFF' :: r => r
    | cs => cs
  (readLines? (cs.length + 1) {} cs).map Draft.entries

end Totality.Toml
