import SpecAtlas.Json.Value

/-!
Reading JSON text. The reader accepts exactly one value with blanks around it; numbers keep apart
what is written as an integer and what is not.
-/

namespace SpecAtlas.Json

def isBlank (c : Char) : Bool := c == ' ' || c == '\x09' || c == '\x0a' || c == '\x0d'

def skipBlanks (s : List Char) : List Char := s.dropWhile isBlank

def hexValue? (c : Char) : Option Nat :=
  if c.isDigit then some (c.toNat - 48)
  else if 'a' ≤ c && c ≤ 'f' then some (c.toNat - 87)
  else if 'A' ≤ c && c ≤ 'F' then some (c.toNat - 55)
  else none

def hex4? (a b c d : Char) : Option Nat := do
  return (((← hexValue? a) * 16 + (← hexValue? b)) * 16 + (← hexValue? c)) * 16 + (← hexValue? d)

/-- A piece of a string literal: a character, or an escaped half of a surrogate pair. -/
inductive Piece where
  | char (c : Char)
  | high (n : Nat)
  | low (n : Nat)
deriving Repr

def Piece.ofCode (n : Nat) : Piece :=
  if 0xD800 ≤ n && n < 0xDC00 then .high (n - 0xD800)
  else if 0xDC00 ≤ n && n < 0xE000 then .low (n - 0xDC00)
  else .char (Char.ofNat n)

def unescape? (c : Char) : Option Char :=
  if c == '\x22' then some '\x22'
  else if c == '\\' then some '\\'
  else if c == '/' then some '/'
  else if c == 'b' then some '\x08'
  else if c == 'f' then some '\x0c'
  else if c == 'n' then some '\x0a'
  else if c == 'r' then some '\x0d'
  else if c == 't' then some '\x09'
  else none

def pieces? : List Char → Option (List Piece × List Char)
  | [] => none
  | '\\' :: 'u' :: a :: b :: c :: d :: rest => do
    let n ← hex4? a b c d
    let (ps, rest) ← pieces? rest
    return (.ofCode n :: ps, rest)
  | '\\' :: c :: rest => do
    let c ← unescape? c
    let (ps, rest) ← pieces? rest
    return (.char c :: ps, rest)
  | c :: rest =>
    if c == '\x22' then some ([], rest)
    else if c == '\\' || c.toNat < 0x20 then none
    else do
      let (ps, rest) ← pieces? rest
      return (.char c :: ps, rest)

/-- The characters of the pieces; a high half counts only with the low half right behind it. -/
def joinPieces? : List Piece → Option (List Char)
  | [] => some []
  | .char c :: ps => (joinPieces? ps).map (c :: ·)
  | .high h :: .low l :: ps =>
    (joinPieces? ps).map (Char.ofNat (0x10000 + h * 0x400 + l) :: ·)
  | .high _ :: _ => none
  | .low _ :: _ => none

def stringBody? (s : List Char) : Option (Option String × List Char) := do
  let (ps, rest) ← pieces? s
  return ((joinPieces? ps).map String.ofList, rest)

def spanDigits (s : List Char) : List Char × List Char := s.span Char.isDigit

def integerPart? (s : List Char) : Option (List Char × List Char) :=
  match spanDigits s with
  | ([], _) => none
  | ('0' :: _ :: _, _) => none
  | (ds, rest) => some (ds, rest)

def fraction? (s : List Char) : Option (List Char × List Char) :=
  match s with
  | '.' :: rest =>
    match spanDigits rest with
    | ([], _) => none
    | (ds, rest) => some ('.' :: ds, rest)
  | s => some ([], s)

def exponentSign (s : List Char) : List Char × List Char :=
  match s with
  | '+' :: rest => (['+'], rest)
  | '-' :: rest => (['-'], rest)
  | s => ([], s)

def exponent? (s : List Char) : Option (List Char × List Char) :=
  match s with
  | c :: rest =>
    if c == 'e' || c == 'E' then
      let (sign, rest) := exponentSign rest
      match spanDigits rest with
      | ([], _) => none
      | (ds, rest) => some (c :: sign ++ ds, rest)
    else some ([], s)
  | [] => some ([], [])

def number? (negative : Bool) (s : List Char) : Option (Value × List Char) := do
  let (ds, rest) ← integerPart? s
  let (frac, rest) ← fraction? rest
  let (exp, rest) ← exponent? rest
  let n := Text.ofDigits ds
  -- minus zero is kept as it was written
  if frac.isEmpty && exp.isEmpty && !(negative && n == 0) then
    return (.int (if negative then -(n : Int) else n), rest)
  let sign := if negative then ['-'] else []
  return (.real (String.ofList (sign ++ ds ++ frac ++ exp)), rest)

def ofFields (fields : List (Option String × Value)) : Value :=
  match fields.mapM fun (key, v) => key.map (·, v) with
  | some fields => .object fields
  -- an object with a key that is no text can only be passed over
  | none => .unpaired

def word? (word : String) (s : List Char) : Option (List Char) :=
  if word.toList.isPrefixOf s then some (s.drop word.length) else none

mutual

def value? : Nat → List Char → Option (Value × List Char)
  | 0, _ => none
  | n + 1, s =>
    match skipBlanks s with
    | [] => none
    | c :: rest =>
      if c == '[' then
        match skipBlanks rest with
        | ']' :: rest => some (.array [], rest)
        | rest => (items? n rest).map fun (vs, rest) => (.array vs, rest)
      else if c == '\x7b' then
        match skipBlanks rest with
        | '\x7d' :: rest => some (.object [], rest)
        | rest => (fields? n rest).map fun (fs, rest) => (ofFields fs, rest)
      else if c == '\x22' then
        (stringBody? rest).map fun (text, rest) =>
          ((text.map Value.string).getD .unpaired, rest)
      else if c == '-' then number? true rest
      else if c.isDigit then number? false (c :: rest)
      else if c == 'n' then (word? "ull" rest).map fun rest => (.null, rest)
      else if c == 't' then (word? "rue" rest).map fun rest => (.bool true, rest)
      else if c == 'f' then (word? "alse" rest).map fun rest => (.bool false, rest)
      else none

def items? : Nat → List Char → Option (List Value × List Char)
  | 0, _ => none
  | n + 1, s => do
    let (v, rest) ← value? n s
    match skipBlanks rest with
    | ',' :: rest => (items? n rest).map fun (vs, rest) => (v :: vs, rest)
    | ']' :: rest => some ([v], rest)
    | _ => none

def fields? : Nat → List Char → Option (List (Option String × Value) × List Char)
  | 0, _ => none
  | n + 1, s => do
    let '\x22' :: rest := skipBlanks s | none
    let (key, rest) ← stringBody? rest
    let ':' :: rest := skipBlanks rest | none
    let (v, rest) ← value? n rest
    match skipBlanks rest with
    | ',' :: rest => (fields? n rest).map fun (fs, rest) => ((key, v) :: fs, rest)
    | '\x7d' :: rest => some ([(key, v)], rest)
    | _ => none

end

def parse? (s : String) : Option Value := do
  let cs := s.toList
  -- each character takes at most two steps
  let (v, rest) ← value? (2 * cs.length + 2) cs
  guard (skipBlanks rest).isEmpty
  return v

end SpecAtlas.Json
