import SpecAtlas.Json.Reader

/-!
Strings and keys of TOML. A basic string stands between quotes and has escapes, a literal one stands
between apostrophes and has none; tripled marks allow line breaks.
-/

namespace SpecAtlas.Toml

def isSpace (c : Char) : Bool := c == ' ' || c == '\x09'

def skipSpaces (s : List Char) : List Char := s.dropWhile isSpace

def isTextChar (c : Char) : Bool := c == '\x09' || (0x20 ≤ c.toNat && c.toNat != 0x7F)

def newline? : List Char → Option (List Char)
  | '\x0a' :: rest => some rest
  | '\x0d' :: '\x0a' :: rest => some rest
  | _ => none

def unescape? (c : Char) : Option Char :=
  if c == 'b' then some '\x08'
  else if c == 't' then some '\x09'
  else if c == 'n' then some '\x0a'
  else if c == 'f' then some '\x0c'
  else if c == 'r' then some '\x0d'
  else if c == '\x22' then some '\x22'
  else if c == '\\' then some '\\'
  else none

def scalar? (n : Nat) : Option Char := if n.isValidChar then some (Char.ofNat n) else none

def escape4? (a b c d : Char) : Option Char := (Json.hex4? a b c d).bind scalar?

def escape8? (a b c d e f g h : Char) : Option Char := do
  scalar? ((← Json.hex4? a b c d) * 0x10000 + (← Json.hex4? e f g h))

def prepend (c : Char) (r : List Char × List Char) : List Char × List Char := (c :: r.1, r.2)

def basic? : List Char → Option (List Char × List Char)
  | [] => none
  | '\\' :: 'u' :: a :: b :: c :: d :: rest => do
    return prepend (← escape4? a b c d) (← basic? rest)
  | '\\' :: 'U' :: a :: b :: c :: d :: e :: f :: g :: h :: rest => do
    return prepend (← escape8? a b c d e f g h) (← basic? rest)
  | '\\' :: c :: rest => do
    return prepend (← unescape? c) (← basic? rest)
  | c :: rest =>
    if c == '\x22' then some ([], rest)
    else if c != '\\' && isTextChar c then (basic? rest).map (prepend c)
    else none

def literal? : List Char → Option (List Char × List Char)
  | [] => none
  | c :: rest =>
    if c == '\x27' then some ([], rest)
    else if isTextChar c then (literal? rest).map (prepend c)
    else none

/-- What three quotes or apostrophes at the start close: up to two more of them belong to the
text. -/
def closing? (quote : Char) (s : List Char) : Option (List Char × List Char) :=
  let run := min 5 (s.takeWhile (· == quote)).length
  if 3 ≤ run then some (List.replicate (run - 3) quote, s.drop run) else none

/-- The text of a basic string of several lines, and the rest; `skipping` drops blanks and line
breaks up to the next other character. -/
def longBasic? (skipping : Bool) : List Char → Option (List Char × List Char)
  | [] => none
  | '\x0d' :: '\x0a' :: rest =>
    if skipping then longBasic? true rest else (longBasic? false rest).map (prepend '\x0a')
  | '\\' :: 'u' :: a :: b :: c :: d :: rest => do
    return prepend (← escape4? a b c d) (← longBasic? false rest)
  | '\\' :: 'U' :: a :: b :: c :: d :: e :: f :: g :: h :: rest => do
    return prepend (← escape8? a b c d e f g h) (← longBasic? false rest)
  | '\\' :: c :: rest =>
    -- a backslash at the end of a line, perhaps with blanks between
    if (newline? (skipSpaces (c :: rest))).isSome then
      if c == '\x0d' || c == '\x0a' || isSpace c then longBasic? true rest else none
    else do
      return prepend (← unescape? c) (← longBasic? false rest)
  | c :: rest =>
    if skipping && (isSpace c || c == '\x0a') then longBasic? true rest
    else
      match closing? '\x22' (c :: rest) with
      | some result => some result
      | none =>
        if c == '\x0a' || (c != '\\' && isTextChar c) then
          (longBasic? false rest).map (prepend c)
        else none

def longLiteral? : List Char → Option (List Char × List Char)
  | [] => none
  | '\x0d' :: '\x0a' :: rest => (longLiteral? rest).map (prepend '\x0a')
  | c :: rest =>
    match closing? '\x27' (c :: rest) with
    | some result => some result
    | none =>
      if c == '\x0a' || isTextChar c then (longLiteral? rest).map (prepend c) else none

def afterOpening (s : List Char) : List Char := (newline? s).getD s

def string? : List Char → Option (String × List Char)
  | '\x22' :: '\x22' :: '\x22' :: rest =>
    (longBasic? false (afterOpening rest)).map fun (s, rest) => (String.ofList s, rest)
  | '\x22' :: rest => (basic? rest).map fun (s, rest) => (String.ofList s, rest)
  | '\x27' :: '\x27' :: '\x27' :: rest =>
    (longLiteral? (afterOpening rest)).map fun (s, rest) => (String.ofList s, rest)
  | '\x27' :: rest => (literal? rest).map fun (s, rest) => (String.ofList s, rest)
  | _ => none

def isBareChar (c : Char) : Bool := c.isAlphanum || c == '-' || c == '_'

def keyPart? : List Char → Option (String × List Char)
  | '\x22' :: rest => (basic? rest).map fun (s, rest) => (String.ofList s, rest)
  | '\x27' :: rest => (literal? rest).map fun (s, rest) => (String.ofList s, rest)
  | s =>
    match s.span isBareChar with
    | ([], _) => none
    | (part, rest) => some (String.ofList part, rest)

end SpecAtlas.Toml
