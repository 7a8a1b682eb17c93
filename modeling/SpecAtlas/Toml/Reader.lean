import SpecAtlas.Toml.Number

/-!
Reading TOML documents. Nesting of arrays and inline tables and the length of dotted keys are
limited.
-/

namespace SpecAtlas.Toml

def depthLimit : Nat := 80

def skipGap (inComment : Bool) : List Char → List Char
  | [] => []
  | '\x0d' :: '\x0a' :: rest => skipGap false rest
  | c :: rest =>
    if c == '\x0a' then skipGap false rest
    else if inComment then if isTextChar c then skipGap true rest else c :: rest
    else if isSpace c then skipGap false rest
    else if c == '#' then skipGap true rest
    else c :: rest

def lineEnd? (s : List Char) : Option (List Char) :=
  let rest := match skipSpaces s with
    | '#' :: rest => rest.dropWhile isTextChar
    | rest => rest
  if rest.isEmpty then some [] else newline? rest

def keyParts? : Nat → List Char → Option (List String × List Char)
  | 0, _ => none
  | n + 1, s => do
    let (part, rest) ← keyPart? (skipSpaces s)
    match skipSpaces rest with
    | '.' :: rest => (keyParts? n rest).map fun (parts, rest) => (part :: parts, rest)
    | rest => some ([part], rest)

def keyPath? (s : List Char) : Option (KeyPath × List Char) := do
  let (parts, rest) ← keyParts? (depthLimit - 1) s
  return ({ parents := parts.dropLast, key := ← parts.getLast? }, rest)

mutual

def value? : Nat → Nat → List Char → Option (Value × List Char)
  | 0, _, _ => none
  | _ + 1, _, [] => none
  | n + 1, room, c :: rest =>
    if c == '\x22' || c == '\x27' then
      (string? (c :: rest)).map fun (s, rest) => (.string s, rest)
    else if c == '[' then do
      guard (0 < room)
      let (items, rest) ← items? n (room - 1) rest
      return (.array items, rest)
    else if c == '\x7b' then do
      guard (0 < room)
      let (pairs, rest) ← match skipSpaces rest with
        | '\x7d' :: rest => some ([], rest)
        | rest => pairs? n (room - 1) rest
      return (.table .inline (← Fields.ofPairs? pairs), rest)
    else if c == 't' then (afterWord? "rue" rest).map fun rest => (.boolean true, rest)
    else if c == 'f' then (afterWord? "alse" rest).map fun rest => (.boolean false, rest)
    else (datetime? (c :: rest)).or (number? (c :: rest))

def items? : Nat → Nat → List Char → Option (List Value × List Char)
  | 0, _, _ => none
  | n + 1, room, s =>
    match skipGap false s with
    | ']' :: rest => some ([], rest)
    | s => do
      let (v, rest) ← value? n room s
      match skipGap false rest with
      | ',' :: rest => (items? n room rest).map fun (vs, rest) => (v :: vs, rest)
      | ']' :: rest => some ([v], rest)
      | _ => none

def pairs? : Nat → Nat → List Char → Option (List (KeyPath × Value) × List Char)
  | 0, _, _ => none
  | n + 1, room, s => do
    let (path, rest) ← keyPath? s
    let (v, rest) ← value? n room (skipSpaces (← after? '=' rest))
    match skipSpaces rest with
    | ',' :: rest => (pairs? n room rest).map fun (ps, rest) => ((path, v) :: ps, rest)
    | '\x7d' :: rest => some ([(path, v)], rest)
    | _ => none

end

def statement? (s : List Char) : Option (Statement × List Char) :=
  match s with
  | '[' :: '[' :: rest => do
    let (path, rest) ← keyPath? rest
    let rest ← after? ']' (← after? ']' rest)
    return (.item path, ← lineEnd? rest)
  | '[' :: rest => do
    let (path, rest) ← keyPath? rest
    return (.table path, ← lineEnd? (← after? ']' rest))
  | s => do
    let (path, rest) ← keyPath? s
    let rest := skipSpaces (← after? '=' rest)
    let (v, rest) ← value? (2 * rest.length + 2) (depthLimit - 1) rest
    return (.assign path v, ← lineEnd? rest)

def statements? : Nat → List Char → Option (List Statement)
  | 0, _ => none
  | n + 1, s =>
    match skipGap false s with
    | [] => some []
    | s => do
      let (statement, rest) ← statement? s
      return statement :: (← statements? n rest)

def parse? (text : String) : Option Fields := do
  -- a byte order mark in front is passed over
  let s := match text.toList with
    | '\uFEFF' :: rest => rest
    | s => s
  Fields.ofStatements? (← statements? (s.length + 1) s)

end SpecAtlas.Toml
