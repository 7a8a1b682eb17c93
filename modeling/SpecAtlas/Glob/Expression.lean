import SpecAtlas.Glob.Pattern

/-!
The written form of the expression that a pattern stands for, and how deep it is nested. Sequences
and alternatives of two or more parts, groups, repetitions and classes each add a level.
-/

namespace SpecAtlas.Glob

mutual

def Token.parts : Token → Nat
  | .literal c => (charBytes c).length
  | .any | .many | .leadingDirs | .innerDirs | .cls _ _ => 1
  | .inside => 2
  | .group alternatives => if writtenCount alternatives == 0 then 0 else 1

def partsOf : List Token → Nat
  | [] => 0
  | t :: ts => t.parts + partsOf ts

/-- Number of alternatives that are not written as nothing. -/
def writtenCount : List (List Token) → Nat
  | [] => 0
  | ts :: rest => (if partsOf ts == 0 then 0 else 1) + writtenCount rest

end

def levelOf (parts : Nat) : Nat := if 2 ≤ parts then 1 else 0

mutual

def Token.depth (separated : Bool) : Token → Nat
  | .literal _ => 0
  | .any => if separated then 1 else 0
  | .many => if separated then 2 else 1
  | .leadingDirs | .innerDirs => 4
  | .inside => 1
  | .cls _ ranges => 1 + levelOf (ranges.flatMap fun (low, high) => byteRanges low high).length
  | .group alternatives =>
    match writtenCount alternatives with
    | 0 => 0
    | n + 1 => 1 + levelOf (n + 1) + alternativesDepth separated alternatives

def partsDepth (separated : Bool) : List Token → Nat
  | [] => 0
  | t :: ts => max (t.depth separated) (partsDepth separated ts)

def alternativesDepth (separated : Bool) : List (List Token) → Nat
  | [] => 0
  | ts :: rest =>
    max (levelOf (partsOf ts) + partsDepth separated ts) (alternativesDepth separated rest)

end

def maxNesting : Nat := 250

namespace Pattern

def depth (separated : Bool) (p : Pattern) : Nat :=
  match p.tokens with
  | [.leadingDirs] => 2
  | tokens => 1 + partsDepth separated tokens

def isTooDeep (separated : Bool) (p : Pattern) : Bool := maxNesting < p.depth separated

end Pattern

def isMeta (c : Char) : Bool := "\\.+*?()|[]\x7b\x7d^$#&-~".toList.contains c

def hexByte (b : UInt8) : String :=
  String.ofList [Nat.digitChar (b.toNat / 16), Nat.digitChar (b.toNat % 16)]

def escapeChar (c : Char) : String :=
  if c.toNat < 128 then (if isMeta c then "\\" else "") ++ String.singleton c
  else String.join ((charBytes c).map fun b => "\\x" ++ hexByte b)

def rangeText (low high : Char) : String :=
  if low == high then escapeChar low else escapeChar low ++ "-" ++ escapeChar high

mutual

def Token.regexText (separated : Bool) : Token → String
  | .literal c => escapeChar c
  | .any => if separated then "[^/]" else "."
  | .many => if separated then "[^/]*" else ".*"
  | .leadingDirs => "(?:/?|.*/)"
  | .inside => "/.*"
  | .innerDirs => "(?:/|/.*/)"
  | .cls negated ranges =>
    "[" ++ (if negated then "^" else "")
      ++ String.join (ranges.map fun (low, high) => rangeText low high) ++ "]"
  | .group alternatives =>
    match alternativesText separated alternatives with
    | [] => ""
    | texts => "(?:" ++ "|".intercalate texts ++ ")"

def tokensText (separated : Bool) : List Token → String
  | [] => ""
  | t :: ts => t.regexText separated ++ tokensText separated ts

def alternativesText (separated : Bool) : List (List Token) → List String
  | [] => []
  | ts :: rest =>
    let text := tokensText separated ts
    (if text.isEmpty then [] else [text]) ++ alternativesText separated rest

end

def Pattern.regexText (separated : Bool) (p : Pattern) : String :=
  let inner := match p.tokens with
    | [.leadingDirs] => ".*"
    | tokens => tokensText separated tokens
  "(?-u)^" ++ inner ++ "$"

end SpecAtlas.Glob
