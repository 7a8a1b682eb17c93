import SpecAtlas.Glob.Expression

/-!
Matching paths against sets of glob patterns. A pattern is compared with the bytes of the whole
path. A pattern that is decided by the file name matches no path whose last component is `..`,
since such a path has no file name. Patterns of simple forms are matched directly; all others are
compiled, which bounds their nesting.
-/

namespace SpecAtlas.Glob

namespace Token

def isLiteral : Token → Bool
  | .literal _ => true
  | _ => false

def isInside : Token → Bool
  | .inside => true
  | _ => false

def isChar (c : Char) : Token → Bool
  | .literal d => c == d
  | _ => false

end Token

namespace Pattern

def plainName (tokens : List Token) : Bool :=
  tokens.all fun t => t.isLiteral && !t.isChar '/'

def isBaseName (tokens : List Token) : Bool :=
  match tokens with
  | .leadingDirs :: rest => !rest.isEmpty && plainName rest
  | _ => false

def isExtension (separated : Bool) (tokens : List Token) : Bool :=
  let (deep, rest) := match tokens with
    | .leadingDirs :: rest => (true, rest)
    | rest => (false, rest)
  match rest with
  | .many :: .literal '.' :: ext =>
    (deep || !separated) && plainName ext && !ext.any (Token.isChar '.')
  | _ => false

def isStart (separated : Bool) (tokens : List Token) : Bool :=
  match tokens.getLast? with
  | some .many => !separated && 1 < tokens.length && tokens.dropLast.all Token.isLiteral
  | some .inside => tokens.dropLast.all Token.isLiteral
  | _ => false

def isEnd (separated : Bool) (tokens : List Token) : Bool :=
  let rest := match tokens with
    | .leadingDirs :: rest => rest
    | rest => rest
  match rest with
  | [.many, .literal '/'] => false
  | .many :: rest => !separated && !rest.isEmpty && rest.all Token.isLiteral
  | rest => !rest.isEmpty && rest.all Token.isLiteral

def endsInExtension (tokens : List Token) : Bool :=
  match tokens.reverse.dropWhile fun t => t.isLiteral && !t.isChar '/' && !t.isChar '.' with
  | t :: _ => t.isChar '.'
  | [] => false

end Pattern

inductive Strategy where
  | baseName
  | whole
  | extension
  | start
  | ending
  | filtered
  | compiled
deriving DecidableEq, Repr

namespace Strategy

def needsFileName : Strategy → Bool
  | .baseName | .extension | .filtered => true
  | .whole | .start | .ending | .compiled => false

end Strategy

namespace Pattern

def strategy (separated : Bool) (p : Pattern) : Strategy :=
  let ts := p.tokens
  if isBaseName ts then .baseName
  else if !ts.isEmpty && ts.all Token.isLiteral then .whole
  else if isExtension separated ts then .extension
  else if isStart separated ts then .start
  else if isEnd separated ts then .ending
  else if endsInExtension ts then .filtered
  else .compiled

end Pattern

inductive SetFault where
  | pattern (text : String) (fault : Fault)
  | nesting (expression : String)
  | nestingAt (number : Nat)
deriving DecidableEq, Repr

def SetFault.message : SetFault → String
  | .pattern text fault => fault.describe text
  | .nesting expression => "error parsing glob '" ++ expression ++ "': error parsing pattern 0"
  | .nestingAt number => "error parsing pattern " ++ toString number

def nestingFault? (separated : Bool) (ps : List Pattern) : Option SetFault :=
  let ofStrategy (s : Strategy) := ps.filter fun p => p.strategy separated == s
  match (ofStrategy .filtered).find? (·.isTooDeep separated) with
  | some p => some (.nesting (p.regexText separated))
  | none => ((ofStrategy .compiled).findIdx? (·.isTooDeep separated)).map .nestingAt

structure Matcher where
  regex : Regex
  needsFileName : Bool
deriving Repr

def endsInParent (bytes : List UInt8) : Bool :=
  bytes.reverse.takeWhile (· != slash) == [46, 46]

namespace Matcher

def ofPattern (separated : Bool) (p : Pattern) : Matcher where
  regex := p.regex separated
  needsFileName := (p.strategy separated).needsFileName

def accepts (m : Matcher) (path : String) : Bool :=
  let bytes := path.toByteArray.data.toList
  !(m.needsFileName && endsInParent bytes) && m.regex.accepts bytes

end Matcher

def patterns (brackets : Brackets) (texts : List String) : Except SetFault (List Pattern) :=
  texts.mapM fun text => (Pattern.parse brackets text).mapError (.pattern text)

def matchers (separated : Bool) (ps : List Pattern) : Except SetFault (List Matcher) :=
  match nestingFault? separated ps with
  | some fault => .error fault
  | none => .ok (ps.map (.ofPattern separated))

def set? (texts : List String) : Except SetFault (Option (List Matcher)) :=
  if texts.isEmpty then .ok none
  else do return some (← matchers false (← patterns .strict texts))

def anyAccepts (set : List Matcher) (path : String) : Bool := set.any (·.accepts path)

end SpecAtlas.Glob
