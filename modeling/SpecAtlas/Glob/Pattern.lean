import SpecAtlas.Glob.Regex

/-!
Glob patterns. Besides `?`, `*`, character classes and groups of alternatives there is `**`, which
stands for any number of directories where it fills a whole component.
-/

namespace SpecAtlas.Glob

inductive Fault where
  | unclosedClass
  | invalidRange (low high : Char)
  | unclosedGroup
  | unopenedGroup
  | danglingEscape
deriving DecidableEq, Repr

def Fault.message : Fault → String
  | .unclosedClass => "unclosed character class; missing ']'"
  | .invalidRange low high =>
    "invalid range; '" ++ String.singleton low ++ "' > '" ++ String.singleton high ++ "'"
  | .unclosedGroup =>
    "unclosed alternate group; missing '\x7d' (maybe escape '\x7b' with '[\x7b]'?)"
  | .unopenedGroup =>
    "unopened alternate group; missing '\x7b' (maybe escape '\x7d' with '[\x7d]'?)"
  | .danglingEscape => "dangling '\\'"

inductive Token where
  | literal (c : Char)
  | any
  | many
  | leadingDirs
  | inside
  | innerDirs
  | cls (negated : Bool) (ranges : List (Char × Char))
  | group (alternatives : List (List Token))
deriving Repr, Inhabited

structure OpenGroup where
  before : List Token
  finished : List (List Token)

inductive Brackets where
  | strict
  /-- It opens a class if that is closed; one that is not closed makes all brackets literal from
  there on. -/
  | lenient
  | literal
deriving DecidableEq, Repr

/-- What was read so far: the last character, the tokens of the current alternative, latest first,
and the groups around it, innermost first. -/
structure Progress where
  brackets : Brackets
  last : Option Char := none
  tokens : List Token := []
  groups : List OpenGroup := []

namespace Progress

def push (p : Progress) (last : Char) (token : Token) : Progress :=
  { p with last := some last, tokens := token :: p.tokens }

def openGroup (p : Progress) (last : Char) : Progress :=
  { p with last := some last, tokens := [], groups := ⟨p.tokens, []⟩ :: p.groups }

def nextAlternative (p : Progress) : Progress :=
  match p.groups with
  | [] => p.push ',' (.literal ',')
  | g :: gs =>
    { p with
      last := some ',', tokens := []
      groups := { g with finished := p.tokens.reverse :: g.finished } :: gs }

def closeGroup (p : Progress) (last : Char) : Except Fault Progress :=
  match p.groups with
  | [] => .error .unopenedGroup
  | g :: gs =>
    .ok
      { p with
        last := some last
        tokens := .group (p.tokens.reverse :: g.finished).reverse :: g.before
        groups := gs }

def twoStars (p : Progress) : Progress := (p.push '*' .many).push '*' .many

def deepen (p : Progress) (last : Char) (token : Token) : Progress :=
  match p.tokens with
  | .leadingDirs :: _ | .inside :: _ => { p with last := some last }
  | _ :: rest => { p with last := some last, tokens := token :: rest }
  | [] => p.push last token

def atComponent (p : Progress) : Bool :=
  p.last == some '/' || (!p.groups.isEmpty && (p.last == some ',' || p.last == some '\x7b'))

end Progress

structure OpenClass where
  negated : Bool
  ranges : List (Char × Char) := []
  inRange : Bool := false
  first : Bool := true

namespace OpenClass

def add (k : OpenClass) (c : Char) : Except Fault OpenClass :=
  match k.inRange, k.ranges with
  | true, (low, _) :: rest =>
    if c < low then .error (.invalidRange low c)
    else .ok { k with ranges := (low, c) :: rest, inRange := false, first := false }
  | _, ranges => .ok { k with ranges := (c, c) :: ranges, inRange := false, first := false }

def step (k : OpenClass) (c : Char) : Except Fault (Option OpenClass) :=
  if c == ']' && !k.first then .ok none
  else if c == '-' && !k.first && !k.inRange then .ok (some { k with inRange := true })
  else (k.add c).map some

def runsOut (k : OpenClass) : List Char → Bool
  | [] => true
  | c :: rest =>
    match k.step c with
    | .ok (some k) => k.runsOut rest
    | _ => false

def unclosed : List Char → Bool
  | '!' :: rest => runsOut { negated := true } rest
  | '^' :: rest => runsOut { negated := true } rest
  | rest => runsOut { negated := false } rest

def token (k : OpenClass) : Token :=
  .cls k.negated (if k.inRange then ('-', '-') :: k.ranges else k.ranges).reverse

end OpenClass

namespace Progress

def bracketIsLiteral (p : Progress) (rest : List Char) : Bool :=
  match p.brackets with
  | .strict => false
  | .lenient => OpenClass.unclosed rest
  | .literal => true

end Progress

mutual

def tokens (p : Progress) : List Char → Except Fault (List Token)
  | [] => if p.groups.isEmpty then .ok p.tokens.reverse else .error .unclosedGroup
  | '?' :: rest => tokens (p.push '?' .any) rest
  | '*' :: '*' :: rest =>
    -- two stars stand for directories only as a whole component
    if p.tokens.isEmpty then
      match rest with
      | [] => tokens (p.push '*' .leadingDirs) []
      | '/' :: rest => tokens (p.push '/' .leadingDirs) rest
      | rest => tokens p.twoStars rest
    else if p.atComponent then
      match rest with
      | [] => tokens (p.deepen '*' .inside) []
      | '/' :: rest => tokens (p.deepen '/' .innerDirs) rest
      | c :: rest =>
        if !p.groups.isEmpty && (c == ',' || c == '\x7d') then
          tokens (p.deepen '*' .inside) (c :: rest)
        else tokens p.twoStars (c :: rest)
    else tokens p.twoStars rest
  | '*' :: rest => tokens (p.push '*' .many) rest
  | '[' :: rest =>
    if p.bracketIsLiteral rest then
      -- from here on all brackets are literal
      tokens { p.push '[' (.literal '[') with brackets := .literal } rest
    else
      match rest with
      | '!' :: more => classTokens p { negated := true } more
      | '^' :: more => classTokens p { negated := true } more
      | more => classTokens p { negated := false } more
  | '\x7b' :: rest => tokens (p.openGroup '\x7b') rest
  | '\x7d' :: rest =>
    match p.closeGroup '\x7d' with
    | .error e => .error e
    | .ok p => tokens p rest
  | ',' :: rest => tokens p.nextAlternative rest
  | '\\' :: c :: rest => tokens (p.push c (.literal c)) rest
  | ['\\'] => .error .danglingEscape
  | c :: rest => tokens (p.push c (.literal c)) rest

def classTokens (p : Progress) (k : OpenClass) : List Char → Except Fault (List Token)
  | [] => .error .unclosedClass
  | c :: rest =>
    match k.step c with
    | .error e => .error e
    | .ok none => tokens (p.push ']' k.token) rest
    | .ok (some k) => classTokens p k rest

end

structure Pattern where
  text : String
  tokens : List Token
deriving Repr

def Pattern.parse (brackets : Brackets) (text : String) : Except Fault Pattern :=
  (Glob.tokens { brackets } text.toList).map fun tokens => { text, tokens }

def Fault.describe (e : Fault) (text : String) : String :=
  "error parsing glob '" ++ text ++ "': " ++ e.message

def charBytes (c : Char) : List UInt8 := (String.singleton c).toByteArray.data.toList

/-- The byte ranges of a character range: the last byte of its low end and the first byte of its
high end bound a range, the other bytes of the two ends are members. -/
def byteRanges (low high : Char) : List (UInt8 × UInt8) :=
  let lows := charBytes low
  if low == high then lows.map fun b => (b, b)
  else
    let highs := charBytes high
    let singles := lows.dropLast ++ highs.drop 1
    singles.map (fun b => (b, b)) ++ (lows.getLast?.bind fun lo => highs.head?.map ((lo, ·))).toList

def slash : UInt8 := 47

def slashRegex : Regex := .byte (.single slash)

def wildcard (separated : Bool) : ByteSet := if separated then .except slash else .all

def sequence? : Option Regex → Option Regex → Option Regex
  | some a, some b => some (.seq a b)
  | some a, none => some a
  | none, b => b

mutual

/-- The expression that a token stands for. A group counts only its alternatives that are not
written as nothing, and a group without any is itself written as nothing. -/
def Token.regex? (separated : Bool) : Token → Option Regex
  | .literal c => some (.ofBytes (charBytes c))
  | .any => some (.byte (wildcard separated))
  | .many => some (.many (wildcard separated))
  | .leadingDirs =>
    some (.anyOf [.empty, slashRegex, .seq .anything slashRegex])
  | .inside => some (.seq slashRegex .anything)
  | .innerDirs =>
    some (.anyOf [slashRegex, .seq slashRegex (.seq .anything slashRegex)])
  | .cls negated ranges =>
    some (.byte ⟨negated, ranges.flatMap fun (low, high) => byteRanges low high⟩)
  | .group alternatives =>
    match alternativesRegex separated alternatives with
    | [] => none
    | rs => some (.anyOf rs)

def tokensRegex? (separated : Bool) : List Token → Option Regex
  | [] => none
  | t :: ts => sequence? (t.regex? separated) (tokensRegex? separated ts)

def alternativesRegex (separated : Bool) : List (List Token) → List Regex
  | [] => []
  | ts :: rest => (tokensRegex? separated ts).toList ++ alternativesRegex separated rest

end

namespace Pattern

def regex (separated : Bool) (p : Pattern) : Regex :=
  match p.tokens with
  | [.leadingDirs] => .anything
  | tokens => (tokensRegex? separated tokens).getD .empty

end Pattern

end SpecAtlas.Glob
