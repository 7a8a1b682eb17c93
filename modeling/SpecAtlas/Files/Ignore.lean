import SpecAtlas.Glob.Basic
import SpecAtlas.Path

/-!
Ignore files: lists of patterns for entries that a walk leaves out. Of the patterns of one file the
last that matches decides; of the files in several directories the nearest with a match decides.
-/

namespace SpecAtlas.Files

structure IgnoreRule where
  matcher : Glob.Matcher
  negated : Bool
  dirOnly : Bool

namespace IgnoreRule

def trimmed (line : String) : List Char :=
  let cs := line.toList
  if ['\\', ' '].isSuffixOf cs then cs else Text.dropEndWhile Text.isBlank cs

def lead (cs : List Char) : Bool × Bool × List Char :=
  match cs with
  | '\\' :: '!' :: rest => (false, false, '!' :: rest)
  | '\\' :: '#' :: rest => (false, false, '#' :: rest)
  | '!' :: '/' :: rest => (true, true, rest)
  | '!' :: rest => (true, false, rest)
  | '/' :: rest => (false, true, rest)
  | rest => (false, false, rest)

def tail (cs : List Char) : Bool × List Char :=
  if cs.getLast? == some '/' then
    let cs := cs.dropLast
    (true, if cs.getLast? == some '\\' then cs.dropLast else cs)
  else (false, cs)

def startsDeep (cs : List Char) : Bool := "**/".toList.isPrefixOf cs || cs == "**".toList

/-- The glob of a pattern: one without a slash may match in any directory, and one for everything in
a directory leaves the directory itself alone. -/
def globText (bound : Bool) (cs : List Char) : List Char :=
  let cs := if !bound && !cs.contains '/' && !startsDeep cs then "**/".toList ++ cs else cs
  if "/**".toList.isSuffixOf cs then cs ++ "/*".toList else cs

def ofLine? (line : String) : Option (Glob.Pattern × Bool × Bool) := do
  guard (line.toList.head? != some '#')
  let cs := trimmed line
  guard !cs.isEmpty
  let (negated, bound, cs) := lead cs
  let (dirOnly, cs) := tail cs
  let pattern ← (Glob.Pattern.parse .lenient (String.ofList (globText bound cs))).toOption
  return (pattern, negated, dirOnly)

def ofLines (lines : List String) : List IgnoreRule :=
  -- byte order marks in front are passed over
  let lines := match lines with
    | [] => []
    | first :: rest => String.ofList (first.toList.dropWhile (· == '\uFEFF')) :: rest
  let found := lines.filterMap ofLine?
  match Glob.matchers true (found.map (·.1)) with
  -- each pattern can be matched, but not all of them together
  | .error _ => []
  | .ok matchers =>
    (matchers.zip found).map fun (matcher, _, negated, dirOnly) => { matcher, negated, dirOnly }

end IgnoreRule

inductive Verdict where
  | ignore
  | keep
deriving DecidableEq, Repr

def verdict? (rules : List IgnoreRule) (path : String) (isDir : Bool) : Option Verdict :=
  (rules.reverse.find? fun r => (isDir || !r.dirOnly) && r.matcher.accepts path).map fun r =>
    if r.negated then .keep else .ignore

structure IgnoreLevel where
  root : String
  isRepository : Bool := false
  plain : List IgnoreRule := []
  repository : List IgnoreRule := []
  excluded : List IgnoreRule := []

namespace IgnoreLevel

/-- A path as the rules of a level see it: without what leads to the directory of the level. One
`./` in front does not count, and a bare name is kept. -/
def relative (level : IgnoreLevel) (path : String) : String :=
  let path := Text.withoutLead "./" path
  if Path.same level.root "." || !path.toList.contains '/' then path
  else
    match Text.stripLead? level.root path with
    | some rest => Text.withoutLead "/" rest
    | none => path

def nearest? (rules : IgnoreLevel → List IgnoreRule) (levels : List (IgnoreLevel × String))
    (isDir : Bool) : Option Verdict :=
  levels.findSome? fun (level, path) => verdict? (rules level) (level.relative path) isDir

def inRepository : List (IgnoreLevel × String) → List (IgnoreLevel × String)
  | [] => []
  | level :: above => if level.1.isRepository then [level] else level :: inRepository above

def verdict? (levels : List (IgnoreLevel × String)) (isDir : Bool) : Option Verdict :=
  let plain := nearest? IgnoreLevel.plain levels isDir
  if levels.any (·.1.isRepository) then
    -- what is said above the root of the repository counts only in plain rules
    let near := inRepository levels
    (plain.or (nearest? repository near isDir)).or (nearest? excluded near isDir)
  else plain

end IgnoreLevel

structure IgnoreScope where
  start : String
  base : String
  below : List IgnoreLevel := []
  above : List IgnoreLevel := []

namespace IgnoreScope

def absolute (s : IgnoreScope) (path : String) : String :=
  Path.join s.base
    (if Path.same s.start "." then path
      else Text.withoutLead "/" (Text.withoutLead (Text.withoutLead "./" s.start) path))

def levels (s : IgnoreScope) (shown : String) : List (IgnoreLevel × String) :=
  let path := Text.withoutLead "./" shown
  s.below.map (·, path) ++ s.above.map (·, s.absolute path)

/-- Whether a walk leaves an entry out. Hidden entries, which start with a dot, are left out unless
they are taken back in. -/
def skips (s : IgnoreScope) (shown name : String) (isDir : Bool) : Bool :=
  match IgnoreLevel.verdict? (s.levels shown) isDir with
  | some v => v == .ignore
  | none => name.toList.head? == some '.'

end IgnoreScope

end SpecAtlas.Files
