import SpecAtlas.Text.Quotes

/-!
Paths as written. A path is a text; comparisons go by its components, so that repeated and final
slashes and inner `.` components do not count.
-/

namespace SpecAtlas.Path

inductive Component where
  | root
  | here
  | up
  | name (text : String)
deriving DecidableEq, Repr

def pieces : List Char → List (List Char)
  | [] => [[]]
  | c :: rest =>
    if c == '/' then [] :: pieces rest
    else
      match pieces rest with
      | [] => [[c]]
      | piece :: more => (c :: piece) :: more

def component? (piece : List Char) : Option Component :=
  if piece.isEmpty || piece == ['.'] then none
  else if piece == ['.', '.'] then some .up
  else some (.name (String.ofList piece))

def components (path : String) : List Component :=
  match pieces path.toList with
  | [] => []
  | first :: rest =>
    let lead :=
      if path.toList.head? == some '/' then [.root]
      else if first == ['.'] then [.here]
      else (component? first).toList
    lead ++ rest.filterMap component?

def same (p q : String) : Bool := components p == components q

def within (root path : String) : Bool := (components root).isPrefixOf (components path)

def withinAny (path : String) (roots : List String) : Bool := roots.any (within · path)

theorem within_self (p : String) : within p p = true := by
  simp [within]

/-- Drops final slashes and final `.` components from a reversed path, but neither the root nor a
leading `.`. -/
def dropTail : List Char → List Char
  | '/' :: rest => if rest.isEmpty then ['/'] else dropTail rest
  | '.' :: '/' :: rest => dropTail ('/' :: rest)
  | s => s

def parent? (path : String) : Option String :=
  let tail := dropTail path.toList.reverse
  if tail.isEmpty || tail == ['/'] then none
  else some (String.ofList (dropTail (tail.dropWhile (· != '/'))).reverse)

def upwardFrom : Nat → String → List String
  | 0, path => [path]
  | n + 1, path =>
    path :: match parent? path with
      | some parent => upwardFrom n parent
      | none => []

def upward (path : String) : List String := upwardFrom path.length path

def fileName? (path : String) : Option String :=
  match (components path).getLast? with
  | some (.name text) => some text
  | _ => none

def suffix? (path : String) : Option String := do
  let name ← fileName? path
  let reversed := name.toList.reverse
  let ext := reversed.takeWhile (· != '.')
  guard (ext.length + 1 < reversed.length)
  return String.ofList ext.reverse

def join (dir name : String) : String :=
  if dir.isEmpty || name.toList.head? == some '/' then name
  else if dir.toList.getLast? == some '/' then dir ++ name
  else dir ++ "/" ++ name

end SpecAtlas.Path
