import SpecAtlas.Files.Ignore
import SpecAtlas.Index.Database
import SpecAtlas.Text.Lines

/-!
A tree of files as a value: directories, files and symbolic links, and the answers that a scan asks
of it. The entries of a directory are sorted by name, so that a walk meets them in order.
-/

namespace SpecAtlas.Files

inductive Content where
  /-- Some bytes. If they were written over a database, its serial is kept. -/
  | bytes (b : ByteArray) (former : Option Nat)
  | database (d : Database)
deriving Inhabited

def Content.serial? : Content → Option Nat
  | .bytes _ former => former
  | .database d => some d.serial

inductive Entry where
  | file (content : Content) (mtime : Int)
  | link (target : String)
  | directory (entries : List (String × Entry))
deriving Inhabited

namespace Entry

def isDirectory : Entry → Bool
  | .directory _ => true
  | _ => false

def get? (e : Entry) : List String → Option Entry
  | [] => some e
  | name :: rest =>
    match e with
    | .directory entries =>
      match entries.find? (·.1 == name) with
      | some (_, child) => child.get? rest
      | none => none
    | _ => none

def place (name : String) (e : Entry) : List (String × Entry) → List (String × Entry)
  | [] => [(name, e)]
  | (n, d) :: rest =>
    if name < n then (name, e) :: (n, d) :: rest
    else if name == n then (name, e) :: rest
    else (n, d) :: place name e rest

def put (e new : Entry) : List String → Entry
  | [] => new
  | name :: rest =>
    match e with
    | .directory entries =>
      match entries.find? (·.1 == name) with
      | some (_, child) => .directory (place name (child.put new rest) entries)
      | none => if rest.isEmpty then .directory (place name new entries) else e
    | _ => e

def erase (e : Entry) : List String → Entry
  | [] => e
  | name :: rest =>
    match e with
    | .directory entries =>
      if rest.isEmpty then .directory (entries.filter (·.1 != name))
      else
        match entries.find? (·.1 == name) with
        | some (_, child) => .directory (place name (child.erase rest) entries)
        | none => e
    | _ => e

end Entry

structure FileTree where
  mount : String
  root : Entry := .directory []
deriving Inhabited

namespace FileTree

def get? (t : FileTree) (names : List String) : Option Entry := t.root.get? names

def isDirectory (t : FileTree) (names : List String) : Bool :=
  match t.get? names with
  | some e => e.isDirectory
  | none => false

def put (t : FileTree) (names : List String) (e : Entry) : FileTree :=
  { t with root := t.root.put e names }

def maxName : Nat := 255

def pathLimit : Nat := 4096

def steps (path : String) : List String :=
  ((Path.pieces path.toList).filter (!·.isEmpty)).map String.ofList

/-- The steps of a path, where a final slash counts as a final `.`: it asks for a directory. -/
def fullSteps (path : String) : List String :=
  if path.toList.getLast? == some '/' then steps path ++ ["."] else steps path

def origin (t : FileTree) (here : List String) (path : String) :
    Except FileError (List String × String) :=
  if path.isEmpty then .error .notFound
  else if path.toList.contains '\x00' then .error .nulByte
  else if pathLimit ≤ path.utf8ByteSize then .error .nameTooLong
  else if path == t.mount then .ok ([], "")
  else
    match Text.stripLead? (t.mount ++ "/") path with
    | some rest => .ok ([], rest)
    -- an absolute path outside of the tree leads nowhere
    | none => if path.toList.head? == some '/' then .error .notFound else .ok (here, path)

def maxLinks : Nat := 40

inductive Spot where
  | taken (names : List String)
  | free (dir : List String) (name : String)
deriving DecidableEq, Repr

/-- Follows steps from a directory. A link in the last place is followed only if `final` says so.
Where a link leads, `jump` goes on, if links may still be followed. -/
def advance (t : FileTree) (final : Bool)
    (jump : Option (List String → List String → Except FileError Spot)) (here : List String) :
    List String → Except FileError Spot
  | [] => .ok (.taken here)
  | step :: rest =>
    if !t.isDirectory here then .error .notDirectory
    else if step == "." then t.advance final jump here rest
    -- the root directory is its own parent
    else if step == ".." then t.advance final jump here.dropLast rest
    else if maxName < step.utf8ByteSize then .error .nameTooLong
    else
      let there := here ++ [step]
      match t.get? there with
      | none => if rest.isEmpty then .ok (.free here step) else .error .notFound
      | some (.link target) =>
        if rest.isEmpty && !final then .ok (.taken there)
        else
          match jump with
          | none => .error .tooManyLinks
          | some jump =>
            match t.origin here target with
            | .error e => .error e
            | .ok (start, more) => jump start (fullSteps more ++ rest)
      | some _ => t.advance final jump there rest

def follow (t : FileTree) (final : Bool) : Nat → List String → List String → Except FileError Spot
  | 0 => t.advance final none
  | links + 1 => t.advance final (some (t.follow final links))

def spot (t : FileTree) (here : List String) (path : String) (final : Bool) :
    Except FileError Spot := do
  let (start, rest) ← t.origin here path
  t.follow final maxLinks start (fullSteps rest)

def resolve (t : FileTree) (here : List String) (path : String) (final : Bool) :
    Except FileError (List String) :=
  match t.spot here path final with
  | .ok (.taken names) => .ok names
  | .ok (.free _ _) => .error .notFound
  | .error e => .error e

def locate? (t : FileTree) (here : List String) (path : String) : Option (List String) :=
  (t.resolve here path true).toOption

def entry (t : FileTree) (here : List String) (path : String) : Except FileError Entry := do
  match t.get? (← t.resolve here path true) with
  | some e => .ok e
  | none => .error .notFound

def pathOf (t : FileTree) (names : List String) : String := "/".intercalate (t.mount :: names)

abbrev Changed := FileTree × Except FileError Unit

def Changed.andThen (c : Changed) (next : FileTree → Changed) : Changed :=
  match c with
  | (t, .ok _) => next t
  | (t, .error e) => (t, .error e)

def leadsToDirectory (t : FileTree) (here : List String) (path : String) : Bool :=
  match t.locate? here path with
  | some names => t.isDirectory names
  | none => false

def makeDirectory (t : FileTree) (here : List String) (path : String) : Changed :=
  match t.origin here path with
  | .error e => (t, .error e)
  | .ok (start, rest) =>
    match t.follow false maxLinks start (steps rest) with
    | .error e => (t, .error e)
    | .ok (.taken _) => (t, .error .exists)
    | .ok (.free dir name) => (t.put (dir ++ [name]) (.directory []), .ok ())

def makeUpward (t : FileTree) (here : List String) : List String → Changed
  | [] => (t, .error .notFound)
  | path :: above =>
    -- a directory that is there already will do, also behind a link
    let again (t : FileTree) (e : FileError) : Changed :=
      (t, if t.leadsToDirectory here path then .ok () else .error e)
    if path.isEmpty then (t, .ok ())
    else
      match t.makeDirectory here path with
      | (t, .ok _) => (t, .ok ())
      | (t, .error .notFound) =>
        -- those that are made here stay if a later one fails
        (t.makeUpward here above).andThen fun t =>
          match t.makeDirectory here path with
          | (t, .ok _) => (t, .ok ())
          | (t, .error e) => again t e
      | (t, .error e) => again t e

def makeDirectories (t : FileTree) (here : List String) (path : String) : Changed :=
  t.makeUpward here (Path.upward path)

def makeParent (t : FileTree) (here : List String) (path : String) : Changed :=
  match Path.parent? path with
  | some parent => t.makeDirectories here parent
  | none => (t, .ok ())

def writeFile (t : FileTree) (here : List String) (path : String) (bytes : ByteArray)
    (mtime : Int) : Changed :=
  (t.makeParent here path).andThen fun t =>
    match t.spot here path true with
    | .error e => (t, .error e)
    | .ok (.taken names) =>
      match t.get? names with
      | some (.file old _) => (t.put names (.file (.bytes bytes old.serial?) mtime), .ok ())
      | _ => (t, .error .isDirectory)
    | .ok (.free dir name) => (t.put (dir ++ [name]) (.file (.bytes bytes none) mtime), .ok ())

def writeLink (t : FileTree) (here : List String) (path target : String) : Changed :=
  (t.makeParent here path).andThen fun t =>
    match t.origin here target, t.spot here path false with
    | .error .nulByte, _ => (t, .error .nulByte)
    | .error .nameTooLong, _ => (t, .error .nameTooLong)
    | _, .error e => (t, .error e)
    | _, .ok (.taken _) => (t, .error .exists)
    | _, .ok (.free dir name) =>
      if target.isEmpty then (t, .error .notFound)
      else (t.put (dir ++ [name]) (.link target), .ok ())

def removeEmpty (t : FileTree) (here : List String) (path : String) : Changed :=
  match t.origin here path with
  | .error e => (t, .error e)
  | .ok (start, rest) =>
    let named := steps rest
    match named.getLast? with
    | none => (t, .error .invalid)
    | some last =>
      match t.follow false maxLinks start named with
      | .error e => (t, .error e)
      | .ok (.free _ _) => (t, .error .notFound)
      | .ok (.taken names) =>
        if last == "." then (t, .error .invalid)
        else if last == ".." then (t, .error .notEmpty)
        else if t.isDirectory names then ({ t with root := t.root.erase names }, .ok ())
        else (t, .error .notDirectory)

def remove (t : FileTree) (here : List String) (path : String) : Changed :=
  match t.resolve here path false with
  | .error e => (t, .error e)
  | .ok names =>
    if t.isDirectory names then
      -- the contents are gone even if the directory itself has to stay
      match (t.put names (.directory [])).removeEmpty here path with
      -- the way of the path went through the contents
      | (t, .error .notFound) => (t, .ok ())
      | c => c
    else ({ t with root := t.root.erase names }, .ok ())

def unlink (t : FileTree) (names : List String) : FileTree :=
  if t.isDirectory names then t else { t with root := t.root.erase names }

def maxIndexLinks : Nat := 201

/-- Where the steps to the file of an index lead. `..` is taken back one by one, and entries that
are missing are no obstacle. Where a link leads, `jump` goes on, if links may still be followed. -/
def approach (t : FileTree)
    (jump : Option (List String → List String → Except FileError (List String)))
    (here : List String) : List String → Except FileError (List String)
  | [] => .ok here
  | step :: rest =>
    if step == "." then t.approach jump here rest
    else if step == ".." then t.approach jump here.dropLast rest
    else if maxName < step.utf8ByteSize then .error .nameTooLong
    else
      let there := here ++ [step]
      match t.get? here, t.get? there with
      | some (.file _ _), _ => .error .notDirectory
      | _, some (.link target) =>
        match jump with
        | none => .error .tooManyLinks
        | some jump =>
          match t.origin here target with
          | .error e => .error e
          | .ok (start, more) => jump start (steps more ++ rest)
      | _, _ => t.approach jump there rest

def destination (t : FileTree) : Nat → List String → List String → Except FileError (List String)
  | 0 => t.approach none
  | links + 1 => t.approach (some (t.destination links))

def bytes (t : FileTree) (here : List String) (path : String) : Except FileError ByteArray := do
  match ← t.entry here path with
  | .file (.bytes b _) _ => .ok b
  | .file (.database _) _ => .error .notText
  | .directory _ => .error .isDirectory
  | .link _ => .error .notFound

def read (t : FileTree) (here : List String) (path : String) : Except FileError String := do
  match String.fromUTF8? (← t.bytes here path) with
  | some text => .ok text
  | none => .error .notText

def lines (t : FileTree) (here : List String) (path : String) : List String :=
  match t.bytes here path with
  | .ok b => Text.linesOf b
  | .error _ => []

def stamp (t : FileTree) (here : List String) (path : String) : Except FileError Stamp := do
  match ← t.entry here path with
  | .file (.bytes b _) mtime => .ok { mtime := .ofInt (max 0 mtime), size := .ofNat b.size }
  | .file (.database _) mtime => .ok { mtime := .ofInt (max 0 mtime), size := 0 }
  | .directory _ => .ok { mtime := 0, size := 0 }
  | .link _ => .error .notFound

def kind? (t : FileTree) (here : List String) (path : String) : Option EntryKind :=
  match t.entry here path with
  | .ok (.directory _) => some .directory
  | .ok _ => some .file
  | .error _ => none

def rules (t : FileTree) (here : List String) (path : String) : List IgnoreRule :=
  IgnoreRule.ofLines (t.lines here path)

def excludedRules (t : FileTree) (here dir : List String) : List IgnoreRule :=
  if t.kind? dir ".git" == some .file then
    -- the file names the directory of a working copy, and that the directory that is shared
    let shared? : Option String := do
      let own ← Text.stripLead? "gitdir: " (← (t.lines dir ".git").head?)
      let common ← (t.lines here (Path.join own "commondir")).head?
      return if common.toList.head? == some '.' then Path.join own common else common
    match shared? with
    | some shared => t.rules here (Path.join shared "info/exclude")
    | none => []
  else t.rules dir ".git/info/exclude"

def level (t : FileTree) (here : List String) (root : String) (dir : List String) :
    IgnoreLevel where
  root
  isRepository := (t.locate? dir ".git").isSome || (t.locate? dir ".jj").isSome
  plain := t.rules dir ".ignore"
  repository := t.rules dir ".gitignore"
  excluded := t.excludedRules here dir

def levelsAbove (t : FileTree) (here names : List String) : List IgnoreLevel :=
  let dirs := (List.range names.length).map names.take
  (dirs.map fun dir => t.level here (t.pathOf dir) dir).reverse

mutual

def walkEntry (t : FileTree) (here : List String) (scope : IgnoreScope) (shown : String)
    (names : List String) : Entry → List String
  | .file _ _ => [shown]
  | .link _ => []
  | .directory entries =>
    let level := t.level here (Text.withoutLead "./" shown) names
    t.walkAll here { scope with below := level :: scope.below } shown names entries

def walkAll (t : FileTree) (here : List String) (scope : IgnoreScope) (shown : String)
    (names : List String) : List (String × Entry) → List String
  | [] => []
  | (name, e) :: rest =>
    let path := Path.join shown name
    (if scope.skips path name e.isDirectory then []
      else t.walkEntry here scope path (names ++ [name]) e)
      ++ t.walkAll here scope shown names rest

end

def walkRoot (t : FileTree) (here : List String) (root : String) : List String :=
  -- a lone hyphen stands for no file
  if Path.same root "-" then []
  else
    match t.locate? here root with
    | none => []
    | some names =>
      match t.get? names with
      | some (.directory entries) =>
        let scope :=
          { start := root
            base := t.pathOf names
            above := t.levelsAbove here names : IgnoreScope }
        t.walkEntry here scope root names (.directory entries)
      | some (.file _ _) => [root]
      | _ => []

def files (t : FileTree) (here : List String) : Files where
  kind? := t.kind? here
  canonical? path := (t.locate? here path).map t.pathOf
  stamp := t.stamp here
  read := t.read here
  walk := fun roots => roots.flatMap (t.walkRoot here)

end FileTree

end SpecAtlas.Files
