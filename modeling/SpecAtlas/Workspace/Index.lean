import SpecAtlas.Workspace.Connection

/-!
Opening the indexes of a workspace, working with them, and closing them.
-/

namespace SpecAtlas

open Files

inductive Holder where
  | own
  | shared (serial : Nat)
  | file (serial : Nat) (connection : Connection)
deriving DecidableEq, Repr

structure OpenIndex where
  path : String
  holder : Holder
  contents : Index

namespace Workspace

def maxIndexPath : Nat := 504

def indexSpot? (w : Workspace) (file : String) : Option (List String) := do
  let (start, rest) ← (w.tree.origin w.here file).toOption
  let names ← (w.tree.destination FileTree.maxIndexLinks start (FileTree.steps rest)).toOption
  guard ((w.tree.pathOf names).utf8ByteSize ≤ maxIndexPath)
  guard (!names.isEmpty && w.tree.isDirectory names.dropLast && !w.tree.isDirectory names)
  return names

def hasPattern (w : Workspace) (location : Location) : Bool :=
  match location.pattern with
  | some path => (w.tree.locate? w.here path).isSome
  | none => true

def openFile? (w : Workspace) (location : Location) (file : String) :
    Option (Workspace × List String) := do
  guard (w.hasPattern location)
  let names ← w.indexSpot? file
  if (w.tree.get? names).isSome then return (w, names)
  guard (location.access == .create)
  return (w.put names (.bytes .empty none), names)

def openMemory (w : Workspace) (path : String) (location : Location) : Attempt OpenIndex :=
  if location.frozen || location.access == .read then (w, .error .readOnlyIndex)
  else
    match location.shared with
    | none => (w, .ok { path, holder := .own, contents := {} })
    | some name =>
      match w.shared.find? (·.name == name) with
      | some s =>
        ({ w with users := s.serial :: w.users },
          .ok { path, holder := .shared s.serial, contents := s.contents })
      | none =>
        ({ w with
            taken := w.taken + 1
            users := w.taken :: w.users
            shared := { name, serial := w.taken, contents := {} } :: w.shared },
          .ok { path, holder := .shared w.taken, contents := {} })

def openAt (w : Workspace) (path : String) (location : Location) : Attempt OpenIndex :=
  match location.file with
  | none => w.openMemory path location
  | some file =>
    match w.openFile? location file with
    | none => (w, .error (.indexUnopened path))
    | some (w, names) =>
      (w.connect { names, location }).andThen fun w (c, d) =>
        ({ w with users := if c.usesLog then d.serial :: w.users else w.users },
          .ok { path, holder := .file d.serial c, contents := d.index.getD {} })

def openIndex (w : Workspace) (path : String) : Attempt OpenIndex :=
  match w.tree.makeParent w.here path with
  | (tree, .error e) =>
    ({ w with tree }, .error (.indexDirectory ((Path.parent? path).getD "") e))
  | (tree, .ok _) =>
    let w := { w with tree }
    match Location.ofPath? path with
    | none => (w, .error (.indexUnopened path))
    | some location => w.openAt path location

def content? (w : Workspace) (serial : Nat) (c : Connection) : Option Content :=
  match w.tree.get? c.names with
  | some (.file content _) => if content.serial? == some serial then some content else none
  | _ => none

def current (w : Workspace) (o : OpenIndex) : Index :=
  match o.holder with
  | .own => o.contents
  | .shared serial => ((w.shared.find? (·.serial == serial)).map (·.contents)).getD o.contents
  | .file serial c =>
    match w.content? serial c with
    | some (.database d) => d.index.getD o.contents
    | _ => o.contents

def resume (w : Workspace) (o : OpenIndex) : Attempt OpenIndex :=
  let now : OpenIndex := { o with contents := w.current o }
  match o.holder with
  | .own | .shared _ => (w, .ok now)
  | .file serial c =>
    match w.content? serial c with
    | none => (w, .ok now)
    | some content =>
      -- without a log the file is read anew
      if !c.usesLog && !c.location.frozen then (w.readDatabase c).map fun _ => now
      else
        match content with
        | .database _ => (w, .ok now)
        -- what was written over is lost, unless the log holds all of it
        | .bytes _ _ => (w, if c.logsAll then .ok now else .error .malformed)

def replace (w : Workspace) (o : OpenIndex) (i : Index) : Attempt OpenIndex :=
  let next : OpenIndex := { o with contents := i }
  match o.holder with
  | .own => (w, .ok next)
  | .shared serial =>
    ({ w with shared := w.shared.map fun s =>
        if s.serial == serial then { s with contents := i } else s }, .ok next)
  | .file serial c =>
    match w.content? serial c with
    | some (.database d) =>
      (w.writeDatabase c { d with index := some i }).map fun _ => next
    | _ =>
      (w, if c.usesLog && !c.readsOnly then .ok next else .error .readOnlyIndex)

def keep {α : Type} (w : Workspace) (o : OpenIndex) (r : Index × Except Failure α) :
    Workspace × OpenIndex × Except Failure α :=
  match w.replace o r.1, r.2 with
  | (w, .ok o), result => (w, o, result)
  | (w, .error e), .ok _ => (w, o, .error e)
  -- a refused change comes before the failure of the step, if the step changed anything
  | (w, .error e), .error f => (w, o, .error (if r.1 = o.contents then f else e))

/-- Folds in the log of an open index, as long as its file is still the same one. -/
def settle (w : Workspace) (o : OpenIndex) (serial : Nat) (c : Connection) : Workspace :=
  match w.content? serial c with
  | none => w
  | some (.database _) => w.foldLog c
  | some (.bytes _ _) =>
    let w := w.foldLog c
    if c.logsAll then
      w.put c.names (.database { serial, logged := true, index := some o.contents })
    else w

def close (w : Workspace) (o : OpenIndex) : Workspace :=
  match o.holder with
  | .own => w
  | .shared serial =>
    let users := w.users.erase serial
    { w with
      users
      shared := if users.contains serial then w.shared
        else w.shared.filter (·.serial != serial) }
  | .file serial c =>
    if !c.usesLog then w
    else
      let w := { w with users := w.users.erase serial }
      -- the last user of a log folds it in
      if w.users.contains serial then w else w.settle o serial c

def conclude {α : Type} (w : Workspace) (o : OpenIndex) (r : Index × Except Failure α) :
    Attempt α :=
  let (w, o, result) := w.keep o r
  (w.close o, result)

end Workspace

end SpecAtlas
