import SpecAtlas.Index.Location
import SpecAtlas.Workspace.Basic

/-!
Connections to databases. When a database is first read, what an earlier user left in its journal or
its log is dealt with. A database that can have a log is given one, and every change of the others
needs a journal.
-/

namespace SpecAtlas

open Files

structure Connection where
  names : List String
  location : Location
  usesLog : Bool := false
  writesLog : Bool := false
  logsAll : Bool := false
deriving DecidableEq, Repr

def Connection.readsOnly (c : Connection) : Bool :=
  c.location.frozen || c.location.access == .read || (c.usesLog && !c.writesLog)

namespace Workspace

def isFilled (w : Workspace) (k : Companion) (names : List String) : Bool :=
  match w.tree.entry names.dropLast (names.getLast?.getD "" ++ k.ending) with
  | .ok (.file (.bytes b _) _) => !b.isEmpty
  | .ok _ => true
  | .error _ => false

def openBeside (w : Workspace) (k : Companion) (names : List String) : Attempt Unit :=
  let place := k.beside names
  match w.tree.get? place with
  | some (.file _ _) => (w, .ok ())
  -- links are not followed
  | some _ => (w, .error .companion)
  | none =>
    if FileTree.maxName < (place.getLast?.getD "").utf8ByteSize then (w, .error .companion)
    else (w.put place (.bytes .empty none), .ok ())

def dropBeside (w : Workspace) (k : Companion) (names : List String) : Workspace :=
  { w with tree := w.tree.unlink (k.beside names) }

def database? (w : Workspace) (names : List String) : Option Database :=
  match w.tree.get? names with
  | some (.file (.database d) _) => some d
  | _ => none

def hasUsers (w : Workspace) (names : List String) : Bool :=
  match w.database? names with
  | some d => w.users.contains d.serial
  | none => false

/-- Opens the digest of a log, or joins its users; the outcome tells whether it may be written. -/
def openDigest (w : Workspace) (c : Connection) : Attempt Bool :=
  let place := Companion.digest.beside c.names
  if c.location.alone && c.location.access != .read then (w, .ok true)
  else if w.hasUsers c.names then (w, .ok !w.tree.isDirectory place)
  else
    match w.tree.get? place with
    | some (.file _ _) => (w, .ok !c.location.watches)
    | some (.directory _) => (w, .ok false)
    | some (.link _) => (w, .error .companion)
    | none =>
      if c.location.watches then (w, .error .companion)
      else (w.openBeside .digest c.names).map fun _ => true

def openLog (w : Workspace) (c : Connection) : Attempt Connection :=
  if c.usesLog then (w, .ok c)
  else if !c.location.logs then (w, .error .companion)
  else
    (w.openBeside .log c.names).andThen fun w _ =>
      (w.openDigest c).andThen fun w writes =>
        (w, .ok
          { c with usesLog := true, writesLog := writes && c.location.access != .read })

def foldLog (w : Workspace) (c : Connection) : Workspace :=
  if c.writesLog then
    let w := w.dropBeside .log c.names
    if c.location.alone then w else w.dropBeside .digest c.names
  else w

/-- Whether nothing is in the file at some names yet. A single byte counts as nothing. -/
def isVacant (w : Workspace) (names : List String) : Bool :=
  match w.tree.get? names with
  | some (.file (.bytes b _) _) => b.size ≤ 1
  | _ => false

def isHot : Content → Bool
  | .bytes b _ => b.data.toList.head? != some 0
  | .database _ => true

def recoverJournal (w : Workspace) (c : Connection) : Attempt Unit :=
  let refused : Failure := if c.location.access == .read then .readOnlyIndex else .companion
  if !c.location.heeds || !w.isFilled .journal c.names then (w, .ok ())
  else if w.isVacant c.names then
    -- there is nothing that could be taken back
    (if c.location.access == .read && c.location.logs then w else w.dropBeside .journal c.names,
      .ok ())
  else
    match w.tree.get? (Companion.journal.beside c.names) with
    | some (.directory _) => (w, .error .disk)
    | some (.file content _) =>
      if !isHot content then (w, .ok ())
      else if c.location.access == .read then (w, .error refused)
      else (w.dropBeside .journal c.names, .ok ())
    | _ => (w, .error refused)

def recoverLog (w : Workspace) (c : Connection) : Attempt Connection :=
  if !w.isFilled .log c.names then (w, .ok c)
  else if !w.isVacant c.names then w.openLog c
  else if w.tree.isDirectory (Companion.log.beside c.names) then (w, .error .disk)
  else (w.dropBeside .log c.names, .ok c)

def recover (w : Workspace) (c : Connection) : Attempt Connection :=
  if c.location.frozen then (w, .ok c)
  else (w.recoverJournal c).andThen fun w _ => w.recoverLog c

def readDatabase (w : Workspace) (c : Connection) : Attempt (Connection × Database) :=
  (w.recover c).andThen fun w c =>
    match w.database? c.names with
    | some d =>
      if d.logged && !c.location.frozen then (w.openLog c).map (·, d) else (w, .ok (c, d))
    | none =>
      if w.isVacant c.names then
        ({ w with taken := w.taken + 1 }, .ok (c, { serial := w.taken }))
      else (w.foldLog c, .error .notDatabase)

def writeDatabase (w : Workspace) (c : Connection) (d : Database) : Attempt Unit :=
  if c.readsOnly then (w, .error .readOnlyIndex)
  else if c.usesLog then (w.put c.names (.database d), .ok ())
  else
    -- the journal is there only as long as the change takes
    (w.openBeside .journal c.names).andThen fun w _ =>
      ((w.dropBeside .journal c.names).put c.names (.database d), .ok ())

def startLog (w : Workspace) (c : Connection) (d : Database) : Attempt (Connection × Database) :=
  if c.usesLog || c.location.frozen || !c.location.logs then (w, .ok (c, d))
  else
    let d := { d with logged := true }
    (w.writeDatabase c d).andThen fun w _ => (w.openLog c).map (·, d)

def prepare (w : Workspace) (c : Connection) (d : Database) : Attempt (Connection × Database) :=
  let ready := { d with index := some (d.index.getD {}).opened }
  if ready = d then (w, .ok (c, d))
  else
    -- a database without tables is written from its start, so all of it is in the log
    (w.writeDatabase c ready).map fun _ =>
      ({ c with logsAll := c.usesLog && d.index.isNone }, ready)

def connect (w : Workspace) (c : Connection) : Attempt (Connection × Database) :=
  (w.readDatabase c).andThen fun w (c, d) =>
    (w.startLog c d).andThen fun w (c, d) => w.prepare c d

end Workspace

end SpecAtlas
