import SpecAtlas.Calendar
import SpecAtlas.Scan.Run

/-!
Building an index and describing one. A build stores the reports of new and changed files and drops
the rows of files that are gone; paths are compared by their components. An index is bound to the
directory that it was first built for.
-/

namespace SpecAtlas

structure BuildTotals where
  files : Nat := 0
  specs : Nat := 0
  tests : Nat := 0
deriving DecidableEq, Repr

namespace BuildTotals

def add (t : BuildTotals) (row : IndexRow) : BuildTotals where
  files := t.files + 1
  specs := t.specs + row.specCount
  tests := t.tests + row.testCount

def ofRows (rows : List IndexRow) : BuildTotals := rows.foldl add {}

end BuildTotals

def IndexSummary.of (path : String) (m : IndexMeta) (t : BuildTotals) : IndexSummary where
  indexPath := path
  filesIndexed := .ofNat t.files
  specsIndexed := .ofNat t.specs
  testsIndexed := .ofNat t.tests
  rootPath := if m.rootPath.isEmpty then none else some m.rootPath
  schemaVersion := some m.schemaVersion
  toolVersion := some m.toolVersion
  createdAt := Calendar.stampOfWord? m.createdAt
  updatedAt := Calendar.stampOfWord? m.updatedAt

namespace Index

def bind (fs : Files) (root : String) (m : IndexMeta) : Except Failure IndexMeta :=
  let requested := (fs.canonical? root).getD root
  if m.rootPath.isEmpty then .ok { m with rootPath := fs.textOf requested }
  else
    -- a directory that is gone does not hold the index to it
    match fs.canonical? m.rootPath with
    | none => .ok m
    | some stored =>
      if Path.same stored requested then .ok m else .error (.rootMismatch stored requested)

def holds (rows : List IndexRow) (path : String) (stamp : Stamp) : Bool :=
  rows.any fun r => Path.same r.path path && r.stamp == stamp

/-- Brings one file up to date; `before` are the rows that the build started with. -/
def refresh (env : Env) (before : List IndexRow) (t : BuildTotals) (path : String) (i : Index) :
    Index × Except Failure BuildTotals :=
  match env.files.stamp path with
  | .error _ => (i, .ok t)
  | .ok stamp =>
    if holds before path stamp then (i, .ok t)
    else
      match env.report? {} path with
      | none => (i, .ok t)
      | some report =>
        match env.store path stamp report i with
        | (i, .error e) => (i, .error e)
        | (i, .ok row) => (i, .ok (t.add row))

def refreshEach (env : Env) (before : List IndexRow) :
    BuildTotals → List String → Index → Index × Except Failure BuildTotals
  | t, [], i => (i, .ok t)
  | t, path :: rest, i =>
    match refresh env before t path i with
    -- what was stored before a failure stays
    | (i, .error e) => (i, .error e)
    | (i, .ok t) => refreshEach env before t rest i

def isStale (met roots : List String) (row : IndexRow) : Bool :=
  !met.any (Path.same row.path) && Path.withinAny row.path roots

def dropStale (before : List IndexRow) (met roots : List String) (i : Index) : Index :=
  (before.filter (isStale met roots)).foldl (fun i r => i.remove r.path) i

/-- The files of a build, and what its index is to say about itself. -/
def plan (env : Env) (config : IndexConfig) (i : Index) :
    Except Failure (List String × IndexMeta) := do
  let files ← sourceFiles env.files config.paths config.globs config.excludeGlobs
  let m ← bind env.files (config.paths.headD "") (← i.loadMeta env.now)
  return (files, m)

def attempt (env : Env) (path : String) (config : IndexConfig) (i : Index) :
    Index × Except Failure IndexSummary :=
  match plan env config i with
  | .error e => (i, .error e)
  | .ok (files, m) =>
    match refreshEach env i.rows {} files i with
    | (j, .error e) => (j, .error e)
    | (j, .ok totals) =>
      -- files that have no stamp count as gone
      let met := files.filter fun path => (env.files.stamp path).toBool
      let m := { m with updatedAt := env.now }
      ((dropStale i.rows met config.paths j).saveMeta m, .ok (.of path m totals))

def describe (path : String) (now : UInt64) (i : Index) : Except Failure IndexSummary :=
  (i.loadMeta now).map fun m => .of path m (.ofRows i.rows)

end Index

end SpecAtlas
