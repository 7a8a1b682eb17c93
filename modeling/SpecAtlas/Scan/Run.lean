import SpecAtlas.Glob.Basic
import SpecAtlas.Index.Basic
import SpecAtlas.Scan.Query

/-!
Scans: the source files below some paths, and their reports, read afresh or taken from an index.
-/

namespace SpecAtlas

open Source

structure Env where
  frontend : Frontend
  files : Files
  now : UInt64

structure FileFilter where
  included : Option (List Glob.Matcher)
  excluded : Option (List Glob.Matcher)

namespace FileFilter

def ofGlobs (globs excludeGlobs : List String) : Except Failure FileFilter := do
  let included ← (Glob.set? globs).mapError (.badGlob ·.message)
  let excluded ← (Glob.set? excludeGlobs).mapError (.badGlob ·.message)
  return { included, excluded }

def accepts (f : FileFilter) (path : String) : Bool :=
  (match f.included with
    | some set => Glob.anyAccepts set path
    | none => true)
  && (match f.excluded with
    | some set => !Glob.anyAccepts set path
    | none => true)
  && Path.isSource path

end FileFilter

def sourceFiles (fs : Files) (paths globs excludeGlobs : List String) :
    Except Failure (List String) := do
  if paths.isEmpty then throw .noPaths
  match paths.find? (!fs.has ·) with
  | some path => throw (.missingPath path)
  | none => pure ()
  let filter ← FileFilter.ofGlobs globs excludeGlobs
  return (fs.walk paths).filter filter.accepts

structure Scanned where
  report : FileReport
  cached : Bool := false

namespace ScanSummary

def ofScanned (files : List Scanned) : ScanSummary where
  filesScanned := .ofNat files.length
  specs := .ofNat (total (·.report.specs.length) files)
  tests := .ofNat (total (·.report.testCount) files)
  disabledTests := .ofNat (total (·.report.disabledCount) files)
  cachedFiles := .ofNat (files.countP Scanned.cached)

end ScanSummary

def ScanResult.ofScanned (files : List Scanned) : ScanResult where
  files := (files.map Scanned.report).filter (!·.specs.isEmpty)
  summary := .ofScanned files

namespace Env

def report? (env : Env) (hide : Hiding) (path : String) : Option FileReport :=
  match env.files.read path with
  | .ok text => (env.frontend.report path text hide).toOption
  | .error _ => none

/-- Stores the report of a file. The report names the path itself, so it is written only if that is
a text. That a database takes no text of more than 10^9 bytes is left out. -/
def store (env : Env) (path : String) (stamp : Stamp) (report : FileReport) (i : Index) :
    Index × Except Failure IndexRow :=
  if env.files.isText path then
    let (i, row) := i.store path stamp report
    (i, .ok row)
  else (i, .error .pathNotText)

end Env

def ScanConfig.hides (c : ScanConfig) : Hiding :=
  { callbacks := c.hideCallbacks, includes := c.hideIncludes }

def scan (env : Env) (config : ScanConfig) : Except Failure ScanResult := do
  let files ← sourceFiles env.files config.paths config.globs config.excludeGlobs
  return .ofScanned
    (files.filterMap fun path => (env.report? config.hides path).map fun report => { report })

/-- The report of a file with an index: the stored one, if the file is unchanged, else a fresh one,
which is stored. -/
def scanFile (env : Env) (hide : Hiding) (path : String) (i : Index) :
    Index × Except Failure (Option Scanned) :=
  match env.files.stamp path with
  | .error _ => (i, .ok none)
  | .ok stamp =>
    match i.cached (env.files.textOf path) stamp with
    | .error e => (i, .error e)
    | .ok (some report) => (i, .ok (some { report := report.hide hide, cached := true }))
    | .ok none =>
      -- reports are stored complete; what is to be hidden is left out afterwards
      match env.report? {} path with
      | none => (i, .ok none)
      | some report =>
        match env.store path stamp report i with
        | (i, .error e) => (i, .error e)
        | (i, .ok _) => (i, .ok (some { report := report.hide hide }))

def scanEach (env : Env) (hide : Hiding) :
    List String → Index → Index × Except Failure (List Scanned)
  | [], i => (i, .ok [])
  | path :: rest, i =>
    match scanFile env hide path i with
    -- what was stored before a failure stays
    | (i, .error e) => (i, .error e)
    | (i, .ok found) =>
      match scanEach env hide rest i with
      | (i, .error e) => (i, .error e)
      | (i, .ok more) => (i, .ok (found.toList ++ more))

def scanFiles (env : Env) (hide : Hiding) (files : List String) (i : Index) :
    Index × Except Failure ScanResult :=
  match scanEach env hide files i with
  | (i, .error e) => (i, .error e)
  | (i, .ok scanned) =>
    match i.loadMeta env.now with
    | .error e => (i, .error e)
    | .ok m => (i.saveMeta { m with updatedAt := env.now }, .ok (.ofScanned scanned))

def scanIndexed (env : Env) (config : ScanConfig) (i : Index) : Index × Except Failure ScanResult :=
  match sourceFiles env.files config.paths config.globs config.excludeGlobs with
  | .error e => (i, .error e)
  | .ok files => scanFiles env config.hides files i.opened

end SpecAtlas
