import SpecAtlas.Index.Build
import SpecAtlas.Workspace.Index

/-!
The operations of the program, run in a workspace.
-/

namespace SpecAtlas.Workspace

def scan (w : Workspace) (config : ScanConfig) : Attempt ScanResult :=
  match config.index with
  | none => (w, SpecAtlas.scan w.env config)
  | some index =>
    match sourceFiles w.files config.paths config.globs config.excludeGlobs with
    | .error e => (w, .error e)
    | .ok files =>
      (w.openIndex index.indexPath).andThen fun w o =>
        w.conclude o (scanFiles w.env config.hides files o.contents)

def buildIndex (w : Workspace) (config : IndexConfig) : Attempt IndexSummary :=
  (w.openIndex config.indexPath).andThen fun w o =>
    w.conclude o (Index.attempt w.env o.path config o.contents)

def describeIndex (w : Workspace) (config : IndexConfig) : Attempt IndexSummary :=
  match w.files.kind? config.indexPath with
  | none => (w, .error (.indexMissing config.indexPath))
  | some .directory => (w, .error (.indexNotFile config.indexPath))
  | some .file =>
    (w.openIndex config.indexPath).andThen fun w o =>
      (w.close o, o.contents.describe config.indexPath w.now)

def testAt (w : Workspace) (request : TestAtRequest) : Except Failure TestAtResult :=
  SpecAtlas.testAt w.frontend w.files request

def launch (w : Workspace) (path : Option String) (position : Option (UInt32 × UInt32))
    (package : Option String) : Except Failure LaunchCommand :=
  SpecAtlas.launch w.frontend w.files path position package

end SpecAtlas.Workspace
