import SpecAtlas.Files.Basic
import SpecAtlas.Language
import SpecAtlas.Report.Position

/-!
Questions that read one source file.
-/

namespace SpecAtlas

open Source

abbrev Frontend := String → Node

namespace Frontend

def parse (frontend : Frontend) (path text : String) : Except Failure File :=
  if Path.isSource path then .ok { text, root := frontend text } else .error (.unsupported path)

def report (frontend : Frontend) (path text : String) (hide : Hiding) :
    Except Failure FileReport :=
  (frontend.parse path text).map fun f => FileReport.ofFile path f hide

def load (frontend : Frontend) (fs : Files) (path : String) : Except Failure File :=
  match fs.read path with
  | .ok text => frontend.parse path text
  | .error e => .error (.unreadable path e)

end Frontend

def testAt (frontend : Frontend) (fs : Files) (request : TestAtRequest) :
    Except Failure TestAtResult :=
  (frontend.load fs request.path).map fun f => TestAtResult.ofFile f request

def launch (frontend : Frontend) (fs : Files) (path : Option String)
    (position : Option (UInt32 × UInt32)) (package : Option String) :
    Except Failure LaunchCommand :=
  match path with
  | none => LaunchCommand.ofPackage package
  | some path => do
    let f ← frontend.load fs path
    match position with
    | some (line, column) => LaunchCommand.ofPosition f path line column
    | none => LaunchCommand.ofFile f path

end SpecAtlas
