import SpecAtlas.Failure
import SpecAtlas.Launch
import SpecAtlas.Report.Build

/-!
Questions about a position of a file: the spec and the test there, and the command line that runs
them.
-/

namespace SpecAtlas

open Source

namespace TestAtResult

/-- The test at a place: the one its leaf introduces, or the innermost around it. -/
def testAt? (f : File) (leaf : Bool) (p : Place) : Option Test :=
  if leaf then Test.atLeaf? f p else Test.around? f p

def ofFile (f : File) (request : TestAtRequest) : TestAtResult :=
  let p := f.placeAt request.line request.column
  let spec := Spec.around? f p
  { path := request.path
    spec := spec.map Spec.qualifiedName
    style := spec.map (·.style.id)
    test := do return TestReport.inOutline f (← spec) (← testAt? f request.leaf p) }

end TestAtResult

namespace LaunchCommand

def ofSpec (spec : Spec) (testPath : Option String) : LaunchCommand :=
  { spec := some spec.qualifiedName, testPath : LaunchSelectors }.command

def ofPosition (f : File) (path : String) (line column : UInt32) : Except Failure LaunchCommand :=
  let p := f.placeAt line column
  match Spec.around? f p with
  | some spec => .ok (ofSpec spec ((Test.around? f p).map Test.path))
  | none => .error (.noSpecAt path line.toNat column.toNat)

def ofFile (f : File) (path : String) : Except Failure LaunchCommand :=
  match (Spec.topLevel f).head? with
  | some spec => .ok (ofSpec spec none)
  | none => .error (.noSpecIn path)

def ofPackage (package : Option String) : Except Failure LaunchCommand :=
  match package.filter (!Text.isBlankText ·) with
  | some p => .ok { package := some p : LaunchSelectors }.command
  | none => .error .nothingToLaunch

end LaunchCommand

end SpecAtlas
