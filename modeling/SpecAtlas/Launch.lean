import SpecAtlas.Report.Basic
import SpecAtlas.Text.Blank

/-!
Command lines for the console runner. Selectors are handed over as they are; nothing here looks into
a test path or asks whether a spec exists.
-/

namespace SpecAtlas

def launcherMainClass : String := "io.kotest.runner.console.LauncherKt"

/-- What to run; a blank selector counts as absent. -/
structure LaunchSelectors where
  package : Option String := none
  spec : Option String := none
  testPath : Option String := none
deriving DecidableEq, Repr

namespace LaunchSelectors

def argument (flag : String) (value : Option String) : List String :=
  match value with
  | some v => if Text.isBlankText v then [] else [flag, v]
  | none => []

def programArgs (s : LaunchSelectors) : List String :=
  argument "--package" s.package ++ argument "--spec" s.spec ++ argument "--testpath" s.testPath

def command (s : LaunchSelectors) : LaunchCommand where
  mainClass := launcherMainClass
  args := s.programArgs

end LaunchSelectors

end SpecAtlas
