import SpecAtlas.Source.Range
import SpecAtlas.Spec.Lifecycle

/-!
Reports: the outcome of a scan as plain data, with ranges in place of nodes.
-/

namespace SpecAtlas

open Source

structure TestReport where
  name : String
  path : String
  enabled : Bool
  /-- False when a sibling has the same name. -/
  unique : Bool
  range : TextRange
  children : List TestReport := []
deriving Inhabited

namespace TestReport

mutual

def count : TestReport → Nat
  | ⟨_, _, _, _, _, children⟩ => 1 + countAll children

def countAll : List TestReport → Nat
  | [] => 0
  | t :: ts => t.count + countAll ts

end

mutual

def disabledCount : TestReport → Nat
  | ⟨_, _, enabled, _, _, children⟩ => (if enabled then 0 else 1) + disabledCountAll children

def disabledCountAll : List TestReport → Nat
  | [] => 0
  | t :: ts => t.disabledCount + disabledCountAll ts

end

mutual

def flatten : TestReport → List TestReport
  | t@⟨_, _, _, _, _, children⟩ => t :: flattenAll children

def flattenAll : List TestReport → List TestReport
  | [] => []
  | t :: ts => t.flatten ++ flattenAll ts

end

mutual

theorem length_flatten : (t : TestReport) → t.flatten.length = t.count
  | ⟨_, _, _, _, _, children⟩ => by
    rw [flatten, count, List.length_cons, length_flattenAll children, Nat.add_comm]

theorem length_flattenAll : (ts : List TestReport) → (flattenAll ts).length = countAll ts
  | [] => rfl
  | t :: ts => by
    rw [flattenAll, countAll, List.length_append, length_flatten t, length_flattenAll ts]

end

mutual

def findRange? (range : TextRange) : TestReport → Option TestReport
  | t@⟨_, _, _, _, r, children⟩ => if r = range then some t else findRangeAll? range children

def findRangeAll? (range : TextRange) : List TestReport → Option TestReport
  | [] => none
  | t :: ts => (t.findRange? range).or (findRangeAll? range ts)

end

end TestReport

structure CallbackReport where
  kind : CallbackKind
  range : TextRange
deriving DecidableEq, Repr, Inhabited

structure IncludeReport where
  name : String
  kind : IncludeKind
  range : TextRange
deriving DecidableEq, Repr, Inhabited

structure SpecReport where
  name : String
  fqn : String
  style : String
  styleLabel : String
  range : TextRange
  tests : List TestReport := []
  callbacks : List CallbackReport := []
  includes : List IncludeReport := []
deriving Inhabited

namespace SpecReport

def testCount (s : SpecReport) : Nat := TestReport.countAll s.tests

def disabledCount (s : SpecReport) : Nat := TestReport.disabledCountAll s.tests

end SpecReport

def total {α : Type} (quantity : α → Nat) (items : List α) : Nat :=
  items.foldr (fun a n => quantity a + n) 0

@[simp] theorem total_nil {α : Type} (quantity : α → Nat) : total quantity [] = 0 := rfl

@[simp] theorem total_cons {α : Type} (quantity : α → Nat) (a : α) (rest : List α) :
    total quantity (a :: rest) = quantity a + total quantity rest := rfl

structure FileReport where
  path : String
  package : Option String := none
  hasErrors : Bool := false
  specs : List SpecReport := []
deriving Inhabited

namespace FileReport

def testCount (r : FileReport) : Nat := total SpecReport.testCount r.specs

def disabledCount (r : FileReport) : Nat := total SpecReport.disabledCount r.specs

end FileReport

structure ScanSummary where
  filesScanned : UInt64 := 0
  specs : UInt64 := 0
  tests : UInt64 := 0
  disabledTests : UInt64 := 0
  cachedFiles : UInt64 := 0
deriving DecidableEq, Repr, Inhabited

def scanResultVersion : String := "1.0.0"

structure ScanResult where
  version : String := scanResultVersion
  files : List FileReport := []
  summary : ScanSummary
deriving Inhabited

structure TestAtRequest where
  path : String
  line : UInt32
  column : UInt32
  /-- Only the token that introduces a test counts, not its body. -/
  leaf : Bool := false
deriving DecidableEq, Repr, Inhabited

structure TestAtResult where
  path : String
  spec : Option String := none
  style : Option String := none
  test : Option TestReport := none
deriving Inhabited

structure StyleInfo where
  id : String
  fqn : String
  label : String
  keywords : List String
  template : String
deriving DecidableEq, Repr, Inhabited

structure LaunchCommand where
  mainClass : String
  args : List String
deriving DecidableEq, Repr, Inhabited

structure IndexConfig where
  paths : List String
  globs : List String := []
  excludeGlobs : List String := []
  indexPath : String
deriving DecidableEq, Repr, Inhabited

structure ScanConfig where
  paths : List String
  globs : List String := []
  excludeGlobs : List String := []
  hideCallbacks : Bool := false
  hideIncludes : Bool := false
  index : Option IndexConfig := none
deriving DecidableEq, Repr, Inhabited

structure IndexSummary where
  indexPath : String
  filesIndexed : UInt64
  specsIndexed : UInt64
  testsIndexed : UInt64
  rootPath : Option String := none
  schemaVersion : Option String := none
  toolVersion : Option String := none
  createdAt : Option String := none
  updatedAt : Option String := none
deriving DecidableEq, Repr, Inhabited

end SpecAtlas
