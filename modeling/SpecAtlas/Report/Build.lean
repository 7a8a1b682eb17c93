import SpecAtlas.Report.Basic
import SpecAtlas.Spec.Outline

/-!
Reports of outlines. Siblings keep their order; a test is marked unique when no other test of the
same list has its name.
-/

namespace SpecAtlas

open Source

namespace TestReport

def uniqueIn (siblings : List Test) (name : String) : Bool :=
  siblings.countP (·.name == name) == 1

mutual

def ofTest (f : File) (siblings : List Test) : Test → TestReport
  | ⟨name, path, enabled, node, children⟩ =>
    { name, path, enabled
      unique := uniqueIn siblings name
      range := f.rangeOf node
      children := ofTestsAmong f children children }

def ofTestsAmong (f : File) (siblings : List Test) : List Test → List TestReport
  | [] => []
  | t :: ts => ofTest f siblings t :: ofTestsAmong f siblings ts

end

def ofTests (f : File) (tests : List Test) : List TestReport := ofTestsAmong f tests tests

theorem ofTestsAmong_eq_map (f : File) (siblings ts : List Test) :
    ofTestsAmong f siblings ts = ts.map (ofTest f siblings) := by
  induction ts with
  | nil => rw [ofTestsAmong, List.map_nil]
  | cons t ts ih => rw [ofTestsAmong, ih, List.map_cons]

@[simp] theorem length_ofTests (f : File) (tests : List Test) :
    (ofTests f tests).length = tests.length := by
  simp [ofTests, ofTestsAmong_eq_map]

end TestReport

def SpecReport.ofOutline (f : File) (o : Outline) : SpecReport where
  name := o.spec.name
  fqn := o.spec.qualifiedName
  style := o.spec.style.id
  styleLabel := o.spec.style.label
  range := f.rangeOf o.spec.node
  tests := TestReport.ofTests f o.tests
  callbacks := o.callbacks.map fun c => { kind := c.kind, range := f.rangeOf c.node }
  includes := o.includes.map fun i => { name := i.name, kind := i.kind, range := f.rangeOf i.node }

def FileReport.ofFile (path : String) (f : File) (hide : Hiding) : FileReport where
  path
  package := f.package?
  hasErrors := f.hasErrors
  specs := (Outline.ofFile f hide).map (SpecReport.ofOutline f)

def SpecReport.hide (h : Hiding) (s : SpecReport) : SpecReport :=
  { s with
    callbacks := if h.callbacks then [] else s.callbacks
    includes := if h.includes then [] else s.includes }

def FileReport.hide (h : Hiding) (r : FileReport) : FileReport :=
  { r with specs := r.specs.map (·.hide h) }

@[simp] theorem SpecReport.testCount_hide (h : Hiding) (s : SpecReport) :
    (s.hide h).testCount = s.testCount := rfl

/-- The report of a test as it stands in the outline of its spec, so that its uniqueness is that
among its siblings; a test that the outline lacks stands alone. -/
def TestReport.inOutline (f : File) (spec : Spec) (test : Test) : TestReport :=
  (findRangeAll? (f.rangeOf test.node) (ofTests f (Outline.testsOf f spec))).getD
    (ofTest f [test] test)

def StyleInfo.all : List StyleInfo :=
  Style.all.map fun s =>
    { id := s.id
      fqn := s.qualifiedName
      label := s.label
      keywords := s.keywords.map Keyword.name
      template := s.template }

end SpecAtlas
