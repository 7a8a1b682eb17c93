import SpecAtlas.Proofs.Report.Coverage

/-! The spec that is launched. A position selects the nearest class around it, at any depth, while
the report of a file lists the classes of its top level; the two meet where the nearest class is
declared there. -/

namespace SpecAtlas

open Source

def LaunchCommand.valueOf? (c : LaunchCommand) (flag : String) : Option String :=
  ((c.args.dropWhile (· != flag)).drop 1).head?

lemma LaunchSelectors.valueOf?_spec (spec testPath : Option String) :
    (LaunchSelectors.command { package := none, spec, testPath }).valueOf? "--spec" =
      spec.filter (!Text.isBlankText ·) := by
  -- a test path may itself read like the flag, but then nothing follows it
  have hpath : (((argument "--testpath" testPath).dropWhile (· != "--spec")).drop 1).head? =
      none := by
    cases testPath with
    | none => rfl
    | some path =>
      rw [argument]
      split
      · rfl
      · by_cases h : path = "--spec" <;> simp [h]
  have hskip (h : argument "--spec" spec = []) :
      (command { package := none, spec, testPath }).valueOf? "--spec" = none := by
    rw [LaunchCommand.valueOf?, command, programArgs, h]
    exact hpath
  cases spec with
  | none => exact hskip rfl
  | some v =>
    cases hv : Text.isBlankText v with
    | true =>
      rw [Option.filter_some, hv]
      exact hskip (by rw [argument, if_pos hv])
    | false =>
      have hargs : argument "--spec" (some v) = ["--spec", v] := by simp [argument, hv]
      rw [Option.filter_some, hv, LaunchCommand.valueOf?, command, programArgs, hargs]
      rfl

lemma Spec.mem_topLevel_iff {f : File} {cls : Place} {spec : Spec}
    (h : ofClass? f cls = some spec) :
    spec ∈ topLevel f ↔ cls ∈ f.rootPlace.namedChildren := by
  obtain ⟨hnode, hstyle⟩ := ofClass?_eq_some h
  rw [topLevel, List.mem_filterMap]
  constructor
  · rintro ⟨other, hother, hspec⟩
    rw [← hnode, (ofClass?_eq_some hspec).1]
    exact (List.mem_filter.mp hother).1
  · intro hchild
    exact ⟨cls, List.mem_filter.mpr ⟨hchild, isClass_of_classify? hstyle⟩, h⟩

lemma FileReport.fqns_ofFile (path : String) (f : File) (hide : Hiding) :
    (ofFile path f hide).specs.map SpecReport.fqn = (Spec.topLevel f).map Spec.qualifiedName := by
  rw [ofFile, Outline.ofFile, List.map_map, List.map_map]
  rfl

lemma exists_spec_of_ofPosition {f : File} {path : String} {line column : UInt32}
    {cmd : LaunchCommand} (h : LaunchCommand.ofPosition f path line column = .ok cmd) :
    ∃ cls spec, (f.placeAt line column).enclosingClass? = some cls ∧
      Spec.ofClass? f cls = some spec ∧
      cmd = LaunchCommand.ofSpec spec ((Test.around? f (f.placeAt line column)).map Test.path) := by
  rw [LaunchCommand.ofPosition] at h
  split at h
  · rename_i spec hspec
    obtain ⟨cls, hcls, hof⟩ := Option.bind_eq_some_iff.mp hspec
    exact ⟨cls, spec, hcls, hof, (Except.ok.inj h).symm⟩
  · cases h

/-- A launch names the spec of the nearest class around the position. The report of the file lists
that spec if its class is declared at the top level, and otherwise lists the specs of other classes
only. -/
theorem launch_names_nearest_spec (frontend : Frontend) (fs : Files) (path text : String)
    (line column : UInt32) (hide : Hiding) (cmd : LaunchCommand)
    (hread : fs.read path = .ok text)
    (hlaunch : launch frontend fs (some path) (some (line, column)) none = .ok cmd) :
    ∃ f report cls spec,
      frontend.parse path text = .ok f ∧ frontend.report path text hide = .ok report ∧
      (f.placeAt line column).enclosingClass? = some cls ∧ Spec.ofClass? f cls = some spec ∧
      cmd.valueOf? "--spec" = (some spec.qualifiedName).filter (!Text.isBlankText ·) ∧
      report.specs.map SpecReport.fqn = (Spec.topLevel f).map Spec.qualifiedName ∧
      (cls ∈ f.rootPlace.namedChildren → spec.qualifiedName ∈ report.specs.map SpecReport.fqn) ∧
      (cls ∉ f.rootPlace.namedChildren → ∀ other ∈ Spec.topLevel f, other.node ≠ cls) := by
  cases hparse : frontend.parse path text with
  | error e =>
    have hload : frontend.load fs path = .error e := by rw [Frontend.load, hread]; exact hparse
    rw [launch, hload] at hlaunch
    cases hlaunch
  | ok f =>
    have hload : frontend.load fs path = .ok f := by rw [Frontend.load, hread]; exact hparse
    rw [launch_eq_ofPosition hload] at hlaunch
    obtain ⟨cls, spec, hcls, hspec, rfl⟩ := exists_spec_of_ofPosition hlaunch
    have hreport : frontend.report path text hide = .ok (FileReport.ofFile path f hide) := by
      rw [Frontend.report, hparse]
      rfl
    refine ⟨f, _, cls, spec, rfl, hreport, hcls, hspec, LaunchSelectors.valueOf?_spec _ _,
      FileReport.fqns_ofFile path f hide, fun hchild => ?_, fun hnested other hother heq => ?_⟩
    · rw [FileReport.fqns_ofFile]
      exact List.mem_map_of_mem ((Spec.mem_topLevel_iff hspec).mpr hchild)
    · have hof := (Spec.ofClass?_of_mem_topLevel hother).2
      rw [heq] at hof
      exact hnested ((Spec.mem_topLevel_iff hof).mp hother)

theorem launch_names_nearest_spec_specimen :
    ∃ cmd report, launch specimenFrontend specimenFiles (some "A.kt") (some (1, 60)) none =
      .ok cmd ∧
      specimenFrontend.report "A.kt" Test.specimen.text {} = .ok report ∧
      cmd.valueOf? "--spec" = some "A" ∧ "A" ∈ report.specs.map SpecReport.fqn := by
  have hlaunch : launch specimenFrontend specimenFiles (some "A.kt") (some (1, 60)) none =
      .ok (LaunchCommand.ofSpec Test.specimenSpec (some "outer slow")) := by
    decide +kernel
  obtain ⟨f, report, cls, spec, hparse, hreport, hcls, hspec, hvalue, -, htop, -⟩ :=
    launch_names_nearest_spec specimenFrontend specimenFiles "A.kt" Test.specimen.text 1 60 {} _
      rfl hlaunch
  obtain rfl : Test.specimen = f := Except.ok.inj hparse
  have hnumber : (Test.specimen.placeAt 1 60).enclosingClass?.map Place.number =
      some Test.specimenClass.number := by decide +kernel
  rw [hcls, Option.map_some, Option.some.injEq] at hnumber
  -- places of one tree with the same number are the same
  have hmem : cls ∈ Test.specimen.rootPlace.preorder :=
    (Place.mem_preorder_of_mem_lineage (Test.specimen.descend_mem_preorder _ _)
      (List.mem_of_find?_eq_some hcls)).1
  have hplace := Place.getElem?_preorder_number hmem
  rw [hnumber] at hplace
  obtain rfl := Option.some.inj
    ((Place.getElem?_preorder_number Test.specimenClass_mem).symm.trans hplace)
  obtain rfl := Option.some.inj (Test.specimenSpec_eq.symm.trans hspec)
  have hname : Test.specimenSpec.qualifiedName = "A" := by decide +kernel
  rw [hname] at hvalue htop
  exact ⟨_, report, hlaunch, hreport, hvalue, htop (List.mem_of_head? (by rfl))⟩

def nestedSpecimen : File where
  text := "class Outer \x7b\n    class Inner : FunSpec(\x7b test(\"t\") \x7b \x7d \x7d)\n\x7d\n"
  root := (Node.ofPreorder
    [(⟨"source_file", 0, 61, true, false, false⟩, 1),
      (⟨"class_declaration", 0, 60, true, false, false⟩, 2),
      (⟨"identifier", 6, 11, true, true, false⟩, 0),
      (⟨"class_body", 12, 60, true, false, false⟩, 1),
      (⟨"class_declaration", 18, 58, true, false, false⟩, 2),
      (⟨"identifier", 24, 29, true, true, false⟩, 0),
      (⟨"delegation_specifiers", 32, 58, true, false, false⟩, 1),
      (⟨"delegation_specifier", 32, 58, true, false, false⟩, 1),
      (⟨"constructor_invocation", 32, 58, true, false, false⟩, 2),
      (⟨"user_type", 32, 39, true, false, false⟩, 0),
      (⟨"value_arguments", 39, 58, true, false, false⟩, 1),
      (⟨"value_argument", 40, 57, true, false, false⟩, 1),
      (⟨"lambda_literal", 40, 57, true, false, false⟩, 1),
      (⟨"call_expression", 42, 55, true, false, false⟩, 2),
      (⟨"call_expression", 42, 51, true, false, false⟩, 2),
      (⟨"identifier", 42, 46, true, false, false⟩, 0),
      (⟨"value_arguments", 46, 51, true, false, false⟩, 1),
      (⟨"value_argument", 47, 50, true, false, false⟩, 1),
      (⟨"string_literal", 47, 50, true, false, false⟩, 0),
      (⟨"annotated_lambda", 52, 55, true, false, false⟩, 1),
      (⟨"lambda_literal", 52, 55, true, false, false⟩, 0)]).headD default

theorem nested_spec_launched :
    let frontend : Frontend := fun _ => nestedSpecimen.root
    let fs : Files := { specimenFiles with read := fun _ => .ok nestedSpecimen.text }
    ∃ cmd report, launch frontend fs (some "Outer.kt") (some (2, 29)) none = .ok cmd ∧
      cmd.valueOf? "--spec" = some "Inner" ∧
      frontend.report "Outer.kt" nestedSpecimen.text {} = .ok report ∧ report.specs = [] := by
  refine ⟨LaunchCommand.mk launcherMainClass ["--spec", "Inner", "--testpath", "t"],
    FileReport.ofFile "Outer.kt" nestedSpecimen {}, ?_, rfl, rfl, ?_⟩
  · decide +kernel
  · exact List.eq_nil_of_length_eq_zero (by decide +kernel)

end SpecAtlas
