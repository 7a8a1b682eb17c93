import SpecAtlas.Report.Basic
import SpecAtlas.Text.Shell

/-!
Reports as lines of text for people.
-/

namespace SpecAtlas

def unlines (lines : List String) : String := String.join (lines.map (· ++ "\n"))

@[simp] theorem unlines_nil : unlines [] = "" := rfl

namespace TestReport

def remarks (enabled unique : Bool) : String :=
  match (if enabled then [] else ["disabled"]) ++ (if unique then [] else ["duplicate"]) with
  | [] => ""
  | marks => " (" ++ ", ".intercalate marks ++ ")"

def indent (depth : Nat) : String := String.ofList (List.replicate (2 * depth) ' ')

mutual

def lines (depth : Nat) : TestReport → List String
  | ⟨name, _, enabled, unique, range, children⟩ =>
    (indent depth ++ range.startText ++ " " ++ name ++ remarks enabled unique)
      :: linesAll (depth + 1) children

def linesAll (depth : Nat) : List TestReport → List String
  | [] => []
  | t :: ts => lines depth t ++ linesAll depth ts

end

end TestReport

def SpecReport.lines (s : SpecReport) : List String :=
  ("  " ++ s.fqn ++ " [" ++ s.styleLabel ++ "] " ++ s.range.startText)
    :: TestReport.linesAll 2 s.tests
    ++ s.callbacks.map (fun c =>
      "    " ++ c.range.startText ++ " " ++ c.kind.label ++ ": " ++ c.kind.keyword)
    ++ s.includes.map (fun i =>
      "    " ++ i.range.startText ++ " Include: " ++ i.name ++ " (" ++ i.kind.name ++ ")")

def FileReport.lines (r : FileReport) : List String :=
  r.path :: r.specs.flatMap SpecReport.lines

def ScanSummary.line (s : ScanSummary) : String :=
  toString s.specs.toNat ++ " specs, " ++ toString s.tests.toNat ++ " tests ("
    ++ toString s.disabledTests.toNat ++ " disabled) in "
    ++ toString s.filesScanned.toNat ++ " files"
    ++ (if s.cachedFiles > 0 then ", " ++ toString s.cachedFiles.toNat ++ " from index" else "")

def ScanResult.text (r : ScanResult) : String :=
  unlines (r.files.flatMap FileReport.lines ++ [r.summary.line])

def TestAtResult.specLine (r : TestAtResult) : String :=
  match r.spec, r.style with
  | some spec, some style => "spec    : " ++ spec ++ " (" ++ style ++ ")"
  | some spec, none => "spec    : " ++ spec
  | none, _ => "spec    : (none)"

def TestAtResult.testLines (r : TestAtResult) : List String :=
  match r.test with
  | some t =>
    ["test    : " ++ t.name, "path    : " ++ t.path,
      "enabled : " ++ (if t.enabled then "true" else "false"),
      "range   : " ++ t.range.startText ++ "-" ++ toString t.range.endLine.toNat ++ ":"
        ++ toString t.range.endColumn.toNat]
  | none => ["test    : (none)"]

def TestAtResult.text (r : TestAtResult) : String := unlines (r.specLine :: r.testLines)

def LaunchCommand.text (c : LaunchCommand) : String := Text.Shell.line (c.mainClass :: c.args)

def StyleInfo.lines (s : StyleInfo) : List String :=
  [s.id ++ ": " ++ s.label ++ " (" ++ s.fqn ++ ")",
    "    keywords : " ++ ", ".intercalate s.keywords,
    "    template : " ++ s.template]

def StyleInfo.listText (styles : List StyleInfo) : String := unlines (styles.flatMap lines)

def IndexSummary.builtText (s : IndexSummary) : String :=
  unlines
    ["Indexed " ++ toString s.filesIndexed.toNat ++ " files, " ++ toString s.specsIndexed.toNat
      ++ " specs and " ++ toString s.testsIndexed.toNat ++ " tests at " ++ s.indexPath]

def IndexSummary.infoText (s : IndexSummary) : String :=
  let optional (label : String) (value : Option String) := value.toList.map (label ++ ·)
  unlines
    (["index_path   : " ++ s.indexPath]
      ++ optional "root_path    : " s.rootPath
      ++ optional "schema       : " s.schemaVersion
      ++ optional "tool_version : " s.toolVersion
      ++ optional "created_at   : " s.createdAt
      ++ optional "updated_at   : " s.updatedAt
      ++ ["files        : " ++ toString s.filesIndexed.toNat,
        "specs        : " ++ toString s.specsIndexed.toNat,
        "tests        : " ++ toString s.testsIndexed.toNat])

end SpecAtlas
