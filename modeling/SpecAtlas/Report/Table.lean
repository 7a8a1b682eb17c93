import SpecAtlas.Report.Lines

/-!
Reports as tables with aligned columns. Widths count characters; a cell that is too wide is cut and
ends in an ellipsis.
-/

namespace SpecAtlas

namespace Text

/-- The text cut to `width` characters; a cut text ends in an ellipsis, which counts. -/
def truncate (width : Nat) (s : String) : String :=
  if s.length ≤ width then s
  else if width ≤ 1 then "…"
  else String.ofList (s.toList.take (width - 1)) ++ "…"

def padRight (width : Nat) (s : String) : String :=
  s ++ String.ofList (List.replicate (width - s.length) ' ')

def padLeft (width : Nat) (s : String) : String :=
  String.ofList (List.replicate (width - s.length) ' ') ++ s

def maxWidth (texts : List String) : Nat := texts.foldl (fun w s => max w s.length) 0

end Text

structure TableRow where
  file : String
  line : String
  spec : String
  test : String
  enabled : Bool
deriving DecidableEq, Repr

namespace TableRow

def ofTest (file spec : String) (t : TestReport) : TableRow where
  file
  line := toString t.range.startLine.toNat
  spec
  test := t.path
  enabled := t.enabled

def ofResult (r : ScanResult) : List TableRow :=
  r.files.flatMap fun f =>
    f.specs.flatMap fun s => (TestReport.flattenAll s.tests).map (ofTest f.path s.fqn)

end TableRow

structure TableWidths where
  file : Nat
  line : Nat
  spec : Nat
  test : Nat
deriving DecidableEq, Repr

namespace TableWidths

/-- Columns are as wide as their widest cell, but paths and specs at most 40 and tests at most 60
characters. -/
def ofRows (rows : List TableRow) : TableWidths where
  file := min (Text.maxWidth ("FILE" :: rows.map TableRow.file)) 40
  line := Text.maxWidth ("LINE" :: rows.map TableRow.line)
  spec := min (Text.maxWidth ("SPEC" :: rows.map TableRow.spec)) 40
  test := min (Text.maxWidth ("TEST" :: rows.map TableRow.test)) 60

def rowText (w : TableWidths) (file line spec test enabled : String) : String :=
  Text.padRight w.file (Text.truncate w.file file) ++ " " ++ Text.padLeft w.line line ++ " "
    ++ Text.padRight w.spec (Text.truncate w.spec spec) ++ " "
    ++ Text.padRight w.test (Text.truncate w.test test) ++ " " ++ enabled

def header (w : TableWidths) : String := w.rowText "FILE" "LINE" "SPEC" "TEST" "ENABLED"

def row (w : TableWidths) (r : TableRow) : String :=
  w.rowText r.file r.line r.spec r.test (if r.enabled then "yes" else "no")

end TableWidths

def ScanResult.table (r : ScanResult) : String :=
  match TableRow.ofResult r with
  | [] => ""
  | rows =>
    let w := TableWidths.ofRows rows
    unlines (w.header :: rows.map w.row)

def StyleInfo.listTable (styles : List StyleInfo) : String :=
  let idWidth := Text.maxWidth ("ID" :: styles.map StyleInfo.id)
  let labelWidth := Text.maxWidth ("LABEL" :: styles.map StyleInfo.label)
  let row (id label keywords : String) :=
    Text.padRight idWidth id ++ " " ++ Text.padRight labelWidth label ++ " " ++ keywords
  unlines
    (row "ID" "LABEL" "KEYWORDS"
      :: styles.map fun s => row s.id s.label (",".intercalate s.keywords))

end SpecAtlas
