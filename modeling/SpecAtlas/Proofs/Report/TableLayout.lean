import Mathlib.Data.List.Fold
import Mathlib.Data.List.Forall2
import Mathlib.Data.List.MinMax
import SpecAtlas.Proofs.Report.Address

/-! The layout of tables. A column is as wide as its widest cell, but never wider than its cap, so a
text is cut exactly if it is longer than the cap, and what is shown of it fits the column. Hence the
cells of all rows start at the same offsets. -/

namespace SpecAtlas

namespace Text

variable {cap width : Nat} {s : String}

/-- What is shown of a text where there is room for `cap` characters: all of it, or its first
characters and an ellipsis. -/
def clip (cap : Nat) (s : String) : String :=
  if s.length ≤ cap then s else String.ofList (s.toList.take (cap - 1)) ++ "…"

lemma length_clip_le (hcap : 0 < cap) : (clip cap s).length ≤ cap := by
  rw [clip]
  split_ifs with hfits
  · exact hfits
  · have hone : "…".length = 1 := rfl
    rw [String.length_append, String.length_ofList, List.length_take, hone]
    omega

def blanks (n : Nat) : String := String.ofList (List.replicate n ' ')

def IsLeftCell (width : Nat) (text cell : String) : Prop :=
  cell.length = width ∧ ∃ n, cell = text ++ blanks n

def IsRightCell (width : Nat) (text cell : String) : Prop :=
  cell.length = width ∧ ∃ n, cell = blanks n ++ text

lemma isLeftCell_padRight (h : s.length ≤ width) : IsLeftCell width s (padRight width s) := by
  refine ⟨?_, _, rfl⟩
  rw [padRight, String.length_append, String.length_ofList, List.length_replicate]
  omega

lemma isRightCell_padLeft (h : s.length ≤ width) : IsRightCell width s (padLeft width s) := by
  refine ⟨?_, _, rfl⟩
  rw [padLeft, String.length_append, String.length_ofList, List.length_replicate]
  omega

lemma le_maxWidth {texts : List String} (h : s ∈ texts) : s.length ≤ maxWidth texts := by
  have hmax : maxWidth texts = (texts.map String.length).foldr max 0 := by
    rw [maxWidth, ← List.foldl_map, List.foldl_eq_foldr]
  rw [hmax]
  exact List.le_max_of_le' 0 (List.mem_map_of_mem h) le_rfl

lemma isLeftCell_of_mem {texts : List String} (hcap : 2 ≤ cap) (h : s ∈ texts) :
    IsLeftCell (min (maxWidth texts) cap) (clip cap s)
      (padRight (min (maxWidth texts) cap) (truncate (min (maxWidth texts) cap) s)) := by
  have hle := le_maxWidth h
  by_cases hfits : s.length ≤ cap
  · have hwidth : s.length ≤ min (maxWidth texts) cap := le_min hle hfits
    rw [truncate, if_pos hwidth, clip, if_pos hfits]
    exact isLeftCell_padRight hwidth
  · -- a text beyond the cap makes the column as wide as it may be
    have hwidth : min (maxWidth texts) cap = cap := min_eq_right (by omega)
    have hcut : truncate cap s = clip cap s := by
      rw [truncate, if_neg hfits, if_neg (by omega), clip, if_neg hfits]
    rw [hwidth, hcut]
    exact isLeftCell_padRight (length_clip_le (by omega))

end Text

namespace TableWidths

/-- A row: cells for file, line, spec and test, each with a blank behind it, and then the last cell,
which starts at the offset. -/
def IsRow (w : TableWidths) (offset : Nat) (file line spec test last row : String) : Prop :=
  ∃ a b c d front, Text.IsLeftCell w.file (Text.clip 40 file) a ∧
    Text.IsRightCell w.line line b ∧ Text.IsLeftCell w.spec (Text.clip 40 spec) c ∧
    Text.IsLeftCell w.test (Text.clip 60 test) d ∧
    front = a ++ " " ++ b ++ " " ++ c ++ " " ++ d ++ " " ∧ front.length = offset ∧
    row = front ++ last ++ "\n"

def offset (w : TableWidths) : Nat := w.file + w.line + w.spec + w.test + 4

lemma isRow_rowText {rows : List TableRow} {file line spec test : String} (last : String)
    (hfile : file ∈ "FILE" :: rows.map TableRow.file)
    (hline : line ∈ "LINE" :: rows.map TableRow.line)
    (hspec : spec ∈ "SPEC" :: rows.map TableRow.spec)
    (htest : test ∈ "TEST" :: rows.map TableRow.test) :
    (ofRows rows).IsRow (ofRows rows).offset file line spec test last
      ((ofRows rows).rowText file line spec test last ++ "\n") := by
  have hfileCell := Text.isLeftCell_of_mem (show 2 ≤ 40 by decide) hfile
  have hlineCell := Text.isRightCell_padLeft (Text.le_maxWidth hline)
  have hspecCell := Text.isLeftCell_of_mem (show 2 ≤ 40 by decide) hspec
  have htestCell := Text.isLeftCell_of_mem (show 2 ≤ 60 by decide) htest
  refine ⟨_, _, _, _, _, hfileCell, hlineCell, hspecCell, htestCell, rfl, ?_, rfl⟩
  have hblank : " ".length = 1 := rfl
  simp only [String.length_append, hfileCell.1, hlineCell.1, hspecCell.1, htestCell.1, hblank,
    offset, ofRows]
  omega

end TableWidths

namespace ScanResult

open Address

lemma table_eq {r : ScanResult} (h : TableRow.ofResult r ≠ []) :
    r.table = (TableWidths.ofRows (TableRow.ofResult r)).header ++ "\n" ++
      String.join ((TableRow.ofResult r).map fun row =>
        (TableWidths.ofRows (TableRow.ofResult r)).row row ++ "\n") := by
  rw [table]
  split
  · rename_i he
    exact absurd he h
  · rw [unlines, List.map_cons, String.join_cons, List.map_map]
    rfl

lemma ofResult_ne_nil {r : ScanResult}
    (hr : ∃ file ∈ r.files, ∃ spec ∈ file.specs, spec.tests ≠ []) : TableRow.ofResult r ≠ [] := by
  obtain ⟨file, hfile, spec, hspec, htests⟩ := hr
  intro he
  have hnone := List.flatMap_eq_nil_iff.mp (List.flatMap_eq_nil_iff.mp he file hfile) spec hspec
  cases hcases : spec.tests with
  | nil => exact htests hcases
  | cons t ts =>
    obtain ⟨_, _, _, _, _, _⟩ := t
    simp [hcases, TestReport.flattenAll, TestReport.flatten] at hnone

/-- A table has a row of heads and a row for each test, in the order of files, specs and trees. The
last cells start at one offset, and a cell shows all of its text unless that is longer than the cap
of the column. -/
theorem table_rows (r : ScanResult)
    (hr : ∃ file ∈ r.files, ∃ spec ∈ file.specs, spec.tests ≠ []) :
    InOrder (fun way => (r.placed? way).map PlacedTest.row) (TableRow.ofResult r) ∧
    ∃ (w : TableWidths) (offset : Nat) (head : String) (rows : List String),
      r.table = head ++ String.join rows ∧
      w.IsRow offset "FILE" "LINE" "SPEC" "TEST" "ENABLED" head ∧
      List.Forall₂ (fun (t : TableRow) row => w.IsRow offset t.file t.line t.spec t.test
        (if t.enabled then "yes" else "no") row) (TableRow.ofResult r) rows := by
  refine ⟨TableRow.ofResult_inOrder r, _, _, _, _, table_eq (ofResult_ne_nil hr),
    TableWidths.isRow_rowText "ENABLED" ?_ ?_ ?_ ?_, ?_⟩
  · exact List.mem_cons_self
  · exact List.mem_cons_self
  · exact List.mem_cons_self
  · exact List.mem_cons_self
  · rw [List.forall₂_map_right_iff, List.forall₂_same]
    intro t ht
    exact TableWidths.isRow_rowText _ (List.mem_cons_of_mem _ (List.mem_map_of_mem ht))
      (List.mem_cons_of_mem _ (List.mem_map_of_mem ht))
      (List.mem_cons_of_mem _ (List.mem_map_of_mem ht))
      (List.mem_cons_of_mem _ (List.mem_map_of_mem ht))

def wide : ScanResult where
  files := [{
    path := String.ofList (List.replicate 41 'é')
    specs := [{
      name := "ASpec", fqn := "ASpec", style := "fun", styleLabel := "Fun Spec"
      range := ⟨1, 1, 9, 2⟩
      tests := [{
        name := "", path := String.ofList (List.replicate 60 'a'), enabled := true, unique := true
        range := ⟨2, 5, 8, 6⟩
        children := [{
          name := "", path := String.ofList (List.replicate 61 'a'), enabled := false
          unique := true, range := ⟨10, 9, 10, 20⟩ }] }] }] }]
  summary := {}

theorem table_rows_wide :
    (∃ file ∈ wide.files, ∃ spec ∈ file.specs, spec.tests ≠ []) ∧
    ∃ (w : TableWidths) (offset : Nat) (head first second : String),
      wide.table = head ++ (first ++ second) ∧
      w.IsRow offset "FILE" "LINE" "SPEC" "TEST" "ENABLED" head ∧
      w.IsRow offset (String.ofList (List.replicate 41 'é')) "2" "ASpec"
        (String.ofList (List.replicate 60 'a')) "yes" first ∧
      w.IsRow offset (String.ofList (List.replicate 41 'é')) "10" "ASpec"
        (String.ofList (List.replicate 61 'a')) "no" second := by
  have hr : ∃ file ∈ wide.files, ∃ spec ∈ file.specs, spec.tests ≠ [] :=
    ⟨_, List.mem_cons_self, _, List.mem_cons_self, List.cons_ne_nil _ _⟩
  obtain ⟨-, w, offset, head, rows, htable, hhead, hrows⟩ := table_rows wide hr
  have hresult : TableRow.ofResult wide =
      [⟨String.ofList (List.replicate 41 'é'), "2", "ASpec", String.ofList (List.replicate 60 'a'),
        true⟩,
        ⟨String.ofList (List.replicate 41 'é'), "10", "ASpec",
        String.ofList (List.replicate 61 'a'), false⟩] := by decide +kernel
  rw [hresult] at hrows
  obtain ⟨first, _, hfirst, hrest, rfl⟩ := List.forall₂_cons_left_iff.mp hrows
  obtain ⟨second, _, hsecond, hnil, rfl⟩ := List.forall₂_cons_left_iff.mp hrest
  obtain rfl := List.forall₂_nil_left_iff.mp hnil
  refine ⟨hr, w, offset, head, first, second, ?_, hhead, hfirst, hsecond⟩
  simpa using htable

end ScanResult

end SpecAtlas
