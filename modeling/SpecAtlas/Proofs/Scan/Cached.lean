import SpecAtlas.Proofs.Index.Rows
import SpecAtlas.Proofs.Report.Codec

/-! Scans with an index. As long as every row that bears the present stamp of its file holds the
report of that file, a scan with the index finds what a scan without it does. -/

namespace SpecAtlas

open Source

variable {env : Env} {hide : Hiding} {path : String} {i : Index}

lemma SpecReport.ofOutline_hide (f : File) (hide : Hiding) (spec : Spec) :
    (ofOutline f (Outline.ofSpec f {} spec)).hide hide =
      ofOutline f (Outline.ofSpec f hide spec) := by
  obtain ⟨callbacks, includes⟩ := hide
  cases callbacks <;> cases includes <;> rfl

lemma FileReport.ofFile_hide (path : String) (f : File) (hide : Hiding) :
    (ofFile path f {}).hide hide = ofFile path f hide := by
  simp [ofFile, FileReport.hide, Outline.ofFile, Function.comp_def, SpecReport.ofOutline_hide]

lemma Env.report?_hide (env : Env) (hide : Hiding) (path : String) :
    env.report? hide path = (env.report? {} path).map (·.hide hide) := by
  rw [report?, report?]
  cases env.files.read path with
  | error e => rfl
  | ok text =>
    by_cases hp : Path.isSource path
    · simp [Frontend.report, Frontend.parse, hp, Except.map, Except.toOption,
        FileReport.ofFile_hide]
    · simp [Frontend.report, Frontend.parse, hp, Except.map, Except.toOption]

/-- If the row is that of one of the files, and this still has the stamp of the row, the row holds
its report. -/
def Env.Confirms (env : Env) (files : List String) (row : IndexRow) : Prop :=
  row.path ∈ files → env.files.stamp row.path = .ok row.stamp →
    ∃ report, env.report? {} row.path = some report ∧ row.report = report.toJson.render

lemma Env.grants_confirms (env : Env) (files some : List String) :
    env.Grants (env.Confirms files) some := by
  intro path _ stamp report _ hreport id _ _
  exact ⟨report, hreport, rfl⟩

namespace Index

lemma cached_of_current? {stamp : Stamp} {row : IndexRow} {report : FileReport}
    (h : i.current? path stamp = some row) (htext : row.report = report.toJson.render) :
    i.cached path stamp =
      if report.toJson.depth ≤ Json.maxDepth then .ok (some report)
      else .error (.corruptEntry path) := by
  simp only [cached, h, htext, FileReport.decoder_inverts.ofText_render]
  split_ifs <;> rfl

lemma report?_of_cached {files : List String} (hi : i.AllRows (env.Confirms files))
    (hpath : path ∈ files) {stamp : Stamp} {report : FileReport}
    (hstamp : env.files.stamp path = .ok stamp) (h : i.cached path stamp = .ok (some report)) :
    env.report? {} path = some report := by
  cases hrow : i.current? path stamp with
  | none => simp [cached, hrow] at h
  | some row =>
    obtain ⟨hmem, rfl, rfl⟩ := current?_eq_some hrow
    obtain ⟨fresh, hfresh, htext⟩ := hi row hmem hpath hstamp
    rw [cached_of_current? hrow htext] at h
    split_ifs at h
    cases h
    exact hfresh

lemma cached_congr {j : Index}
    (h : j.rows.filter (·.path == path) = i.rows.filter (·.path == path)) (stamp : Stamp) :
    j.cached path stamp = i.cached path stamp := by
  have hcurrent (k : Index) : k.current? path stamp
      = (k.rows.filter (·.path == path)).find? (·.stamp == stamp) := by
    rw [current?, List.find?_filter]
    congr 1
    funext r
    rw [Bool.eq_iff_iff]
    simp
  rw [cached, cached, hcurrent, hcurrent, h]

lemma cached_store_of_ne {other : String} (h : other ≠ path) (stamp s : Stamp)
    (report : FileReport) : (i.store other s report).1.cached path stamp = i.cached path stamp :=
  cached_congr (filter_rows_store (· == path) (by simpa using h)) stamp

lemma cached_store_self (i : Index) (path : String) (stamp : Stamp) (report : FileReport) :
    (i.store path stamp report).1.cached path stamp =
      if report.toJson.depth ≤ Json.maxDepth then .ok (some report)
      else .error (.corruptEntry path) := by
  obtain ⟨id, hid⟩ := exists_mem_rows_store i path stamp report
  cases hrow : (i.store path stamp report).1.current? path stamp with
  | none => exact absurd rfl (current?_eq_none_iff.mp hrow _ hid rfl)
  | some row =>
    obtain ⟨hmem, hpath, -⟩ := current?_eq_some hrow
    rcases mem_rows_store hmem with he | ⟨-, hne⟩
    · exact cached_of_current? hrow (congrArg IndexRow.report he)
    · exact absurd hpath hne

end Index

def Files.Stamped (fs : Files) : Prop :=
  ∀ path text, fs.read path = .ok text → ∃ s, fs.stamp path = .ok s

lemma Env.report?_of_unstamped (hstamped : env.files.Stamped) {e : FileError}
    (h : env.files.stamp path = .error e) : env.report? hide path = none := by
  rw [report?]
  cases hread : env.files.read path with
  | error e => rfl
  | ok text =>
    obtain ⟨s, hs⟩ := hstamped path text hread
    rw [h] at hs
    cases hs

lemma report_of_scanFile (htext : env.files.Textual)
    (hstamped : env.files.Stamped) {files : List String}
    (hi : i.AllRows (env.Confirms files)) (hpath : path ∈ files) {found : Option Scanned}
    (h : (scanFile env hide path i).2 = .ok found) :
    found.map Scanned.report = env.report? hide path := by
  rw [scanFile, htext path] at h
  split at h
  · rename_i e he
    cases h
    rw [Env.report?_of_unstamped hstamped he]
    rfl
  · rename_i stamp hstamp
    rw [Env.report?_hide]
    split at h
    · cases h
    · rename_i report hcached
      cases h
      rw [Index.report?_of_cached hi hpath hstamp hcached]
      rfl
    · split at h
      · rename_i hnone
        cases h
        rw [hnone]
        rfl
      · rename_i report hsome
        rw [Env.store_of_isText (htext.isText path)] at h
        cases h
        rw [hsome]
        rfl

lemma reports_of_scanEach (htext : env.files.Textual) (hstamped : env.files.Stamped)
    {files all : List String} (hi : i.AllRows (env.Confirms all)) (hfiles : ∀ p ∈ files, p ∈ all)
    {scanned : List Scanned} (h : (scanEach env hide files i).2 = .ok scanned) :
    scanned.map Scanned.report = files.filterMap (env.report? hide) := by
  induction files generalizing i scanned with
  | nil =>
    cases h
    rfl
  | cons path rest ih =>
    have hrows : (scanFile env hide path i).1.AllRows (env.Confirms all) :=
      hi.scanFile (env.grants_confirms all [path])
    rw [scanEach] at h
    split at h
    · cases h
    · rename_i j found heq
      rw [heq] at hrows
      have hfound := report_of_scanFile htext hstamped hi (hfiles path List.mem_cons_self)
        (congrArg Prod.snd heq)
      split at h
      · cases h
      · rename_i k more hmore
        have htail := ih hrows (fun p hp => hfiles p (List.mem_cons_of_mem _ hp))
          (congrArg Prod.snd hmore)
        cases h
        rw [List.map_append, htail, List.filterMap_cons, ← hfound]
        cases found <;> rfl

/-- The results agree, except for how many reports came from an index. -/
structure ScanResult.Agrees (r s : ScanResult) : Prop where
  version : r.version = s.version
  files : r.files = s.files
  summary : { r.summary with cachedFiles := s.summary.cachedFiles } = s.summary

lemma total_map {α β : Type} (quantity : β → Nat) (f : α → β) (items : List α) :
    total quantity (items.map f) = total (fun a => quantity (f a)) items := by
  induction items with
  | nil => rfl
  | cons a items ih => rw [List.map_cons, total_cons, total_cons, ih]

lemma ScanResult.agrees_ofScanned {xs ys : List Scanned}
    (h : xs.map Scanned.report = ys.map Scanned.report) : (ofScanned xs).Agrees (ofScanned ys) := by
  have hlength : xs.length = ys.length := by
    simpa using congrArg List.length h
  have htotal (quantity : FileReport → Nat) :
      total (fun x => quantity x.report) xs = total (fun y => quantity y.report) ys := by
    rw [← total_map quantity Scanned.report, ← total_map quantity Scanned.report, h]
  refine ⟨rfl, ?_, ?_⟩
  · rw [ofScanned, ofScanned, h]
  · simp only [ofScanned, ScanSummary.ofScanned]
    rw [hlength, htotal fun r => r.specs.length, htotal FileReport.testCount,
      htotal FileReport.disabledCount]

lemma scanFiles_agrees (htext : env.files.Textual) (hstamped : env.files.Stamped)
    {files : List String} (hi : i.AllRows (env.Confirms files)) {result : ScanResult}
    (h : (scanFiles env hide files i).2 = .ok result) :
    result.Agrees (.ofScanned
      (files.filterMap fun path => (env.report? hide path).map fun report => { report })) := by
  rw [scanFiles] at h
  split at h
  · cases h
  · rename_i j scanned heq
    have hreports := reports_of_scanEach htext hstamped hi (fun p hp => hp) (congrArg Prod.snd heq)
    split at h
    · cases h
    · cases h
      apply ScanResult.agrees_ofScanned
      rw [hreports, List.map_filterMap]
      congr 1
      funext path
      cases env.report? hide path <;> rfl

end SpecAtlas
