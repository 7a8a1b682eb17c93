import SpecAtlas.Proofs.Report.Address
import SpecAtlas.Proofs.Report.Selection
import SpecAtlas.Proofs.Workspace.Transparency

/-! The views of a scan. The table lists all tests in the order of their addresses, and the summary
counts the same tests. -/

namespace SpecAtlas

open Address

namespace TestReport

mutual

theorem countP_flatten : (t : TestReport) → t.flatten.countP (!·.enabled) = t.disabledCount
  | ⟨_, _, enabled, _, _, children⟩ => by
    rw [flatten, disabledCount, List.countP_cons, countP_flattenAll children, Nat.add_comm]
    cases enabled <;> rfl

theorem countP_flattenAll :
    (ts : List TestReport) → (flattenAll ts).countP (!·.enabled) = disabledCountAll ts
  | [] => rfl
  | t :: ts => by
    rw [flattenAll, disabledCountAll, List.countP_append, countP_flatten t, countP_flattenAll ts]

end

end TestReport

lemma length_flatMap_eq_total {α β : Type} (f : α → List β) (items : List α) :
    (items.flatMap f).length = total (fun a => (f a).length) items := by
  induction items with
  | nil => rfl
  | cons a items ih => rw [List.flatMap_cons, List.length_append, total_cons, ih]

lemma countP_flatMap_eq_total {α β : Type} (p : β → Bool) (f : α → List β) (items : List α) :
    (items.flatMap f).countP p = total (fun a => (f a).countP p) items := by
  induction items with
  | nil => rfl
  | cons a items ih => rw [List.flatMap_cons, List.countP_append, total_cons, ih]

lemma TableRow.length_ofResult (r : ScanResult) :
    (ofResult r).length = total FileReport.testCount r.files := by
  simp only [ofResult, length_flatMap_eq_total, List.length_map, TestReport.length_flattenAll]
  rfl

lemma TableRow.countP_ofResult (r : ScanResult) :
    (ofResult r).countP (!·.enabled) = total FileReport.disabledCount r.files := by
  simp only [ofResult, countP_flatMap_eq_total, List.countP_map, Function.comp_def, ofTest,
    TestReport.countP_flattenAll]
  rfl

lemma total_filter {α : Type} {quantity : α → Nat} {p : α → Bool} {items : List α}
    (h : ∀ a ∈ items, p a = false → quantity a = 0) :
    total quantity (items.filter p) = total quantity items := by
  induction items with
  | nil => rfl
  | cons a items ih =>
    obtain ⟨ha, hitems⟩ := List.forall_mem_cons.mp h
    cases hp : p a with
    | false => rw [List.filter_cons_of_neg (by simp [hp]), ih hitems, total_cons, ha hp,
      Nat.zero_add]
    | true => rw [List.filter_cons_of_pos hp, total_cons, total_cons, ih hitems]

namespace ScanResult

variable {scanned : List Scanned}

lemma total_files_ofScanned {quantity : FileReport → Nat}
    (h : ∀ r : FileReport, r.specs = [] → quantity r = 0) :
    total quantity (ofScanned scanned).files = total (fun s => quantity s.report) scanned := by
  rw [ofScanned, total_filter, total_map]
  intro r _ hr
  exact h r (by simpa using hr)

/-- The summary has the numbers of specs and tests in the files of the result. -/
structure Counts (r : ScanResult) : Prop where
  specs : r.summary.specs = .ofNat (r.files.flatMap FileReport.specs).length
  tests : r.summary.tests = .ofNat (total FileReport.testCount r.files)
  disabled : r.summary.disabledTests = .ofNat (total FileReport.disabledCount r.files)

lemma counts_ofScanned (scanned : List Scanned) : (ofScanned scanned).Counts where
  specs := by
    rw [length_flatMap_eq_total, total_files_ofScanned fun r hr => by rw [hr]; rfl]
    rfl
  tests := by
    rw [total_files_ofScanned fun r hr => by rw [FileReport.testCount, hr]; rfl]
    rfl
  disabled := by
    rw [total_files_ofScanned fun r hr => by rw [FileReport.disabledCount, hr]; rfl]
    rfl

lemma cachedFiles_le_ofScanned (h : scanned.length < UInt64.size) :
    (ofScanned scanned).summary.cachedFiles ≤ (ofScanned scanned).summary.filesScanned := by
  have hcached : scanned.countP Scanned.cached ≤ scanned.length := List.countP_le_length
  rw [UInt64.le_iff_toNat_le]
  simp only [ofScanned, ScanSummary.ofScanned]
  rw [UInt64.toNat_ofNat_of_lt' h, UInt64.toNat_ofNat_of_lt' (Nat.lt_of_le_of_lt hcached h)]
  exact hcached

lemma length_files_le_ofScanned (h : scanned.length < UInt64.size) :
    (ofScanned scanned).files.length ≤ (ofScanned scanned).summary.filesScanned.toNat := by
  simp only [ofScanned, ScanSummary.ofScanned]
  rw [UInt64.toNat_ofNat_of_lt' h]
  calc ((scanned.map Scanned.report).filter (!·.specs.isEmpty)).length
      ≤ (scanned.map Scanned.report).length := List.length_filter_le _ _
    _ = scanned.length := List.length_map _

end ScanResult

lemma length_le_of_scanEach {env : Env} {hide : Hiding} {files : List String} {i j : Index}
    {scanned : List Scanned} (h : scanEach env hide files i = (j, .ok scanned)) :
    scanned.length ≤ files.length := by
  induction files generalizing i j scanned with
  | nil =>
    cases h
    exact Nat.le_refl 0
  | cons path rest ih =>
    rw [scanEach] at h
    split at h
    · cases h
    · rename_i found hfound
      split at h
      · cases h
      · rename_i more hmore
        cases h
        have hrest := ih hmore
        have hone : found.toList.length ≤ 1 := by cases found <;> simp
        rw [List.length_append, List.length_cons]
        omega

lemma exists_ofScanned_of_scanFiles {env : Env} {hide : Hiding} {files : List String} {i : Index}
    {result : ScanResult} (h : (scanFiles env hide files i).2 = .ok result) :
    ∃ scanned, scanned.length ≤ files.length ∧ result = .ofScanned scanned := by
  rw [scanFiles] at h
  split at h
  · cases h
  · rename_i scanned hscanned
    split at h
    · cases h
    · cases h
      exact ⟨scanned, length_le_of_scanEach hscanned, rfl⟩

namespace Workspace

variable {w : Workspace} {config : ScanConfig} {result : ScanResult}

lemma exists_ofScanned_of_scan (h : (w.scan config).2 = .ok result) :
    ∃ files scanned,
      sourceFiles w.files config.paths config.globs config.excludeGlobs = .ok files ∧
      scanned.length ≤ files.length ∧ result = .ofScanned scanned := by
  cases hindex : config.index with
  | none =>
    rw [Workspace.scan] at h
    rw [hindex] at h
    obtain ⟨files, hfiles, hresult⟩ := exists_ok_of_bind_eq_ok h
    cases hresult
    exact ⟨files, _, hfiles, List.length_filterMap_le _ _, rfl⟩
  | some index =>
    obtain ⟨files, o, hfiles, -, hscan⟩ := scan_eq_ok hindex h
    obtain ⟨scanned, hlength, rfl⟩ := exists_ofScanned_of_scanFiles hscan
    exact ⟨files, scanned, hfiles, hlength, rfl⟩

/-- The summary of a scan counts the specs and tests of its files, and the table has the tests of
the files, and only those, in the order of files, specs and trees, so that it has as many rows as
the summary says. Counters have 64 bits, which is enough for the files of any walk. -/
theorem scan_views_agree (h : (w.scan config).2 = .ok result) :
    result.Counts
    ∧ InOrder (fun way => (result.placed? way).map PlacedTest.row) (TableRow.ofResult result)
    ∧ result.summary.tests = .ofNat (TableRow.ofResult result).length
    ∧ result.summary.disabledTests = .ofNat ((TableRow.ofResult result).countP (!·.enabled))
    ∧ ∀ files, sourceFiles w.files config.paths config.globs config.excludeGlobs = .ok files →
        files.length < UInt64.size →
        result.summary.cachedFiles ≤ result.summary.filesScanned
        ∧ result.files.length ≤ result.summary.filesScanned.toNat := by
  obtain ⟨files, scanned, hfiles, hlength, rfl⟩ := exists_ofScanned_of_scan h
  have hcounts := ScanResult.counts_ofScanned scanned
  refine ⟨hcounts, TableRow.ofResult_inOrder _, ?_, ?_, fun files' hfiles' hsize => ?_⟩
  · rw [TableRow.length_ofResult, hcounts.tests]
  · rw [TableRow.countP_ofResult, hcounts.disabled]
  · cases hfiles.symm.trans hfiles'
    have hscanned := Nat.lt_of_le_of_lt hlength hsize
    exact ⟨ScanResult.cachedFiles_le_ofScanned hscanned,
      ScanResult.length_files_le_ofScanned hscanned⟩

def fourTests : Workspace :=
  { empty with frontend := fun _ => overlapping.root }.run
    [.write "A.kt" overlapping.text.toByteArray 1]

theorem scan_views_agree_fourTests :
    ∃ result, (fourTests.scan { paths := ["."] }).2 = .ok result ∧
      (TableRow.ofResult result).map TableRow.test = ["a b", "a b c", "a", "a b c"] ∧
      result.summary.tests = .ofNat (TableRow.ofResult result).length := by
  have hrows : (fourTests.scan { paths := ["."] }).2.toOption.map (fun result =>
      (TableRow.ofResult result).map TableRow.test)
        = some ["a b", "a b c", "a", "a b c"] := by decide +kernel
  cases hresult : (fourTests.scan { paths := ["."] }).2 with
  | error e =>
    rw [hresult] at hrows
    cases hrows
  | ok result =>
    rw [hresult] at hrows
    obtain ⟨-, -, htests, -⟩ := scan_views_agree hresult
    exact ⟨result, rfl, Option.some.inj hrows, htests⟩

end Workspace

end SpecAtlas
