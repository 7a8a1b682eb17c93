import SpecAtlas.Proofs.Files.Spelling
import SpecAtlas.Workspace

/-! Builds of an index. After a build the rows below its paths are those of the files that were met,
each with its present stamp, and all other rows are as they were. -/

namespace SpecAtlas

open Files

structure Files.Regular (fs : Files) : Prop where
  within : ∀ roots path, path ∈ fs.walk roots → Path.withinAny path roots = true
  stamp : ∀ p q s r, Path.same p q = true → fs.stamp p = .ok s → fs.stamp q = .ok r → s = r

lemma Files.FileTree.Sound.regular {t : FileTree} (h : t.Sound) (here : List String) :
    (t.files here).Regular where
  within _ _ hpath := withinAny_of_mem_walk h hpath
  stamp _ _ _ _ hsame hp hq := stamp_of_same h hsame hp hq

namespace Index

variable {env : Env} {before : List IndexRow} {i : Index} {path file : String} {stamp : Stamp}

def Has (i : Index) (path : String) (stamp : Stamp) : Prop :=
  ∃ row ∈ i.rows, Path.same row.path path = true ∧ row.stamp = stamp

lemma has_iff_holds : i.Has path stamp ↔ holds i.rows path stamp = true := by
  simp [Has, holds]

lemma has_store (i : Index) (path : String) (stamp : Stamp) (report : FileReport) :
    (i.store path stamp report).1.Has path stamp := by
  obtain ⟨id, hrow⟩ := exists_mem_rows_store i path stamp report
  exact ⟨_, hrow, BEq.rfl, rfl⟩

lemma Has.store (h : i.Has file stamp) {s : Stamp} {report : FileReport}
    (hstamp : Path.same path file = true → s = stamp) :
    (i.store path s report).1.Has file stamp := by
  obtain ⟨row, hrow, hsame, rfl⟩ := h
  by_cases hpath : row.path = path
  · -- the row is written over under the spelling that it was stored with
    subst hpath
    obtain ⟨id, hnew⟩ := exists_mem_rows_store i row.path s report
    exact ⟨_, hnew, hsame, hstamp hsame⟩
  · exact ⟨row, mem_rows_store_of_ne hrow hpath, hsame, rfl⟩

lemma Has.refreshEach (hfs : env.files.Regular) (hstamp : env.files.stamp file = .ok stamp)
    {files : List String} (t : BuildTotals) (h : i.Has file stamp) :
    (Index.refreshEach env before t files i).1.Has file stamp :=
  refreshEach_invariant (R := (Has · file stamp)) (fun _ _ _ _ _ hs _ h =>
    h.store fun hsame => hfs.stamp _ _ _ _ hsame hs hstamp) h

lemma has_refresh {report : FileReport} (hstamp : env.files.stamp file = .ok stamp)
    (hreport : env.report? {} file = some report) (hholds : holds before file stamp = false)
    {t u : BuildTotals} {j : Index} (h : refresh env before t file i = (j, .ok u)) :
    j.Has file stamp := by
  simp only [refresh, hstamp, hholds, hreport, Bool.false_eq_true, if_false] at h
  cases htext : env.files.isText file with
  | false =>
    rw [Env.store_of_not_isText htext] at h
    cases h
  | true =>
    rw [Env.store_of_isText htext] at h
    cases h
    exact has_store i file stamp report

lemma has_refreshEach_of_not_holds (hfs : env.files.Regular) {files : List String}
    (hfile : file ∈ files) (hstamp : env.files.stamp file = .ok stamp) {report : FileReport}
    (hreport : env.report? {} file = some report) (hholds : holds before file stamp = false)
    {t u : BuildTotals} (h : (refreshEach env before t files i).2 = .ok u) :
    (refreshEach env before t files i).1.Has file stamp := by
  induction files generalizing i t with
  | nil => cases hfile
  | cons path rest ih =>
    rw [refreshEach] at h ⊢
    split at h
    · cases h
    · rename_i hfirst
      rcases List.mem_cons.mp hfile with rfl | hrest
      · exact (has_refresh hstamp hreport hholds hfirst).refreshEach hfs hstamp _
      · exact ih hrest h

lemma has_refreshEach (hfs : env.files.Regular) {files : List String} (hfile : file ∈ files)
    (hstamp : env.files.stamp file = .ok stamp) {report : FileReport}
    (hreport : env.report? {} file = some report) {t u : BuildTotals}
    (h : (refreshEach env i.rows t files i).2 = .ok u) :
    (refreshEach env i.rows t files i).1.Has file stamp := by
  -- a file that was up to date is not stored again, but its row may be under another spelling
  cases hholds : holds i.rows file stamp with
  | true => exact (has_iff_holds.mpr hholds).refreshEach hfs hstamp t
  | false => exact has_refreshEach_of_not_holds hfs hfile hstamp hreport hholds h

lemma rows_dropStale (before : List IndexRow) (met roots : List String) (i : Index) :
    (dropStale before met roots i).rows = i.rows.filter fun row =>
      !(before.filter (isStale met roots)).any (·.path == row.path) := by
  rw [dropStale]
  generalize before.filter (isStale met roots) = stale
  induction stale generalizing i with
  | nil => simp
  | cons old stale ih =>
    rw [List.foldl_cons, ih, remove, List.filter_filter]
    refine List.filter_congr fun row _ => ?_
    rw [List.any_cons, Bool.not_or, Bool.and_comm]
    congr 1
    rw [Bool.beq_comm]
    rfl

lemma isStale_congr {met roots : List String} {r s : IndexRow} (h : r.path = s.path) :
    isStale met roots r = isStale met roots s := by
  rw [isStale, isStale, h]

lemma mem_rows_dropStale {met roots : List String} {row : IndexRow} :
    row ∈ (dropStale before met roots i).rows ↔
      row ∈ i.rows ∧ (row.path ∈ before.map (·.path) → isStale met roots row = false) := by
  rw [rows_dropStale, List.mem_filter]
  refine and_congr_right fun _ => ?_
  simp only [Bool.not_eq_true', List.any_eq_false, beq_iff_eq, List.mem_filter, List.mem_map]
  constructor
  · rintro h ⟨old, hold, hpath⟩
    by_contra hstale
    refine h old ⟨hold, ?_⟩ hpath
    rw [isStale_congr hpath]
    simpa using hstale
  · rintro h old ⟨hold, hstale⟩ hpath
    rw [isStale_congr hpath] at hstale
    simp [h ⟨old, hold, hpath⟩] at hstale

section Build

variable {files paths : List String}

lemma report?_of_read {text : String} (hsource : Path.isSource path = true)
    (h : env.files.read path = .ok text) : ∃ report, env.report? {} path = some report := by
  simp [Env.report?, h, Frontend.report, Frontend.parse, hsource, Except.map, Except.toOption]

lemma allRows_refreshEach (t : BuildTotals) :
    (refreshEach env i.rows t files i).1.AllRows fun row =>
      row.path ∈ i.rows.map (·.path) ∨
        row.path ∈ files ∧ ∃ stamp, env.files.stamp row.path = .ok stamp := by
  refine AllRows.refreshEach (fun row hrow => .inl (List.mem_map_of_mem hrow)) ?_
  intro path hpath stamp report hstamp _ _
  exact .inr ⟨hpath, stamp, hstamp⟩

lemma met_of_mem_rows_dropStale {t : BuildTotals} {row : IndexRow}
    (h : row ∈ (dropStale i.rows (files.filter fun p => (env.files.stamp p).toBool) paths
      (refreshEach env i.rows t files i).1).rows)
    (hwithin : Path.withinAny row.path paths = true) :
    ∃ file ∈ files, Path.same row.path file = true ∧ ∃ s, env.files.stamp file = .ok s := by
  obtain ⟨hrow, hkept⟩ := mem_rows_dropStale.mp h
  rcases allRows_refreshEach t row hrow with hold | ⟨hmem, s, hs⟩
  · have hmet := hkept hold
    rw [isStale, hwithin, Bool.and_true, Bool.not_eq_false', List.any_eq_true] at hmet
    obtain ⟨file, hfile, hsame⟩ := hmet
    obtain ⟨hmem, hstamp⟩ := List.mem_filter.mp hfile
    obtain ⟨s, hs⟩ := exists_ok_of_toBool hstamp
    exact ⟨file, hmem, hsame, s, hs⟩
  · exact ⟨row.path, hmem, BEq.rfl, s, hs⟩

lemma Has.dropStale {met : List String} (h : i.Has file stamp) (hmet : file ∈ met) :
    (Index.dropStale before met paths i).Has file stamp := by
  obtain ⟨row, hrow, hsame, hstamp⟩ := h
  refine ⟨row, mem_rows_dropStale.mpr ⟨hrow, fun _ => ?_⟩, hsame, hstamp⟩
  have hany : met.any (Path.same row.path) = true := List.any_eq_true.mpr ⟨file, hmet, hsame⟩
  rw [isStale, hany, Bool.not_true, Bool.false_and]

lemma has_of_mem_sourceFiles (hfs : env.files.Regular) {globs excludeGlobs : List String}
    (hfiles : sourceFiles env.files paths globs excludeGlobs = .ok files) (hfile : file ∈ files)
    (hstamp : env.files.stamp file = .ok stamp) {text : String}
    (hread : env.files.read file = .ok text) {t u : BuildTotals}
    (h : (refreshEach env i.rows t files i).2 = .ok u) :
    (Index.dropStale i.rows (files.filter fun p => (env.files.stamp p).toBool) paths
      (refreshEach env i.rows t files i).1).Has file stamp := by
  obtain ⟨report, hreport⟩ := report?_of_read (isSource_of_mem_sourceFiles hfiles hfile) hread
  refine (has_refreshEach hfs hfile hstamp hreport h).dropStale (List.mem_filter.mpr ⟨hfile, ?_⟩)
  rw [hstamp]
  rfl

lemma filter_rows_refreshEach (h : ∀ p ∈ files, Path.withinAny p paths = true) (t : BuildTotals) :
    (refreshEach env before t files i).1.rows.filter (fun r => !Path.withinAny r.path paths) =
      i.rows.filter fun r => !Path.withinAny r.path paths := by
  refine refreshEach_invariant
    (R := fun j => j.rows.filter (fun r => !Path.withinAny r.path paths) =
      i.rows.filter fun r => !Path.withinAny r.path paths) ?_ rfl
  intro j path stamp report hpath _ _ hj
  rw [filter_rows_store (fun p => !Path.withinAny p paths) (by simp [h path hpath]), hj]

lemma filter_rows_dropStale (met : List String) :
    (dropStale before met paths i).rows.filter (fun r => !Path.withinAny r.path paths) =
      i.rows.filter fun r => !Path.withinAny r.path paths := by
  rw [rows_dropStale, List.filter_filter]
  refine List.filter_congr fun row _ => ?_
  cases hwithin : Path.withinAny row.path paths with
  | true => rfl
  | false =>
    have hkept : (before.filter (isStale met paths)).any (·.path == row.path) = false := by
      refine List.any_eq_false.mpr fun old hold hpath => ?_
      have hstale := (List.mem_filter.mp hold).2
      rw [isStale, beq_iff_eq.mp hpath, hwithin, Bool.and_false] at hstale
      cases hstale
    rw [hkept]
    rfl

end Build

lemma withinAny_of_mem_sourceFiles (hfs : env.files.Regular)
    {paths globs excludeGlobs files : List String}
    (hfiles : sourceFiles env.files paths globs excludeGlobs = .ok files) (hfile : file ∈ files) :
    Path.withinAny file paths = true := by
  obtain ⟨filter, -, rfl⟩ := sourceFiles_eq_ok hfiles
  exact hfs.within paths file (List.mem_of_mem_filter hfile)

end Index

namespace Workspace

/-- A build leaves below its paths the rows of the files that were met, each of which that can be
read has a row with its present stamp, and does not touch the other rows; a build that fails does
not touch the index at all. -/
theorem build_accounts_for_files (w : Workspace) (hsound : w.tree.Sound) (path : String)
    (config : IndexConfig) (i : Index) :
    (∀ j summary, Index.attempt w.env path config i = (j, .ok summary) →
      ∃ files, sourceFiles w.files config.paths config.globs config.excludeGlobs = .ok files ∧
        (∀ row ∈ j.rows, Path.withinAny row.path config.paths = true →
          ∃ file ∈ files, Path.same row.path file = true ∧ ∃ s, w.files.stamp file = .ok s) ∧
        (∀ file ∈ files, ∀ s text, w.files.stamp file = .ok s → w.files.read file = .ok text →
          ∃ row ∈ j.rows, Path.same row.path file = true ∧ row.stamp = s) ∧
        j.rows.filter (fun row => !Path.withinAny row.path config.paths) =
          i.rows.filter fun row => !Path.withinAny row.path config.paths) ∧
      ∀ j e, Index.attempt w.env path config i = (j, .error e) → j = i := by
  have hregular : w.env.files.Regular := hsound.regular w.here
  constructor
  · intro j summary h
    obtain ⟨files, old, m, hfiles, -, -, ⟨totals, htotals⟩, rfl⟩ := Index.attempt_eq_ok h
    refine ⟨files, hfiles, ?_, ?_, ?_⟩
    · intro row hrow hwithin
      exact Index.met_of_mem_rows_dropStale hrow hwithin
    · intro file hfile s text hstamp hread
      exact Index.has_of_mem_sourceFiles hregular hfiles hfile hstamp hread htotals
    · have hwithin (p : String) (hp : p ∈ files) : Path.withinAny p config.paths = true :=
        Index.withinAny_of_mem_sourceFiles hregular hfiles hp
      rw [Index.rows_saveMeta, Index.filter_rows_dropStale, Index.filter_rows_refreshEach hwithin]
  · intro j e h
    have hsame := Index.fst_attempt_of_error w.textual (congrArg Prod.snd h)
    rwa [h] at hsame

def oneFile : Workspace where
  tree :=
    { mount := "/work"
      root := .directory [("A.kt", .file (.bytes "class A".toByteArray none) 1)] }
  frontend := fun text => .mk { kind := "source_file", start := 0, stop := text.utf8ByteSize } []
  now := 5

lemma oneFile_sound : oneFile.tree.Sound := ⟨by decide, by decide, trivial, trivial⟩

def outdated : Index where
  rows := [Index.rowOf 1 "./Gone.kt" ⟨1, 2⟩ { path := "./Gone.kt" },
    Index.rowOf 2 "other/B.kt" ⟨1, 2⟩ { path := "other/B.kt" }]

def buildHere : IndexConfig := { paths := ["."], indexPath := "specs.db" }

theorem build_accounts_for_files_outdated :
    ∃ j summary, Index.attempt oneFile.env "specs.db" buildHere outdated = (j, .ok summary) ∧
      (∃ row ∈ j.rows, Path.same row.path "./A.kt" = true ∧ row.stamp = ⟨1, 7⟩) ∧
      (∀ row ∈ j.rows, Path.withinAny row.path ["."] = true →
        Path.same row.path "./A.kt" = true) ∧
      j.rows.filter (fun row => !Path.withinAny row.path ["."]) =
        [Index.rowOf 2 "other/B.kt" ⟨1, 2⟩ { path := "other/B.kt" }] := by
  have hok : (Index.attempt oneFile.env "specs.db" buildHere outdated).2.toBool = true := by
    decide +kernel
  rcases hattempt : Index.attempt oneFile.env "specs.db" buildHere outdated with ⟨j, e | summary⟩
  · rw [hattempt] at hok
    cases hok
  obtain ⟨hbuilt, -⟩ :=
    build_accounts_for_files oneFile oneFile_sound "specs.db" buildHere outdated
  obtain ⟨files, hfiles, hmet, hhas, hrest⟩ := hbuilt j summary hattempt
  have hlist : (sourceFiles oneFile.files ["."] [] []).toOption = some ["./A.kt"] := by
    decide +kernel
  obtain rfl : files = ["./A.kt"] := by
    rw [show sourceFiles oneFile.files ["."] [] [] = .ok files from hfiles] at hlist
    exact Option.some.inj hlist
  refine ⟨j, summary, rfl, ?_, ?_, ?_⟩
  · exact hhas "./A.kt" (List.mem_singleton_self _) ⟨1, 7⟩ "class A" (by rfl) (by rfl)
  · intro row hrow hwithin
    obtain ⟨file, hfile, hsame, -⟩ := hmet row hrow hwithin
    rw [List.mem_singleton.mp hfile] at hsame
    exact hsame
  · rw [show j.rows.filter (fun row => !Path.withinAny row.path ["."]) = _ from hrest]
    decide +kernel

end Workspace

end SpecAtlas
