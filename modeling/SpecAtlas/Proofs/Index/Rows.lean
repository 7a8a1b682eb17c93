import Mathlib.Data.List.Basic
import SpecAtlas.Index.Build

/-! What the rows of an index say. Scans and builds only add rows for files that have a report, so a
property that these rows have stays true of all rows. -/

namespace SpecAtlas

variable {P : IndexRow → Prop} {env : Env} {hide : Hiding} {i : Index}

lemma exists_ok_of_bind_eq_ok {ε α β : Type} {x : Except ε α} {next : α → Except ε β} {b : β}
    (h : (x >>= next) = .ok b) : ∃ a, x = .ok a ∧ next a = .ok b := by
  cases x with
  | error e => cases h
  | ok a => exact ⟨a, rfl, h⟩

lemma exists_ok_of_toBool {ε α : Type} {x : Except ε α} (h : x.toBool = true) :
    ∃ a, x = .ok a := by
  cases x with
  | error e => cases h
  | ok a => exact ⟨a, rfl⟩

lemma sourceFiles_eq_ok {fs : Files} {paths globs excludeGlobs files : List String}
    (h : sourceFiles fs paths globs excludeGlobs = .ok files) :
    ∃ filter, FileFilter.ofGlobs globs excludeGlobs = .ok filter ∧
      files = (fs.walk paths).filter filter.accepts := by
  rw [sourceFiles] at h
  cases hempty : paths.isEmpty with
  | true =>
    rw [hempty] at h
    cases h
  | false =>
    cases hmissing : paths.find? (!fs.has ·) with
    | some path =>
      rw [hempty, hmissing] at h
      cases h
    | none =>
      rw [hempty, hmissing] at h
      obtain ⟨filter, hfilter, h⟩ := exists_ok_of_bind_eq_ok h
      cases h
      exact ⟨filter, hfilter, rfl⟩

lemma isSource_of_mem_sourceFiles {fs : Files} {paths globs excludeGlobs files : List String}
    (h : sourceFiles fs paths globs excludeGlobs = .ok files) {path : String} (hp : path ∈ files) :
    Path.isSource path = true := by
  obtain ⟨filter, -, rfl⟩ := sourceFiles_eq_ok h
  have haccepts := (List.mem_filter.mp hp).2
  simp only [FileFilter.accepts, Bool.and_eq_true] at haccepts
  exact haccepts.2

def Env.Grants (env : Env) (P : IndexRow → Prop) (files : List String) : Prop :=
  ∀ path ∈ files, ∀ stamp report, env.files.stamp path = .ok stamp →
    env.report? {} path = some report → ∀ id, P (Index.rowOf id path stamp report)

lemma Env.store_of_isText {path : String} (h : env.files.isText path = true) (stamp : Stamp)
    (report : FileReport) (i : Index) :
    env.store path stamp report i
      = ((i.store path stamp report).1, .ok (i.store path stamp report).2) := by
  rw [store, if_pos h]

lemma Env.store_of_not_isText {path : String} (h : env.files.isText path = false) (stamp : Stamp)
    (report : FileReport) (i : Index) :
    env.store path stamp report i = (i, .error .pathNotText) := by
  rw [store, h]
  rfl

lemma fst_scanFile_cases (env : Env) (hide : Hiding) (path : String) (i : Index) :
    (scanFile env hide path i).1 = i ∨
      ∃ stamp report, env.files.stamp path = .ok stamp ∧ env.report? {} path = some report ∧
        (scanFile env hide path i).1 = (i.store path stamp report).1 := by
  rw [scanFile]
  split
  · exact .inl rfl
  rename_i stamp hstamp
  split
  · exact .inl rfl
  · exact .inl rfl
  split
  · exact .inl rfl
  rename_i report hreport
  cases htext : env.files.isText path with
  | false =>
    rw [Env.store_of_not_isText htext]
    exact .inl rfl
  | true =>
    rw [Env.store_of_isText htext]
    exact .inr ⟨stamp, report, hstamp, hreport, rfl⟩

lemma scanEach_invariant {R : Index → Prop} {files : List String}
    (hfile : ∀ i path, path ∈ files → R i → R (scanFile env hide path i).1) (h : R i) :
    R (scanEach env hide files i).1 := by
  induction files generalizing i with
  | nil => exact h
  | cons path rest ih =>
    have hone := hfile i path List.mem_cons_self h
    rw [scanEach]
    split
    · rename_i heq
      rwa [heq] at hone
    · rename_i j found heq
      rw [heq] at hone
      have hmore := ih (fun i p hp => hfile i p (List.mem_cons_of_mem _ hp)) hone
      split
      · rename_i hrest
        rwa [hrest] at hmore
      · rename_i hrest
        rwa [hrest] at hmore

namespace Index

lemma current?_eq_some {path : String} {stamp : Stamp} {row : IndexRow}
    (h : i.current? path stamp = some row) :
    row ∈ i.rows ∧ row.path = path ∧ row.stamp = stamp := by
  have hmatch := List.find?_some h
  simp only [Bool.and_eq_true, beq_iff_eq] at hmatch
  exact ⟨List.mem_of_find?_eq_some h, hmatch⟩

lemma current?_eq_none_iff {path : String} {stamp : Stamp} :
    i.current? path stamp = none ↔ ∀ row ∈ i.rows, row.path = path → row.stamp ≠ stamp := by
  simp [current?, List.find?_eq_none]

section Store

variable {path : String} {stamp : Stamp} {report : FileReport} {row : IndexRow}

lemma row?_eq_none_iff : i.row? path = none ↔ path ∉ i.rows.map (·.path) := by
  simp [row?, List.find?_eq_none]

lemma mem_rows_store (h : row ∈ (i.store path stamp report).1.rows) :
    row = rowOf row.id path stamp report ∨ row ∈ i.rows ∧ row.path ≠ path := by
  rw [store] at h
  split at h
  · obtain ⟨old, hold, rfl⟩ := List.mem_map.mp h
    split_ifs with hpath
    · exact .inl rfl
    · exact .inr ⟨hold, by simpa using hpath⟩
  · rename_i hnone
    rcases List.mem_append.mp h with hold | hnew
    · refine .inr ⟨hold, fun hpath => row?_eq_none_iff.mp hnone ?_⟩
      exact hpath ▸ List.mem_map_of_mem hold
    · rw [List.mem_singleton.mp hnew]
      exact .inl rfl

lemma exists_mem_rows_store (i : Index) (path : String) (stamp : Stamp) (report : FileReport) :
    ∃ id, rowOf id path stamp report ∈ (i.store path stamp report).1.rows := by
  rw [store]
  split
  · rename_i old hold
    refine ⟨old.id, List.mem_map.mpr ⟨old, List.mem_of_find?_eq_some hold, ?_⟩⟩
    rw [if_pos (List.find?_some hold)]
  · exact ⟨i.nextId, List.mem_append_right _ (List.mem_singleton_self _)⟩

lemma filter_rows_store (keep : String → Bool) (h : keep path = false) :
    (i.store path stamp report).1.rows.filter (fun r => keep r.path) =
      i.rows.filter fun r => keep r.path := by
  have hnew (id : Nat) : keep (rowOf id path stamp report).path = false := h
  rw [store]
  split
  · rename_i old hold
    dsimp only
    induction i.rows with
    | nil => rfl
    | cons r rows ih =>
      rw [List.map_cons, List.filter_cons, List.filter_cons, ih]
      by_cases hpath : (r.path == path) = true
      · rw [if_pos hpath, hnew, beq_iff_eq.mp hpath, h]
        rfl
      · rw [if_neg hpath]
  · dsimp only
    rw [List.filter_append, List.filter_cons_of_neg (by simp [hnew]), List.filter_nil,
      List.append_nil]

lemma mem_rows_store_of_ne (h : row ∈ i.rows) (hne : row.path ≠ path) :
    row ∈ (i.store path stamp report).1.rows := by
  have hkept : row ∈ i.rows.filter fun r => r.path != path :=
    List.mem_filter.mpr ⟨h, by simpa using hne⟩
  have hfilter : (i.store path stamp report).1.rows.filter (fun r => r.path != path) =
      i.rows.filter fun r => r.path != path := filter_rows_store (· != path) (by simp)
  exact List.mem_of_mem_filter (hfilter ▸ hkept)

end Store

section Refresh

variable {before : List IndexRow} {t : BuildTotals} {files : List String}

lemma fst_refresh_cases (env : Env) (before : List IndexRow) (t : BuildTotals) (path : String)
    (i : Index) :
    (refresh env before t path i).1 = i ∨
      ∃ stamp report, env.files.stamp path = .ok stamp ∧ holds before path stamp = false ∧
        env.report? {} path = some report ∧
        (refresh env before t path i).1 = (i.store path stamp report).1 := by
  rw [refresh]
  split
  · exact .inl rfl
  rename_i stamp hstamp
  split_ifs with hholds
  · exact .inl rfl
  split
  · exact .inl rfl
  rename_i report hreport
  cases htext : env.files.isText path with
  | false =>
    rw [Env.store_of_not_isText htext]
    exact .inl rfl
  | true =>
    rw [Env.store_of_isText htext]
    exact .inr ⟨stamp, report, hstamp, by simpa using hholds, hreport, rfl⟩

lemma refreshEach_invariant {R : Index → Prop}
    (hstore : ∀ i path stamp report, path ∈ files → env.files.stamp path = .ok stamp →
      env.report? {} path = some report → R i → R (i.store path stamp report).1) (h : R i) :
    R (refreshEach env before t files i).1 := by
  induction files generalizing i t with
  | nil => exact h
  | cons path rest ih =>
    have hone : R (refresh env before t path i).1 := by
      rcases fst_refresh_cases env before t path i with he | ⟨stamp, report, hstamp, -, hreport, he⟩
      · rwa [he]
      · rw [he]
        exact hstore i path stamp report List.mem_cons_self hstamp hreport h
    rw [refreshEach]
    split
    · rename_i heq
      rwa [heq] at hone
    · rename_i heq
      rw [heq] at hone
      exact ih (fun i p stamp report hp => hstore i p stamp report (List.mem_cons_of_mem _ hp)) hone

lemma exists_refresh_of_textual (htext : env.files.Textual) (before : List IndexRow)
    (t : BuildTotals) (path : String) (i : Index) :
    ∃ totals, (refresh env before t path i).2 = .ok totals := by
  rw [refresh]
  split
  · exact ⟨t, rfl⟩
  split_ifs
  · exact ⟨t, rfl⟩
  split
  · exact ⟨t, rfl⟩
  rw [Env.store_of_isText (htext.isText path)]
  exact ⟨_, rfl⟩

lemma exists_refreshEach_of_textual (htext : env.files.Textual) (before : List IndexRow)
    (t : BuildTotals) (files : List String) (i : Index) :
    ∃ totals, (refreshEach env before t files i).2 = .ok totals := by
  induction files generalizing i t with
  | nil => exact ⟨t, rfl⟩
  | cons path rest ih =>
    obtain ⟨totals, hone⟩ := exists_refresh_of_textual htext before t path i
    rw [refreshEach]
    split
    · rename_i heq
      cases (congrArg Prod.snd heq).symm.trans hone
    · exact ih _ _

end Refresh

def AllRows (P : IndexRow → Prop) (i : Index) : Prop := ∀ r ∈ i.rows, P r

namespace AllRows

lemma empty : AllRows P {} := by
  intro r hr
  cases hr

lemma opened (h : i.AllRows P) : i.opened.AllRows P := by
  rw [Index.opened]
  split_ifs
  · intro r hr
    cases hr
  · exact h

lemma saveMeta (h : i.AllRows P) (m : IndexMeta) : (i.saveMeta m).AllRows P := h

lemma remove (h : i.AllRows P) (path : String) : (i.remove path).AllRows P := by
  intro r hr
  exact h r (List.mem_of_mem_filter hr)

lemma store (h : i.AllRows P) {path : String} {stamp : Stamp} {report : FileReport}
    (hrow : ∀ id, P (rowOf id path stamp report)) : (i.store path stamp report).1.AllRows P := by
  rw [Index.store]
  split
  · intro r hr
    obtain ⟨s, hs, rfl⟩ := List.mem_map.mp hr
    split_ifs
    · exact hrow _
    · exact h s hs
  · intro r hr
    rcases List.mem_append.mp hr with hold | hnew
    · exact h r hold
    · rw [List.mem_singleton.mp hnew]
      exact hrow _

lemma scanFile {path : String} (h : i.AllRows P) (hgrant : env.Grants P [path]) :
    (SpecAtlas.scanFile env hide path i).1.AllRows P := by
  rcases fst_scanFile_cases env hide path i with he | ⟨stamp, report, hstamp, hreport, he⟩
  · rwa [he]
  · rw [he]
    exact h.store (hgrant path List.mem_cons_self stamp report hstamp hreport)

lemma scanEach {files : List String} (h : i.AllRows P) (hgrant : env.Grants P files) :
    (SpecAtlas.scanEach env hide files i).1.AllRows P := by
  refine scanEach_invariant (fun i path hpath hi => hi.scanFile fun p hp => ?_) h
  exact hgrant p (List.mem_singleton.mp hp ▸ hpath)

lemma scanFiles {files : List String} (h : i.AllRows P) (hgrant : env.Grants P files) :
    (SpecAtlas.scanFiles env hide files i).1.AllRows P := by
  have heach : (SpecAtlas.scanEach env hide files i).1.AllRows P := h.scanEach hgrant
  rw [SpecAtlas.scanFiles]
  split
  · rename_i heq
    rw [heq] at heach
    exact heach
  · rename_i j scanned heq
    rw [heq] at heach
    split
    · exact heach
    · exact heach.saveMeta _

lemma refreshEach {before : List IndexRow} {t : BuildTotals} {files : List String}
    (h : i.AllRows P) (hgrant : env.Grants P files) :
    (Index.refreshEach env before t files i).1.AllRows P := by
  refine refreshEach_invariant (fun i path stamp report hpath hstamp hreport hi => ?_) h
  exact hi.store (hgrant path hpath stamp report hstamp hreport)

lemma dropStale {before : List IndexRow} {met roots : List String} (h : i.AllRows P) :
    (Index.dropStale before met roots i).AllRows P := by
  rw [Index.dropStale]
  generalize before.filter (isStale met roots) = stale
  induction stale generalizing i with
  | nil => exact h
  | cons r rest ih => exact ih (h.remove r.path)

end AllRows

/-- What comes before the first change of an index is done without one, and a build that gets as far
as the end has gone through all of its files. -/
lemma attempt_cases (env : Env) (path : String) (config : IndexConfig) (i : Index) :
    (∃ e, plan env config i = .error e ∧ attempt env path config i = (i, .error e)) ∨
      ∃ files m, plan env config i = .ok (files, m) ∧
        ((∃ j e, refreshEach env i.rows {} files i = (j, .error e) ∧
            attempt env path config i = (j, .error e)) ∨
          ∃ j totals, refreshEach env i.rows {} files i = (j, .ok totals) ∧
            attempt env path config i
              = ((dropStale i.rows (files.filter fun path => (env.files.stamp path).toBool)
                  config.paths j).saveMeta { m with updatedAt := env.now },
                .ok (.of path { m with updatedAt := env.now } totals))) := by
  rw [attempt]
  cases hplan : plan env config i with
  | error e => exact .inl ⟨e, rfl, rfl⟩
  | ok planned =>
    obtain ⟨files, m⟩ := planned
    refine .inr ⟨files, m, rfl, ?_⟩
    dsimp only
    rcases hrefresh : refreshEach env i.rows {} files i with ⟨j, e | totals⟩
    · exact .inl ⟨j, e, rfl, rfl⟩
    · exact .inr ⟨j, totals, rfl, rfl⟩

lemma plan_eq_ok {config : IndexConfig} {files : List String} {m : IndexMeta}
    (h : plan env config i = .ok (files, m)) :
    sourceFiles env.files config.paths config.globs config.excludeGlobs = .ok files ∧
      ∃ old, i.loadMeta env.now = .ok old ∧ bind env.files (config.paths.headD "") old = .ok m := by
  obtain ⟨found, hfiles, h⟩ := exists_ok_of_bind_eq_ok h
  obtain ⟨old, hold, h⟩ := exists_ok_of_bind_eq_ok h
  obtain ⟨bound, hm, h⟩ := exists_ok_of_bind_eq_ok h
  cases h
  exact ⟨hfiles, old, hold, hm⟩

lemma attempt_eq_ok {path : String} {config : IndexConfig} {j : Index} {summary : IndexSummary}
    (h : attempt env path config i = (j, .ok summary)) :
    ∃ (files : List String) (old m : IndexMeta),
      sourceFiles env.files config.paths config.globs config.excludeGlobs = .ok files ∧
      i.loadMeta env.now = .ok old ∧ bind env.files (config.paths.headD "") old = .ok m ∧
      (∃ totals, (refreshEach env i.rows {} files i).2 = .ok totals) ∧
      j = (dropStale i.rows (files.filter fun path => (env.files.stamp path).toBool) config.paths
        (refreshEach env i.rows {} files i).1).saveMeta { m with updatedAt := env.now } := by
  rcases attempt_cases env path config i with
    ⟨e, -, he⟩ | ⟨files, m, hplan, ⟨k, e, -, he⟩ | ⟨k, totals, hrefresh, he⟩⟩
  · cases he.symm.trans h
  · cases he.symm.trans h
  · obtain ⟨hfiles, old, hold, hm⟩ := plan_eq_ok hplan
    cases he.symm.trans h
    exact ⟨files, old, m, hfiles, hold, hm, ⟨totals, by rw [hrefresh]⟩, by rw [hrefresh]⟩

lemma AllRows.attempt {path : String} {config : IndexConfig} (h : i.AllRows P)
    (hgrant : ∀ files, sourceFiles env.files config.paths config.globs config.excludeGlobs
      = .ok files → env.Grants P files) :
    (Index.attempt env path config i).1.AllRows P := by
  rcases attempt_cases env path config i with
    ⟨e, -, he⟩ | ⟨files, m, hplan, hrest⟩
  · exact he ▸ h
  have hrefreshed : (Index.refreshEach env i.rows {} files i).1.AllRows P :=
    h.refreshEach (hgrant files (plan_eq_ok hplan).1)
  rcases hrest with ⟨j, e, hrefresh, he⟩ | ⟨j, totals, hrefresh, he⟩
  · rw [hrefresh] at hrefreshed
    exact he ▸ hrefreshed
  · rw [hrefresh] at hrefreshed
    exact he ▸ hrefreshed.dropStale.saveMeta _

lemma fst_attempt_of_error (htext : env.files.Textual) {path : String} {config : IndexConfig}
    {e : Failure} (h : (attempt env path config i).2 = .error e) :
    (attempt env path config i).1 = i := by
  rcases attempt_cases env path config i with
    ⟨e, -, he⟩ | ⟨files, m, -, ⟨j, e, hrefresh, -⟩ | ⟨j, totals, -, he⟩⟩
  · rw [he]
  · obtain ⟨totals, htotals⟩ := exists_refreshEach_of_textual htext i.rows {} files i
    cases (congrArg Prod.snd hrefresh).symm.trans htotals
  · rw [he] at h
    cases h

end Index

end SpecAtlas
