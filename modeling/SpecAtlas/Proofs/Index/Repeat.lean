import Mathlib.Data.List.ReduceOption
import SpecAtlas.Proofs.Index.Binding
import SpecAtlas.Proofs.Index.Build
import SpecAtlas.Proofs.Scan.Cached

/-! Scans and builds that are repeated. A scan leaves an index that knows all reports of its files,
and a build leaves one that has nothing to bring up to date and nothing to drop, so doing the same
again changes no row. -/

namespace SpecAtlas

variable {env env' : Env} {hide : Hiding} {path other : String} {files : List String}
  {i j k : Index}

structure Env.Shares (path : String) (env env' : Env) : Prop where
  stamp : env'.files.stamp path = env.files.stamp path
  report? : env'.report? {} path = env.report? {} path

namespace Index

def known (i : Index) (env : Env) (path : String) : Except Failure (Option FileReport) :=
  match env.files.stamp path with
  | .error _ => .ok none
  | .ok stamp => i.cached path stamp

def Settled (i : Index) (env : Env) (path : String) : Prop :=
  ∀ stamp, env.files.stamp path = .ok stamp → i.cached path stamp = .ok none →
    env.report? {} path = none

lemma Settled.congr (h : i.Settled env path) (hj : j.known env path = i.known env path) :
    j.Settled env path := by
  intro stamp hstamp hnone
  rw [known, known, hstamp] at hj
  exact h stamp hstamp (hj.symm.trans hnone)

lemma known_of_shares (h : env.Shares path env') : i.known env' path = i.known env path := by
  rw [known, known, h.stamp]

lemma Settled.of_shares (hi : i.Settled env path) (h : env.Shares path env') :
    i.Settled env' path := by
  intro stamp hstamp hnone
  rw [h.report?]
  exact hi stamp (h.stamp ▸ hstamp) hnone

lemma scanFile_cases (htext : env.files.Textual) (hide : Hiding) (path : String) (i : Index) :
    i.Settled env path ∨ ∃ stamp report, env.files.stamp path = .ok stamp ∧
      i.cached path stamp = .ok none ∧ env.report? {} path = some report ∧
      scanFile env hide path i
        = ((i.store path stamp report).1, .ok (some { report := report.hide hide })) := by
  by_cases hsettled : i.Settled env path
  · exact .inl hsettled
  · rw [Settled] at hsettled
    push Not at hsettled
    obtain ⟨stamp, hstamp, hnone, hsome⟩ := hsettled
    obtain ⟨report, hreport⟩ := Option.ne_none_iff_exists'.mp hsome
    refine .inr ⟨stamp, report, hstamp, hnone, hreport, ?_⟩
    simp [scanFile, htext path, hstamp, hnone, hreport, Env.store_of_isText (htext.isText path)]

def recalled (hide : Hiding) (report : FileReport) : Scanned :=
  { report := report.hide hide, cached := true }

lemma scanFile_of_settled (htext : env.files.Textual) (h : i.Settled env path) :
    scanFile env hide path i = (i, (i.known env path).map (Option.map (recalled hide))) := by
  rw [scanFile, known, htext path]
  cases hstamp : env.files.stamp path with
  | error e => rfl
  | ok stamp =>
    cases hcached : i.cached path stamp with
    | error e => simp [hcached, Except.map]
    | ok found =>
      cases found with
      | none => simp [hcached, h stamp hstamp hcached, Except.map]
      | some report => simp [hcached, Except.map, recalled]

lemma known_scanFile (htext : env.files.Textual) (h : i.Settled env path) :
    (scanFile env hide other i).1.known env path = i.known env path := by
  rcases scanFile_cases htext hide other i with hother | ⟨stamp, report, hstamp, hnone, hreport, he⟩
  · rw [scanFile_of_settled htext hother]
  · have hne : other ≠ path := by
      rintro rfl
      cases (h stamp hstamp hnone).symm.trans hreport
    rw [he, known, known]
    split
    · rfl
    · exact cached_store_of_ne hne _ stamp report

lemma known_scanEach (htext : env.files.Textual) (h : i.Settled env path) :
    (scanEach env hide files i).1.known env path = i.known env path :=
  scanEach_invariant (R := fun j => j.known env path = i.known env path)
    (fun _ _ _ hj => (known_scanFile htext (h.congr hj)).trans hj) rfl

lemma settled_scanFile (htext : env.files.Textual) {found : Option Scanned}
    (h : scanFile env hide path i = (j, .ok found)) :
    j.Settled env path ∧ ∀ report, j.known env path = .ok report →
      found.map Scanned.report = report.map (·.hide hide) := by
  rcases scanFile_cases htext hide path i with hsettled | ⟨stamp, report, hstamp, -, -, he⟩
  · rw [scanFile_of_settled htext hsettled] at h
    obtain ⟨rfl, hfound⟩ := Prod.mk.inj h
    refine ⟨hsettled, fun report hreport => ?_⟩
    rw [hreport] at hfound
    cases hfound
    cases report <;> rfl
  · rw [he] at h
    cases h
    have hcached := i.cached_store_self path stamp report
    refine ⟨fun s hs hnone => ?_, fun again hagain => ?_⟩
    · cases hstamp.symm.trans hs
      rw [hcached] at hnone
      split_ifs at hnone
      cases hnone
    · rw [known, hstamp] at hagain
      dsimp only at hagain
      rw [hcached] at hagain
      split_ifs at hagain
      cases hagain
      rfl

lemma settled_scanEach (htext : env.files.Textual) {scanned : List Scanned}
    (h : scanEach env hide files i = (j, .ok scanned)) :
    (∀ path ∈ files, j.Settled env path) ∧ ∀ reports, files.mapM (j.known env) = .ok reports →
      scanned.map Scanned.report = reports.reduceOption.map (·.hide hide) := by
  induction files generalizing i scanned with
  | nil =>
    cases h
    refine ⟨List.forall_mem_nil _, fun reports hreports => ?_⟩
    cases hreports
    rfl
  | cons path rest ih =>
    rw [scanEach] at h
    split at h
    · cases h
    · rename_i first found hfirst
      split at h
      · cases h
      · rename_i more hmore
        cases h
        obtain ⟨hsettled, hfound⟩ := settled_scanFile htext hfirst
        obtain ⟨hrest, hreports⟩ := ih hmore
        have hkept : (scanEach env hide rest first).1.known env path = first.known env path :=
          known_scanEach htext hsettled
        rw [hmore] at hkept
        refine ⟨List.forall_mem_cons.mpr ⟨hsettled.congr hkept, hrest⟩, fun reports hall => ?_⟩
        rw [List.mapM_cons] at hall
        obtain ⟨report, hreport, hall⟩ := exists_ok_of_bind_eq_ok hall
        obtain ⟨others, hothers, hall⟩ := exists_ok_of_bind_eq_ok hall
        cases hall
        have hhead := hfound report (hkept.symm.trans hreport)
        rw [List.map_append, hreports others hothers]
        cases report <;> cases found <;> simp_all

lemma scanEach_of_settled (htext : env.files.Textual) (h : ∀ path ∈ files, i.Settled env path) :
    scanEach env hide files i
      = (i, (files.mapM (i.known env)).map fun reports =>
          reports.reduceOption.map (recalled hide)) := by
  induction files with
  | nil => rfl
  | cons path rest ih =>
    obtain ⟨hpath, hrest⟩ := List.forall_mem_cons.mp h
    rw [scanEach, scanFile_of_settled htext hpath, List.mapM_cons]
    cases hknown : i.known env path with
    | error e => rfl
    | ok report =>
      simp only [Except.map]
      rw [ih hrest]
      cases hothers : rest.mapM (i.known env) with
      | error e => rfl
      | ok others => cases report <;> rfl

lemma mapM_known_of_shares (h : ∀ path ∈ files, env.Shares path env') :
    files.mapM (i.known env') = files.mapM (i.known env) := by
  induction files with
  | nil => rfl
  | cons path rest ih =>
    obtain ⟨hpath, hrest⟩ := List.forall_mem_cons.mp h
    rw [List.mapM_cons, List.mapM_cons, known_of_shares hpath, ih hrest]

lemma settled_scanFiles (htext : env.files.Textual) {result : ScanResult}
    (h : scanFiles env hide files i = (j, .ok result)) :
    (∀ path ∈ files, j.Settled env path) ∧ ∃ scanned, result = .ofScanned scanned ∧
      ∀ reports, files.mapM (j.known env) = .ok reports →
        scanned.map Scanned.report = reports.reduceOption.map (·.hide hide) := by
  rw [scanFiles] at h
  split at h
  · cases h
  rename_i first scanned hscanned
  split at h
  · cases h
  cases h
  -- what the index says about itself is saved last, and does not touch the rows
  exact settled_scanEach htext hscanned |>.imp id fun hreports => ⟨scanned, rfl, hreports⟩

lemma scanFiles_of_settled (htext : env.files.Textual) (h : ∀ path ∈ files, i.Settled env path)
    {result : ScanResult} (hresult : (scanFiles env hide files i).2 = .ok result) :
    (scanFiles env hide files i).1.rows = i.rows ∧ ∃ reports,
      files.mapM (i.known env) = .ok reports ∧
        result = .ofScanned (reports.reduceOption.map (recalled hide)) := by
  rw [scanFiles, scanEach_of_settled htext h] at hresult ⊢
  cases hfound : files.mapM (i.known env) with
  | error e =>
    rw [hfound] at hresult
    cases hresult
  | ok reports =>
    rw [hfound] at hresult
    simp only [Except.map] at hresult ⊢
    split at hresult
    · cases hresult
    · cases hresult
      exact ⟨rfl, reports, rfl, rfl⟩

lemma scanFiles_again (htext : env.files.Textual) (htext' : env'.files.Textual)
    {result again : ScanResult} (h : scanFiles env hide files i = (j, .ok result))
    (hshares : ∀ path ∈ files, env.Shares path env')
    (hagain : (scanFiles env' hide files j).2 = .ok again) :
    again.Agrees result ∧ again.summary.cachedFiles = again.summary.filesScanned ∧
      (scanFiles env' hide files j).1.rows = j.rows := by
  obtain ⟨hsettled, scanned, rfl, hreports⟩ := settled_scanFiles htext h
  obtain ⟨hrows, reports, hfound, rfl⟩ := scanFiles_of_settled htext'
    (fun path hpath => (hsettled path hpath).of_shares (hshares path hpath)) hagain
  rw [mapM_known_of_shares hshares] at hfound
  refine ⟨ScanResult.agrees_ofScanned ?_, ?_, hrows⟩
  · rw [hreports reports hfound, List.map_map]
    rfl
  · have hcached : (reports.reduceOption.map (recalled hide)).countP Scanned.cached
        = (reports.reduceOption.map (recalled hide)).length := by
      refine List.countP_eq_length.mpr fun x hx => ?_
      obtain ⟨report, -, rfl⟩ := List.mem_map.mp hx
      rfl
    rw [ScanResult.ofScanned, ScanSummary.ofScanned, hcached]

lemma refresh_eq_self {before : List IndexRow} {t : BuildTotals}
    (h : ∀ stamp, env.files.stamp path = .ok stamp → holds before path stamp = false →
      env.report? {} path = none) : refresh env before t path i = (i, .ok t) := by
  rw [refresh]
  split
  · rfl
  rename_i stamp hstamp
  split_ifs with hholds
  · rfl
  · rw [h stamp hstamp (by simpa using hholds)]

lemma refreshEach_eq_self {before : List IndexRow} {t : BuildTotals}
    (h : ∀ path ∈ files, ∀ stamp, env.files.stamp path = .ok stamp →
      holds before path stamp = false → env.report? {} path = none) :
    refreshEach env before t files i = (i, .ok t) := by
  induction files with
  | nil => rfl
  | cons path rest ih =>
    obtain ⟨hpath, hrest⟩ := List.forall_mem_cons.mp h
    rw [refreshEach, refresh_eq_self hpath]
    exact ih hrest

lemma dropStale_eq_self {before : List IndexRow} {met roots : List String}
    (h : ∀ row ∈ before, isStale met roots row = false) : dropStale before met roots i = i := by
  have hnone : before.filter (isStale met roots) = [] :=
    List.filter_eq_nil_iff.mpr fun row hrow => by simp [h row hrow]
  rw [dropStale, hnone]
  rfl

structure UpToDate (env : Env) (files paths : List String) (rows : List IndexRow) : Prop where
  stored : ∀ path ∈ files, ∀ stamp, env.files.stamp path = .ok stamp →
    holds rows path stamp = false → env.report? {} path = none
  met : ∀ row ∈ rows,
    isStale (files.filter fun path => (env.files.stamp path).toBool) paths row = false

namespace UpToDate

variable {paths : List String} {config : IndexConfig} {m : IndexMeta}

lemma of_shares {rows : List IndexRow} (h : UpToDate env files paths rows)
    (hshares : ∀ path ∈ files, env.Shares path env') : UpToDate env' files paths rows where
  stored path hpath stamp hstamp hholds := by
    rw [(hshares path hpath).report?]
    exact h.stored path hpath stamp ((hshares path hpath).stamp ▸ hstamp) hholds
  met row hrow := by
    rw [List.filter_congr fun path hpath => by rw [(hshares path hpath).stamp]]
    exact h.met row hrow

lemma of_attempt {summary : IndexSummary} (hregular : env.files.Regular)
    (hfiles : sourceFiles env.files config.paths config.globs config.excludeGlobs = .ok files)
    (h : Index.attempt env path config i = (j, .ok summary)) :
    UpToDate env files config.paths j.rows := by
  obtain ⟨files', old, m, hfiles', -, -, ⟨totals, htotals⟩, rfl⟩ := attempt_eq_ok h
  cases hfiles.symm.trans hfiles'
  rw [rows_saveMeta]
  refine ⟨fun path hpath stamp hstamp hholds => ?_, fun row hrow => ?_⟩
  · by_contra hsome
    obtain ⟨report, hreport⟩ := Option.ne_none_iff_exists'.mp hsome
    have hmet : path ∈ files.filter fun path => (env.files.stamp path).toBool :=
      List.mem_filter.mpr ⟨hpath, by rw [hstamp]; rfl⟩
    have hhas := has_refreshEach hregular hpath hstamp hreport htotals
    cases hholds.symm.trans (has_iff_holds.mp (hhas.dropStale hmet))
  · rw [isStale]
    cases hwithin : Path.withinAny row.path config.paths with
    | false => exact Bool.and_false _
    | true =>
      obtain ⟨file, hfile, hsame, s, hs⟩ := met_of_mem_rows_dropStale hrow hwithin
      have hmet : file ∈ files.filter fun path => (env.files.stamp path).toBool :=
        List.mem_filter.mpr ⟨hfile, by rw [hs]; rfl⟩
      rw [List.any_eq_true.mpr ⟨file, hmet, hsame⟩]
      rfl

lemma attempt (h : UpToDate env files config.paths i.rows)
    (hfiles : sourceFiles env.files config.paths config.globs config.excludeGlobs = .ok files)
    {old : IndexMeta} (hold : i.loadMeta env.now = .ok old)
    (hm : bind env.files (config.paths.headD "") old = .ok m) (path : String) :
    Index.attempt env path config i
      = (i.saveMeta { m with updatedAt := env.now },
        .ok (.of path { m with updatedAt := env.now } {})) := by
  have hplan : plan env config i = .ok (files, m) := by
    simp only [plan, hfiles, hold, Bind.bind, Except.bind, hm]
    rfl
  rw [Index.attempt, hplan]
  dsimp only
  rw [refreshEach_eq_self h.stored]
  dsimp only
  rw [dropStale_eq_self h.met]

end UpToDate

lemma eq_of_bind {fs : Files} {dir : String} {m m' : IndexMeta} (h : bind fs dir m = .ok m') :
    m' = { m with rootPath := m'.rootPath } := by
  rw [bind] at h
  split_ifs at h
  · cases h
    rfl
  · split at h
    · cases h
      rfl
    · split_ifs at h
      cases h
      rfl

lemma bind_again {fs fs' : Files} {dir : String} {m m' old : IndexMeta} (htext : fs.Textual)
    (hm : bind fs dir m = .ok m') (hold : old.rootPath = m'.rootPath)
    (hdir : fs'.canonical? dir = fs.canonical? dir)
    (hroot : fs'.canonical? m'.rootPath = fs.canonical? m'.rootPath)
    (hfixed : ∀ p q r, fs.canonical? p = some q → fs.canonical? q = some r → r = q) :
    ∃ m'', bind fs' dir old = .ok m'' := by
  rw [bind, hdir, hold, hroot]
  split_ifs with hempty
  · exact ⟨_, rfl⟩
  cases hstored : fs.canonical? m'.rootPath with
  | none => exact ⟨_, rfl⟩
  | some stored =>
    have hsame : Path.same stored ((fs.canonical? dir).getD dir) = true := by
      rw [bind] at hm
      split_ifs at hm with hnew
      · -- the index was bound to the canonical path of the directory
        cases hm
        rw [htext] at hstored
        cases hc : fs.canonical? dir with
        | none =>
          rw [hc] at hstored
          cases hc.symm.trans hstored
        | some canonical =>
          rw [hc] at hstored
          rw [hfixed dir canonical stored hc hstored]
          exact BEq.rfl
      · split at hm
        · rename_i hnone
          cases hm
          cases hnone.symm.trans hstored
        · rename_i found hfound
          split_ifs at hm with hsame
          cases hm
          cases hfound.symm.trans hstored
          exact hsame
    exact ⟨old, by simp [hsame]⟩

/-- The index says nothing about itself yet, or that this version stored it. -/
def Own (i : Index) : Prop := i.entries = [] ∨ i.isCurrent = true

namespace Own

lemma opened (h : i.Own) : i.opened = i := by
  rcases h with hempty | hcurrent
  · exact opened_of_not_isVersioned (by simp [isVersioned, entry?, hempty])
  · simp [Index.opened, hcurrent]

lemma congr (h : i.Own) (hj : j.entries = i.entries) : j.Own := by
  rw [Own, isCurrent, entry?, entry?, hj]
  exact h

lemma versions (h : i.Own) {now : UInt64} {m : IndexMeta} (hm : i.loadMeta now = .ok m) :
    m.schemaVersion = SpecAtlas.schemaVersion ∧ m.toolVersion = SpecAtlas.toolVersion := by
  rw [loadMeta] at hm
  split_ifs at hm with hempty
  · cases hm
    exact ⟨rfl, rfl⟩
  · have hcurrent := h.resolve_left (by simpa using hempty)
    simp only [isCurrent, Bool.and_eq_true, beq_iff_eq] at hcurrent
    simp only [hcurrent.1, hcurrent.2, Option.getD_some, bne_self_eq_false, Bool.false_eq_true,
      if_false] at hm
    cases hm
    exact ⟨rfl, rfl⟩

lemma saveMeta {m : IndexMeta} (hschema : m.schemaVersion = SpecAtlas.schemaVersion)
    (htool : m.toolVersion = SpecAtlas.toolVersion) (i : Index) : (i.saveMeta m).Own := by
  refine .inr ?_
  rw [Index.saveMeta, hschema, htool]
  rfl

lemma scanFiles (h : i.Own) : (SpecAtlas.scanFiles env hide files i).1.Own := by
  have hentries : (scanEach env hide files i).1.entries = i.entries := entries_scanEach
  rw [SpecAtlas.scanFiles]
  split
  · rename_i heq
    rw [heq] at hentries
    exact h.congr hentries
  · rename_i first scanned heq
    rw [heq] at hentries
    split
    · exact h.congr hentries
    · rename_i m hm
      rw [loadMeta_congr hentries] at hm
      obtain ⟨hschema, htool⟩ := h.versions hm
      exact saveMeta (m := { m with updatedAt := env.now }) hschema htool first

lemma attempt (h : i.Own) (path : String) (config : IndexConfig) :
    (Index.attempt env path config i).1.Own := by
  rcases attempt_cases env path config i with
    ⟨e, -, he⟩ | ⟨files, m, hplan, ⟨j, e, hrefresh, he⟩ | ⟨j, totals, hrefresh, he⟩⟩
  · rwa [he]
  · rw [he]
    refine h.congr ?_
    rw [← entries_refreshEach (i := i), hrefresh]
  · obtain ⟨-, old, hold, hm⟩ := plan_eq_ok hplan
    obtain ⟨hschema, htool⟩ := h.versions hold
    rw [he, eq_of_bind hm]
    exact saveMeta (m := { old with rootPath := m.rootPath, updatedAt := env.now }) hschema htool _

lemma attempt_again {config : IndexConfig} {summary : IndexSummary} (hown : j.Own)
    (htext : env.files.Textual) (hregular : env.files.Regular)
    (hfixed : ∀ p q r, env.files.canonical? p = some q → env.files.canonical? q = some r → r = q)
    (h : Index.attempt env path config i = (j, .ok summary))
    (hfiles : sourceFiles env.files config.paths config.globs config.excludeGlobs = .ok files)
    (hfiles' : sourceFiles env'.files config.paths config.globs config.excludeGlobs = .ok files)
    (hshares : ∀ path ∈ files, env.Shares path env')
    (hroots : ∀ dir ∈ [config.paths.headD "", j.root],
      env'.files.canonical? dir = env.files.canonical? dir) :
    ∃ k again, Index.attempt env' path config j = (k, .ok again) ∧ k.rows = j.rows ∧
      again.filesIndexed = 0 ∧ again.specsIndexed = 0 ∧ again.testsIndexed = 0 := by
  have hdone := (UpToDate.of_attempt hregular hfiles h).of_shares hshares
  obtain ⟨_, _, m, -, -, hm, -, hj⟩ := attempt_eq_ok h
  have hroot : j.root = m.rootPath := by
    rw [hj]
    exact root_saveMeta _ _
  obtain ⟨old, hold⟩ := exists_loadMeta_opened j env'.now
  rw [hown.opened] at hold
  obtain ⟨m', hm'⟩ := bind_again htext hm ((of_loadMeta_eq_ok hold).2.trans hroot)
    (hroots _ List.mem_cons_self) (hroot ▸ hroots _ (by simp)) hfixed
  exact ⟨j.saveMeta { m' with updatedAt := env'.now },
    .of path { m' with updatedAt := env'.now } {},
    hdone.attempt hfiles' hold hm' path, rows_saveMeta j _, rfl, rfl, rfl⟩

end Own

end Index

end SpecAtlas
