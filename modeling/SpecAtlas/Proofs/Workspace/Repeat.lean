import SpecAtlas.Proofs.Files.Canonical
import SpecAtlas.Proofs.Index.Repeat
import SpecAtlas.Proofs.Workspace.Distinct
import SpecAtlas.Proofs.Workspace.Failure

/-! Calls that are repeated. Where an index is kept in a file and the files that a call finds are as
they were, the call finds all reports in the index, and leaves its rows as they are. -/

namespace SpecAtlas

open Files

lemma Attempt.Yields.of_ok {α : Type} {done : Workspace → α → Prop} {failed : Workspace → Prop}
    {a : Attempt α} (h : Yields done failed a) {x : α} (hx : a.2 = .ok x) : done a.1 x := by
  obtain ⟨w, y⟩ := a
  cases hx
  exact h

namespace Workspace

open Attempt

variable {w v u : Workspace} {names : List String} {path : String}

lemma Shares.env (h : Shares path v u) : Env.Shares path v.env u.env := ⟨h.stamp, h.report? {}⟩

/-- For the action nothing has changed since it was done: the index is where it was and holds what
the action left there, and the same files are found and read. -/
structure Unchanged (a : Action) (names : List String) (v u : Workspace) : Prop where
  held : u.held names = (v.after a).held names
  site : ∀ r ∈ v.reading? a, u.site? r.index = some names
  found : ∀ r ∈ v.reading? a, ∃ found, u.reading? a = some { r with found }
  shares : ∀ r ∈ v.reading? a, ∀ path ∈ r.files,
    Shares path (v.openIndex r.index).1 (u.openIndex r.index).1

lemma own_of_reaches (h : Reaches names (fun _ _ => True) w v) (hfresh : w.held names = {}) :
    (v.held names).Own := by
  refine h.invariant (P := Index.Own) (hfresh ▸ .inl rfl) fun u c _ haims hu => ?_
  refine haims.held_call hu (hu.opened.symm ▸ hu) (fun env path config => ?_) fun env hide files =>
    ?_
  · rw [hu.opened]
    exact hu.attempt path config
  · rw [hu.opened]
    exact hu.scanFiles

section Build

variable {config : IndexConfig} {files : List String} {summary : IndexSummary} {o : OpenIndex}

lemma Unchanged.build (h : Unchanged (.index config) names v u)
    (hfiles : sourceFiles (v.openIndex config.indexPath).1.files config.paths config.globs
      config.excludeGlobs = .ok files) :
    u.site? config.indexPath = some names ∧
      sourceFiles (u.openIndex config.indexPath).1.files config.paths config.globs
        config.excludeGlobs = .ok files ∧
      ∀ path ∈ files, Env.Shares path (v.openIndex config.indexPath).1.env
        (u.openIndex config.indexPath).1.env := by
  have hr : v.reading? (.index config)
      = some ⟨(v.openIndex config.indexPath).1, config.indexPath, files⟩ := by
    rw [reading?, hfiles]
  have hsite := h.site _ hr
  have hshares := h.shares _ hr
  obtain ⟨found, hfound⟩ := h.found _ hr
  refine ⟨hsite, ?_, fun path hpath => (hshares path hpath).env⟩
  rw [reading?] at hfound
  split at hfound
  · rename_i listed hlisted
    have hsame : listed = files := congrArg Reading.files (Option.some.inj hfound)
    exact hsame ▸ hlisted
  · exact absurd hfound.symm (Option.some_ne_none _)

lemma snd_buildIndex (hsite : w.site? config.indexPath = some names)
    (hopen : (w.openIndex config.indexPath).2 = .ok o)
    (hwrites : (w.openIndex config.indexPath).1.Writes o) :
    (w.buildIndex config).2 = (Index.attempt (w.openIndex config.indexPath).1.env config.indexPath
      config (w.held names).opened).2 := by
  have hopened := openIndex_yields hsite
  rw [buildIndex]
  generalize w.openIndex config.indexPath = opened at hopen hwrites hopened ⊢
  obtain ⟨u, x⟩ := opened
  cases hopen
  obtain ⟨-, hcontents, hpath⟩ := hopened
  rw [andThen_ok, snd_conclude hwrites, hcontents, hpath]

lemma buildIndex_again (hown : (v.held names).Own) (hsite : v.site? config.indexPath = some names)
    (htidy : (v.openIndex config.indexPath).1.tree.Tidy)
    (hbuilt : (v.buildIndex config).2 = .ok summary)
    (hunchanged : Unchanged (.index config) names v u)
    (hroots : ∀ dir ∈ [config.paths.headD "", (u.held names).root],
      (u.openIndex config.indexPath).1.files.canonical? dir
        = (v.openIndex config.indexPath).1.files.canonical? dir)
    (hopen : (u.openIndex config.indexPath).2 = .ok o)
    (hwrites : (u.openIndex config.indexPath).1.Writes o) :
    ∃ again, (u.buildIndex config).2 = .ok again ∧ again.filesIndexed = 0 ∧
      again.specsIndexed = 0 ∧ again.testsIndexed = 0 ∧
      ((u.buildIndex config).1.held names).rows = (u.held names).rows := by
  have hheld : u.held names = (v.buildIndex config).1.held names := hunchanged.held
  have hattempt := (buildIndex_yields hsite).of_ok hbuilt
  rw [hown.opened, ← hheld] at hattempt
  obtain ⟨files, _, _, hfiles, -⟩ := Index.attempt_eq_ok hattempt
  obtain ⟨hsite', hfiles', hshares⟩ := hunchanged.build hfiles
  have hagain : (u.held names).Own := by
    have hattempted : (Index.attempt (v.openIndex config.indexPath).1.env config.indexPath config
        (v.held names)).1.Own := hown.attempt config.indexPath config
    rwa [hattempt] at hattempted
  obtain ⟨k, again, hattempt', hrows, hzero⟩ :=
    hagain.attempt_again (v.openIndex config.indexPath).1.textual
    (htidy.sound.regular _)
    (fun _ _ _ => FileTree.canonical?_of_canonical? htidy) hattempt hfiles hfiles' hshares hroots
  have hsame := snd_buildIndex hsite' hopen hwrites
  rw [hagain.opened, hattempt'] at hsame
  have hkept := (buildIndex_yields hsite').of_ok hsame
  rw [hagain.opened, hattempt'] at hkept
  have hheld' : (u.buildIndex config).1.held names = k := (congrArg Prod.fst hkept).symm
  exact ⟨again, hsame, hzero.1, hzero.2.1, hzero.2.2, hheld' ▸ hrows⟩

end Build

section Scan

variable {config : ScanConfig} {index : IndexConfig} {files : List String}
  {result again : ScanResult}

lemma scan_yields (hindex : config.index = some index)
    (hsite : w.site? index.indexPath = some names) :
    Yields
      (fun v result => ∃ files,
        sourceFiles w.files config.paths config.globs config.excludeGlobs = .ok files ∧
        scanFiles (w.openIndex index.indexPath).1.env config.hides files (w.held names).opened
          = (v.held names, .ok result))
      (fun _ => True) (w.scan config) := by
  have hopened := openIndex_yields hsite
  rw [Workspace.scan, hindex]
  dsimp only
  split
  · trivial
  · rename_i files hfiles
    generalize w.openIndex index.indexPath = opened at hopened ⊢
    obtain ⟨u, e | o⟩ := opened
    · trivial
    · obtain ⟨hattached, hcontents, -⟩ := hopened
      rw [andThen_ok, ← hcontents]
      refine (hattached.conclude _).mono (fun v result hv => ?_) fun _ _ => trivial
      exact ⟨files, hfiles, Prod.ext hv.2.symm hv.1⟩

lemma Unchanged.scan (h : Unchanged (.scan config) names v u) (hindex : config.index = some index)
    (hfiles : sourceFiles v.files config.paths config.globs config.excludeGlobs = .ok files) :
    u.site? index.indexPath = some names ∧
      sourceFiles u.files config.paths config.globs config.excludeGlobs = .ok files ∧
      ∀ path ∈ files, Env.Shares path (v.openIndex index.indexPath).1.env
        (u.openIndex index.indexPath).1.env := by
  have hr : v.reading? (.scan config) = some ⟨v, index.indexPath, files⟩ := by
    rw [reading?, hindex, hfiles]
  have hsite := h.site _ hr
  have hshares := h.shares _ hr
  obtain ⟨found, hfound⟩ := h.found _ hr
  refine ⟨hsite, ?_, fun path hpath => (hshares path hpath).env⟩
  rw [reading?, hindex] at hfound
  cases hlisted : sourceFiles u.files config.paths config.globs config.excludeGlobs with
  | error e =>
    rw [hlisted] at hfound
    exact absurd hfound.symm (Option.some_ne_none _)
  | ok listed =>
    rw [hlisted] at hfound
    have hsame : listed = files := congrArg Reading.files (Option.some.inj hfound)
    rw [hsame]

lemma scan_again (hown : (v.held names).Own) (hindex : config.index = some index)
    (hsite : v.site? index.indexPath = some names) (hresult : (v.scan config).2 = .ok result)
    (hunchanged : Unchanged (.scan config) names v u) (hagain : (u.scan config).2 = .ok again) :
    again.Agrees result ∧ again.summary.cachedFiles = again.summary.filesScanned ∧
      ((u.scan config).1.held names).rows = (u.held names).rows := by
  have hheld : u.held names = (v.scan config).1.held names := hunchanged.held
  obtain ⟨files, hfiles, hscan⟩ := (scan_yields hindex hsite).of_ok hresult
  obtain ⟨hsite', hlisted, hshares⟩ := hunchanged.scan hindex hfiles
  obtain ⟨files', hfiles', hscan'⟩ := (scan_yields hindex hsite').of_ok hagain
  cases hlisted.symm.trans hfiles'
  rw [hown.opened, ← hheld] at hscan
  have hkept : (u.held names).Own := by
    have hscanned : (scanFiles (v.openIndex index.indexPath).1.env config.hides files
        (v.held names)).1.Own := hown.scanFiles
    rwa [hscan] at hscanned
  rw [hkept.opened] at hscan'
  obtain ⟨hagrees, hcached, hrows⟩ :=
    Index.scanFiles_again (v.openIndex index.indexPath).1.textual
      (u.openIndex index.indexPath).1.textual hscan hshares (congrArg Prod.snd hscan')
  refine ⟨hagrees, hcached, ?_⟩
  rw [← hrows, hscan']

end Scan

/-- Calls that are repeated change nothing. On an index to which only these calls have been made, a
build that is done again on the same files stores nothing, and a scan that is done again gives the
same files and has all of them from the index. Both leave the rows as they are. -/
theorem repetition_leaves_rows (w v u : Workspace) (names : List String)
    (hfresh : w.held names = {}) (hreaches : Reaches names (fun _ _ => True) w v) :
    (∀ config summary o, v.site? config.indexPath = some names →
      (v.openIndex config.indexPath).1.tree.Tidy → (v.buildIndex config).2 = .ok summary →
      Unchanged (.index config) names v u →
      (∀ dir ∈ [config.paths.headD "", (u.held names).root],
        (u.openIndex config.indexPath).1.files.canonical? dir
          = (v.openIndex config.indexPath).1.files.canonical? dir) →
      (u.openIndex config.indexPath).2 = .ok o → (u.openIndex config.indexPath).1.Writes o →
      ∃ again, (u.buildIndex config).2 = .ok again ∧ again.filesIndexed = 0 ∧
        again.specsIndexed = 0 ∧ again.testsIndexed = 0 ∧
        ((u.buildIndex config).1.held names).rows = ((v.buildIndex config).1.held names).rows) ∧
    ∀ config index result again, config.index = some index →
      v.site? index.indexPath = some names → (v.scan config).2 = .ok result →
      Unchanged (.scan config) names v u → (u.scan config).2 = .ok again →
      again.files = result.files ∧ again.summary.cachedFiles = again.summary.filesScanned ∧
        ((u.scan config).1.held names).rows = ((v.scan config).1.held names).rows := by
  have hown := own_of_reaches hreaches hfresh
  constructor
  · intro config summary o hsite htidy hbuilt hunchanged hroots hopen hwrites
    obtain ⟨again, hagain, hfiles, hspecs, htests, hrows⟩ :=
      buildIndex_again hown hsite htidy hbuilt hunchanged hroots hopen hwrites
    exact ⟨again, hagain, hfiles, hspecs, htests,
      hrows.trans (congrArg Index.rows hunchanged.held)⟩
  · intro config index result again hindex hsite hresult hunchanged hagain
    obtain ⟨hagrees, hcached, hrows⟩ := scan_again hown hindex hsite hresult hunchanged hagain
    exact ⟨hagrees.files, hcached, hrows.trans (congrArg Index.rows hunchanged.held)⟩

lemma Unchanged.wait {a : Action} (now : UInt64) (index : String) (files : List String)
    (hu : u = { v.after a with now })
    (hfirst : (v.reading? a).map (fun r => (r.index, r.files)) = some (index, files))
    (hlater : (u.reading? a).map (fun r => (r.index, r.files)) = some (index, files))
    (hsite : u.site? index = some names)
    (hsame : ∀ path ∈ files,
      (u.openIndex index).1.files.stamp path = (v.openIndex index).1.files.stamp path ∧
        (u.openIndex index).1.files.read path = (v.openIndex index).1.files.read path) :
    Unchanged a names v u := by
  obtain ⟨reading, hv, heq⟩ := Option.map_eq_some_iff.mp hfirst
  obtain ⟨rfl, rfl⟩ := Prod.mk.inj heq
  obtain ⟨⟨found, index, files⟩, hreading, heq⟩ := Option.map_eq_some_iff.mp hlater
  obtain ⟨rfl, rfl⟩ := Prod.mk.inj heq
  refine ⟨?_, fun r hr => ?_, fun r hr => ?_, fun r hr path hpath => ?_⟩
  · rw [hu]
    rfl
  all_goals obtain rfl := Option.some.inj (hv.symm.trans hr)
  · exact hsite
  · exact ⟨found, hreading⟩
  · obtain ⟨hstamp, hread⟩ := hsame path hpath
    have hfrontend : u.frontend = v.frontend := hu ▸ (v.after_holds_true a).frontend
    refine ⟨?_, hstamp, hread⟩
    rw [(openIndex_holds_true u _).frontend, (openIndex_holds_true v _).frontend, hfrontend]

def builtSources : Workspace := { sources.after (.index (specsOf "src")) with now := 9 }

lemma unchanged_builtSources :
    Unchanged (.index (specsOf "src")) ["specs.db"] sources builtSources := by
  refine .wait 9 "specs.db" ["src/A.kt", "src/B.kt"] (by rw [builtSources]) ?_ ?_ ?_ ?_
  all_goals decide +kernel

def scanSources : ScanConfig := { paths := ["src"], index := some (specsOf "src") }

def scannedSources : Workspace := { sources.after (.scan scanSources) with now := 9 }

lemma unchanged_scannedSources :
    Unchanged (.scan scanSources) ["specs.db"] sources scannedSources := by
  refine .wait 9 "specs.db" ["src/A.kt", "src/B.kt"] (by rw [scannedSources]) ?_ ?_ ?_ ?_
  all_goals decide +kernel

lemma exists_openIndex_builtSources :
    ∃ o, (builtSources.openIndex (specsOf "src").indexPath).2 = .ok o ∧
      (builtSources.openIndex (specsOf "src").indexPath).1.Writes o := by
  have hlogs : (builtSources.openIndex (specsOf "src").indexPath).2.toOption.map
      (builtSources.openIndex (specsOf "src").indexPath).1.logs = some true := by decide +kernel
  cases hopen : (builtSources.openIndex (specsOf "src").indexPath).2 with
  | error e =>
    rw [hopen] at hlogs
    cases hlogs
  | ok o =>
    rw [hopen] at hlogs
    exact ⟨o, rfl, (writes_of_logs (Option.some.inj hlogs)).2⟩

theorem repetition_leaves_rows_sources :
    (∃ again, (builtSources.buildIndex (specsOf "src")).2 = .ok again ∧ again.filesIndexed = 0) ∧
      ((builtSources.buildIndex (specsOf "src")).1.held ["specs.db"]).rows
        = ((sources.buildIndex (specsOf "src")).1.held ["specs.db"]).rows ∧
      ∃ result again, (sources.scan scanSources).2 = .ok result ∧
        (scannedSources.scan scanSources).2 = .ok again ∧ again.files = result.files ∧
        again.summary.cachedFiles = again.summary.filesScanned := by
  have hfresh : sources.held ["specs.db"] = {} := by decide +kernel
  obtain ⟨hbuilds, -⟩ :=
    repetition_leaves_rows sources sources builtSources ["specs.db"] hfresh .start
  obtain ⟨-, hscans⟩ :=
    repetition_leaves_rows sources sources scannedSources ["specs.db"] hfresh .start
  obtain ⟨summary, hsummary⟩ : ∃ summary, (sources.buildIndex (specsOf "src")).2 = .ok summary :=
    exists_ok_of_toBool (by decide +kernel)
  obtain ⟨o, hopen, hwrites⟩ := exists_openIndex_builtSources
  obtain ⟨later, hlater, hnone, -, -, hrows⟩ := hbuilds (specsOf "src") summary o
    (by decide +kernel) (by decide +kernel) hsummary unchanged_builtSources (by decide +kernel)
    hopen hwrites
  obtain ⟨result, hresult⟩ : ∃ result, (sources.scan scanSources).2 = .ok result :=
    exists_ok_of_toBool (by decide +kernel)
  obtain ⟨again, hagain⟩ : ∃ again, (scannedSources.scan scanSources).2 = .ok again :=
    exists_ok_of_toBool (by decide +kernel)
  obtain ⟨hfiles, hcached, -⟩ := hscans scanSources (specsOf "src") result again rfl
    (by decide +kernel) hresult unchanged_scannedSources hagain
  exact ⟨⟨later, hlater, hnone⟩, hrows, result, again, hresult, hagain, hfiles, hcached⟩

def unkept : IndexConfig := { paths := ["src"], indexPath := "" }

/-- The permissions of the index are those of its log, which is deleted when the index is closed. -/
def likeLog : IndexConfig := { paths := ["src"], indexPath := "file:specs.db?modeof=specs.db-wal" }

def sourcesWithLog : Workspace :=
  ofEntries [("specs.db-wal", .file (.bytes .empty none) 1),
    ("src", .directory [("A.kt", .file (.bytes "class A".toByteArray none) 1)])]

/-- A build whose index is not kept stores everything again, a scan can find other files once it has
made its index, and an index that was opened once need not open again. -/
theorem repetition_changes_more :
    (sources.buildIndex unkept).2.toOption.map (·.filesIndexed) = some 2 ∧
      ((sources.buildIndex unkept).1.buildIndex unkept).2.toOption.map (·.filesIndexed) = some 2 ∧
      (ignoring.scan scanRepository).2.toOption.map (·.files.map (·.path)) = some ["repo/A.kt"] ∧
      ((ignoring.scan scanRepository).1.scan scanRepository).2.toOption.map
        (·.files.map (·.path)) = some [] ∧
      (sourcesWithLog.buildIndex likeLog).2.toBool = true ∧
      ((sourcesWithLog.buildIndex likeLog).1.buildIndex likeLog).2.toBool = false := by
  decide +kernel

end Workspace

end SpecAtlas
