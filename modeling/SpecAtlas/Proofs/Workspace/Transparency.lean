import SpecAtlas.Proofs.Scan.Depth
import SpecAtlas.Proofs.Workspace.Contents
import SpecAtlas.Proofs.Workspace.Run

/-! Scans with and without an index. Every row that an index has come to hold was made for a file as
it was at some point of the run, so a scan with the index finds what a scan without it does, as long
as no file had two texts under one stamp. -/

namespace SpecAtlas

open Files

namespace Workspace

variable {w : Workspace} {a : Action} {actions : List Action} {files : List String}

/-- No index holds a row yet. -/
def Fresh (w : Workspace) : Prop := w.Holds w.frontend w.here fun _ => False

/-- No action reads the index that it opens as one of its source files. -/
def Apart (w : Workspace) : List Action → Prop
  | [] => True
  | a :: rest => w.Bypasses a ∧ (w.after a).Apart rest

/-- No source file has two texts under one stamp in the states of the run. -/
def Steady (w : Workspace) (actions : List Action) : Prop :=
  ∀ u ∈ w.states actions, ∀ v ∈ w.states actions, ∀ path stamp, Path.isSource path = true →
    u.files.stamp path = .ok stamp → v.files.stamp path = .ok stamp →
    u.files.read path = v.files.read path

def Recorded (w : Workspace) (actions : List Action) (row : IndexRow) : Prop :=
  ∃ v ∈ w.states actions, v.files.stamp row.path = .ok row.stamp ∧
    ∃ report, v.env.report? {} row.path = some report ∧ row.report = report.toJson.render

instance decidableApart (w : Workspace) : (actions : List Action) → Decidable (w.Apart actions)
  | [] => isTrue trivial
  | a :: rest =>
    have := decidableApart (w.after a) rest
    inferInstanceAs (Decidable (w.Bypasses a ∧ _))

lemma steady_of_views (h : ∀ u ∈ w.states actions, ∀ v ∈ w.states actions, ∀ x ∈ u.tree.views,
    ∀ y ∈ v.tree.views, x.1 = y.1 → x.2 = y.2) : w.Steady actions := by
  intro u hu v hv path stamp _ hstamp hother
  exact h u hu v hv _ (FileTree.mem_views hstamp) _ (FileTree.mem_views hother) rfl

lemma apart_append :
    w.Apart (actions ++ [a]) ↔ w.Apart actions ∧ (w.run actions).Bypasses a := by
  induction actions generalizing w with
  | nil => simp [Apart, run]
  | cons b rest ih =>
    rw [List.cons_append, Apart, Apart, ih, and_assoc]
    rfl

lemma grants_recorded (h : (w.run actions).Bypasses a) {r : Reading}
    (hr : (w.run actions).reading? a = some r) :
    ((w.run actions).openIndex r.index).1.env.Grants (w.Recorded (actions ++ [a])) r.files := by
  intro path hpath stamp report hstamp hreport id
  obtain ⟨hopened, hafter⟩ := h.shares hr hpath
  have hshares := hopened.symm.trans hafter
  rw [← run_append] at hshares
  refine ⟨w.run (actions ++ [a]), w.run_mem_states _, hshares.stamp.trans hstamp, report, ?_, rfl⟩
  exact (hshares.report? {}).trans hreport

lemma run_holds_recorded (hfresh : w.Fresh) (hapart : w.Apart actions) :
    (w.run actions).Holds w.frontend w.here (w.Recorded actions) := by
  induction actions using List.reverseRecOn with
  | nil => exact hfresh.mono fun _ h => h.elim
  | append_singleton actions a ih =>
    obtain ⟨hbefore, hlast⟩ := apart_append.mp hapart
    have hheld : (w.run actions).Holds w.frontend w.here (w.Recorded (actions ++ [a])) := by
      refine (ih hbefore).mono fun row hrow => ?_
      obtain ⟨v, hv, hrow⟩ := hrow
      exact ⟨v, states_subset_append hv a, hrow⟩
    rw [run_append]
    exact hheld.after fun r hr => grants_recorded hlast hr

lemma confirms_of_recorded (hsteady : w.Steady actions)
    (hsource : ∀ path ∈ files, Path.isSource path = true) {v : Workspace}
    (hshares : ∀ path ∈ files, Shares path (w.run actions) v) {row : IndexRow}
    (hrow : w.Recorded actions row) : v.env.Confirms files row := by
  intro hpath hstamp
  obtain ⟨u, hu, hold, report, hreport, htext⟩ := hrow
  have hshare := hshares row.path hpath
  have hnow : (w.run actions).files.stamp row.path = .ok row.stamp :=
    hshare.stamp.symm.trans hstamp
  have hsame : Shares row.path u (w.run actions) := by
    refine ⟨?_, hnow.trans hold.symm, ?_⟩
    · rw [frontend_of_mem_states (w.run_mem_states actions), frontend_of_mem_states hu]
    · exact hsteady _ (w.run_mem_states actions) u hu row.path row.stamp
        (hsource row.path hpath) hnow hold
  refine ⟨report, ?_, htext⟩
  rw [(hsame.trans hshare).report?, hreport]

lemma conclude_eq_ok {α : Type} {o : OpenIndex} {r : Index × Except Failure α} {x : α}
    (h : (w.conclude o r).2 = .ok x) : r.2 = .ok x := by
  replace h : (w.keep o r).2.2 = .ok x := h
  rw [keep] at h
  split at h
  · exact h
  · cases h
  · cases h

lemma scan_eq_ok {config : ScanConfig} {index : IndexConfig} {result : ScanResult}
    (hindex : config.index = some index) (h : (w.scan config).2 = .ok result) :
    ∃ files o,
      sourceFiles w.files config.paths config.globs config.excludeGlobs = .ok files ∧
      (w.openIndex index.indexPath).2 = .ok o ∧
      (scanFiles (w.openIndex index.indexPath).1.env config.hides files o.contents).2
        = .ok result := by
  rw [Workspace.scan] at h
  rw [hindex] at h
  dsimp only at h
  split at h
  · cases h
  · rename_i files hfiles
    generalize w.openIndex index.indexPath = opened at h ⊢
    obtain ⟨v, e | o⟩ := opened
    · cases h
    · exact ⟨files, o, hfiles, rfl, conclude_eq_ok h⟩

/-- Whatever was done before, a scan with an index agrees with one that is done in its place without
an index. -/
theorem scan_agrees_without_index {config : ScanConfig} {result : ScanResult} (hfresh : w.Fresh)
    (hapart : w.Apart (actions ++ [.scan config])) (hsteady : w.Steady actions)
    (h : ((w.run actions).scan config).2 = .ok result) :
    ∃ plain, ((w.run actions).scan { config with index := none }).2 = .ok plain ∧
      result.Agrees plain := by
  cases hindex : config.index with
  | none =>
    have hconfig : { config with index := none } = config := by rw [← hindex]
    rw [hconfig]
    exact ⟨result, h, rfl, rfl, rfl⟩
  | some index =>
    obtain ⟨files, o, hfiles, hopen, hscan⟩ := scan_eq_ok hindex h
    obtain ⟨hbefore, hlast⟩ := apart_append.mp hapart
    have hread : (w.run actions).reading? (.scan config)
        = some ⟨w.run actions, index.indexPath, files⟩ := by
      rw [reading?, hindex, hfiles]
    have hshares (path : String) (hpath : path ∈ files) :
        Shares path (w.run actions) ((w.run actions).openIndex index.indexPath).1 :=
      (hlast.shares hread hpath).1
    have hrows := (run_holds_recorded hfresh hbefore).openIndex index.indexPath
    -- a row that has the stamp of its file was made of the text that is there now
    have hconfirms : o.contents.AllRows
        (((w.run actions).openIndex index.indexPath).1.env.Confirms files) := by
      intro row hrow
      exact confirms_of_recorded hsteady (fun path => isSource_of_mem_sourceFiles hfiles) hshares
        ((hrows.2 o hopen).2 row hrow)
    have hagrees := scanFiles_agrees ((w.run actions).openIndex index.indexPath).1.textual
      (FileTree.stamped _ _) hconfirms hscan
    rw [List.filterMap_congr fun path hpath => by rw [(hshares path hpath).report?]] at hagrees
    refine ⟨_, ?_, hagrees⟩
    show SpecAtlas.scan (w.run actions).env { config with index := none } = _
    rw [SpecAtlas.scan]
    rw [show sourceFiles (w.run actions).env.files config.paths config.globs config.excludeGlobs
      = .ok files from hfiles]
    rfl

def empty : Workspace where
  tree := { mount := "/work" }
  frontend := fun text => .mk { kind := "source_file", start := 0, stop := text.utf8ByteSize } []
  now := 5

lemma fresh_empty : empty.Fresh := by
  refine ⟨rfl, rfl, ?_, fun s hs => by cases hs⟩
  intro names content time h
  cases names with
  | nil => cases h
  | cons n names => cases h

def cachedScan : ScanConfig :=
  { paths := ["."], index := some { paths := ["."], indexPath := "specs.db" } }

def cachedRun : List Action := [.write "A.kt" "class A".toByteArray 1, .scan cachedScan]

theorem scan_agrees_without_index_cached :
    ∃ result plain, ((empty.run cachedRun).scan cachedScan).2 = .ok result ∧
      result.summary.cachedFiles = 1 ∧
      ((empty.run cachedRun).scan { cachedScan with index := none }).2 = .ok plain ∧
      result.Agrees plain := by
  have hcached : ((empty.run cachedRun).scan cachedScan).2.toOption.map (·.summary.cachedFiles)
      = some 1 := by decide +kernel
  have hsteady : empty.Steady cachedRun := steady_of_views (by decide +kernel)
  cases hresult : ((empty.run cachedRun).scan cachedScan).2 with
  | error e =>
    rw [hresult] at hcached
    cases hcached
  | ok result =>
    rw [hresult] at hcached
    obtain ⟨plain, hplain, hagrees⟩ :=
      scan_agrees_without_index fresh_empty (by decide +kernel) hsteady hresult
    exact ⟨result, plain, rfl, Option.some.inj hcached, hplain, hagrees⟩

/-- Two files. The name of the second one has a byte that is in no text, and what is kept of it is
the name of the first. -/
def twins : Env where
  frontend := fun _ => nestedTests 0
  files :=
    { kind? := fun path => some (if path == "." then .directory else .file)
      canonical? := some
      stamp := fun _ => .ok ⟨1, 10⟩
      read := fun path => .ok (if path == "./a\uFFFD.kt" then "StringSpec" else "Plain text")
      walk := fun _ => ["./a\uFFFD.kt", "./a\\xFF.kt"]
      textOf := fun path => if path == "./a\\xFF.kt" then "./a\uFFFD.kt" else path }
  now := 5

/-- A directory whose ignore file does not count, as long as it is not a repository. -/
def ignoring : Workspace :=
  { ofEntries [("repo", .directory
      [(".gitignore", .file (.bytes "A.kt".toByteArray none) 1),
        ("A.kt", .file (.bytes "StringSpec".toByteArray none) 1)])] with
    frontend := fun _ => nestedTests 0 }

def scanRepository : ScanConfig :=
  { paths := ["repo"], index := some { paths := ["repo"], indexPath := "repo/.git/specs.db" } }

/-- Where a path is no text, a scan with an index can take the report of another file for its own.
And where the index is made by the scan, a scan after it can find other files. -/
theorem scan_differs_without_index :
    (scanIndexed twins { paths := ["."] } {}).2.toOption.map
        (fun r => (r.files.map (·.path), r.summary.specs))
      = some (["./a\uFFFD.kt", "./a\uFFFD.kt"], 2) ∧
    (SpecAtlas.scan twins { paths := ["."] }).toOption.map
        (fun r => (r.files.map (·.path), r.summary.specs)) = some (["./a\uFFFD.kt"], 1) ∧
    (ignoring.scan scanRepository).2.toOption.map
        (fun r => (r.files.map (·.path), r.summary.specs)) = some (["repo/A.kt"], 1) ∧
    ((ignoring.scan scanRepository).1.scan { scanRepository with index := none }).2.toOption.map
        (fun r => (r.files.map (·.path), r.summary.specs)) = some ([], 0) := by
  decide +kernel

end Workspace

end SpecAtlas
