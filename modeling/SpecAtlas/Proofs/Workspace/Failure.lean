import SpecAtlas.Proofs.Scan.Depth
import SpecAtlas.Proofs.Workspace.Transparency

/-! How a scan with an index can fail. Every row that a run of the program stores holds a report, so
of the files that a scan finds only one with a report that is too deep makes it fail. -/

namespace SpecAtlas

open Files

variable {env : Env} {hide : Hiding} {path : String} {i : Index}

namespace Workspace

variable {w : Workspace} {actions : List Action} {o : OpenIndex}

lemma run_holds_reports (hfresh : w.Fresh) (actions : List Action) :
    (w.run actions).Holds w.frontend w.here IndexRow.HoldsReport := by
  induction actions using List.reverseRecOn with
  | nil => exact hfresh.mono fun _ h => h.elim
  | append_singleton actions a ih =>
    rw [run_append]
    exact ih.after fun r _ path _ stamp report _ _ id => ⟨report, rfl⟩

open Attempt

lemma keeps_true {α : Type} (a : Attempt α) : Keeps (fun _ => True) (fun _ => True) a :=
  ⟨trivial, fun _ _ => trivial⟩

lemma prepare_opened (w : Workspace) (c : Connection) (d : Database) :
    Keeps (fun _ => True) (fun r => ∃ i : Index, r.2.contents = i.opened) (w.prepare c d) := by
  rw [prepare]
  split_ifs with hready
  · refine .ok trivial ⟨d.index.getD {}, ?_⟩
    exact (congrArg Database.contents hready).symm
  · exact (keeps_true _).map fun _ _ => ⟨d.index.getD {}, rfl⟩

lemma connect_opened (w : Workspace) (c : Connection) :
    Keeps (fun _ => True) (fun r => ∃ i : Index, r.2.contents = i.opened) (w.connect c) := by
  rw [connect]
  refine (keeps_true _).andThen fun w r _ _ => ?_
  exact (keeps_true _).andThen fun w r _ _ => prepare_opened w r.1 r.2

lemma openAt_opened (w : Workspace) (path : String) (location : Location) :
    Keeps (fun _ => True)
      (fun o => (∃ serial, o.holder = .shared serial) ∨ ∃ i : Index, o.contents = i.opened)
      (w.openAt path location) := by
  rw [openAt]
  split
  · rw [openMemory]
    split_ifs
    · exact .error trivial _
    split
    · exact .ok trivial (.inr ⟨{}, rfl⟩)
    split
    · exact .ok trivial (.inl ⟨_, rfl⟩)
    · exact .ok trivial (.inl ⟨_, rfl⟩)
  · split
    · exact .error trivial _
    · exact (connect_opened _ _).andThen fun w r _ hr => .ok trivial (.inr hr)

lemma openIndex_opened (w : Workspace) (path : String) :
    Keeps (fun _ => True)
      (fun o => (∃ serial, o.holder = .shared serial) ∨ ∃ i : Index, o.contents = i.opened)
      (w.openIndex path) := by
  rw [openIndex]
  split
  · exact .error trivial _
  · dsimp only
    split
    · exact .error trivial _
    · exact openAt_opened _ path _

/-- Nothing keeps the users of an index from writing to it. -/
def Writes (w : Workspace) (o : OpenIndex) : Prop := ∀ i, ∃ p, (w.replace o i).2 = .ok p

lemma snd_conclude {α : Type} (h : w.Writes o) (r : Index × Except Failure α) :
    (w.conclude o r).2 = r.2 := by
  obtain ⟨p, hp⟩ := h r.1
  rw [conclude, keep]
  generalize w.replace o r.1 = replaced at hp ⊢
  obtain ⟨v, x⟩ := replaced
  cases hp
  rfl

/-- Where a scan without an index succeeds, one with an index that can be opened and written
succeeds just if it meets no report that is too deep to be read back: none that the index has for a
file as it is, and none of its own for a file that it comes to again. It fails only at such a file.
Reports that are too large for the database are left out, as in `Env.store`. -/
theorem scan_fails_only_at_depth {config : ScanConfig} {index : IndexConfig} {plain : ScanResult}
    (hfresh : w.Fresh) (hindex : config.index = some index)
    (hplain : ((w.run actions).scan { config with index := none }).2 = .ok plain)
    (hopen : ((w.run actions).openIndex index.indexPath).2 = .ok o)
    (hholder : ∀ serial, o.holder ≠ .shared serial)
    (hwrites : ((w.run actions).openIndex index.indexPath).1.Writes o) :
    ∃ files, sourceFiles (w.run actions).files config.paths config.globs config.excludeGlobs
        = .ok files ∧
      ((∃ result, ((w.run actions).scan config).2 = .ok result) ↔
        ∀ path ∈ files, ¬ ((w.run actions).openIndex index.indexPath).1.env.MeetsDeep files
          o.contents path) ∧
      ∀ e, ((w.run actions).scan config).2 = .error e →
        ∃ path ∈ files, e = .corruptEntry path ∧
          ((w.run actions).openIndex index.indexPath).1.env.MeetsDeep files o.contents path := by
  obtain ⟨files, hfiles, -⟩ := exists_ok_of_bind_eq_ok hplain
  have hfiles : sourceFiles (w.run actions).files config.paths config.globs config.excludeGlobs
      = .ok files := hfiles
  have hopened := (run_holds_reports hfresh actions).openIndex index.indexPath
  have hcontents := (openIndex_opened (w.run actions) index.indexPath).2 o hopen
  refine ⟨files, hfiles, ?_⟩
  rw [Workspace.scan, hindex]
  dsimp only
  rw [hfiles]
  dsimp only
  generalize (w.run actions).openIndex index.indexPath = opened at hopen hwrites hopened ⊢
  obtain ⟨v, x⟩ := opened
  cases hopen
  obtain ⟨-, hrows⟩ := hopened.2 o rfl
  rw [andThen_ok, snd_conclude hwrites]
  obtain ⟨serial, hserial⟩ | ⟨i, hi⟩ := hcontents
  · exact absurd hserial (hholder serial)
  · -- the index was opened by this version, so only a row can be at fault
    exact scanFiles_fails_iff v.textual hrows (hi ▸ Index.exists_loadMeta_opened i _)

def logs (w : Workspace) (o : OpenIndex) : Bool :=
  match o.holder with
  | .file serial c =>
    match w.content? serial c with
    | some (.database _) => !c.readsOnly && c.usesLog
    | _ => false
  | _ => false

lemma writes_of_logs (h : w.logs o = true) :
    (∀ serial, o.holder ≠ .shared serial) ∧ w.Writes o := by
  rw [logs] at h
  split at h
  · rename_i serial c hholder
    split at h
    · rename_i d hd
      simp only [Bool.and_eq_true, Bool.not_eq_true'] at h
      refine ⟨fun _ hshared => (by cases hholder.symm.trans hshared), fun i => ?_⟩
      simp [replace, hholder, hd, writeDatabase, h.1, h.2, Attempt.map, Except.map]
    · cases h
  · cases h

lemma sourceFiles_cachedRun :
    (sourceFiles (empty.run cachedRun).files ["."] [] []).toOption = some ["./A.kt"] := by
  decide +kernel

lemma not_meetsDeep_cachedRun (hopen : ((empty.run cachedRun).openIndex "specs.db").2 = .ok o) :
    ¬ ((empty.run cachedRun).openIndex "specs.db").1.env.MeetsDeep ["./A.kt"] o.contents
      "./A.kt" := by
  have hreadable : ((empty.run cachedRun).openIndex "specs.db").2.toOption.map
      (fun o => (o.contents.known ((empty.run cachedRun).openIndex "specs.db").1.env
        "./A.kt").toBool) = some true := by decide +kernel
  obtain ⟨-, hrows⟩ :=
    ((run_holds_reports fresh_empty cachedRun).openIndex "specs.db").2 o hopen
  rw [hopen] at hreadable
  obtain ⟨report, hreport⟩ := exists_ok_of_toBool (Option.some.inj hreadable)
  rintro (hfinds | ⟨hcount, -⟩)
  · cases hreport.symm.trans ((Index.known_eq_error_iff hrows).mpr hfinds)
  · simp at hcount

theorem scan_fails_only_at_depth_cached :
    ∃ plain o, ((empty.run cachedRun).scan { cachedScan with index := none }).2 = .ok plain ∧
      ((empty.run cachedRun).openIndex "specs.db").2 = .ok o ∧
      (∀ serial, o.holder ≠ .shared serial) ∧
      ((empty.run cachedRun).openIndex "specs.db").1.Writes o ∧
      ∃ result, ((empty.run cachedRun).scan cachedScan).2 = .ok result := by
  obtain ⟨plain, hplain⟩ : ∃ plain,
      ((empty.run cachedRun).scan { cachedScan with index := none }).2 = .ok plain :=
    exists_ok_of_toBool (by decide +kernel)
  have hlogs : ((empty.run cachedRun).openIndex "specs.db").2.toOption.map
      ((empty.run cachedRun).openIndex "specs.db").1.logs = some true := by decide +kernel
  cases hopen : ((empty.run cachedRun).openIndex "specs.db").2 with
  | error e =>
    rw [hopen] at hlogs
    cases hlogs
  | ok o =>
    rw [hopen] at hlogs
    obtain ⟨hholder, hwrites⟩ := writes_of_logs (Option.some.inj hlogs)
    have hindex : cachedScan.index = some { paths := ["."], indexPath := "specs.db" } := rfl
    obtain ⟨files, hfiles, hsucceeds, -⟩ :=
      scan_fails_only_at_depth fresh_empty hindex hplain hopen hholder hwrites
    have hlist := sourceFiles_cachedRun
    rw [show sourceFiles (empty.run cachedRun).files ["."] [] [] = .ok files from hfiles] at hlist
    obtain rfl : files = ["./A.kt"] := Option.some.inj hlist
    refine ⟨plain, o, hplain, rfl, hholder, hwrites, hsucceeds.mpr fun path hpath => ?_⟩
    rw [List.mem_singleton.mp hpath]
    exact not_meetsDeep_cachedRun hopen

end Workspace

lemma scanFiles_twice (htext : env.files.Textual) {stamp : Stamp} {report : FileReport}
    (hstamp : env.files.stamp path = .ok stamp) (hreport : env.report? {} path = some report)
    (hdeep : Json.maxDepth < report.toJson.depth) (hnew : i.cached path stamp = .ok none)
    (hmeta : ∃ m, i.loadMeta env.now = .ok m) :
    (∃ result, (scanFiles env hide [path] i).2 = .ok result) ∧
      (scanFiles env hide [path] (scanFiles env hide [path] i).1).2
        = .error (.corruptEntry path) := by
  obtain ⟨m, hm⟩ := hmeta
  have hm' : (i.store path stamp report).1.loadMeta env.now = .ok m := by
    rw [Index.loadMeta_congr (Index.entries_store path stamp report), hm]
  have hfirst : scanFiles env hide [path] i =
      ((i.store path stamp report).1.saveMeta { m with updatedAt := env.now },
        .ok (.ofScanned [{ report := report.hide hide }])) := by
    simp [scanFiles, scanEach, scanFile, htext path, hstamp, hnew, hreport,
      Env.store_of_isText (htext.isText path), hm']
  have hcached := i.cached_store_self path stamp report
  rw [if_neg (Nat.not_le_of_lt hdeep)] at hcached
  -- Saving what the index says about itself does not touch the row.
  have hagain {j : Index} (hj : j.cached path stamp = .error (.corruptEntry path)) :
      (scanFiles env hide [path] j).2 = .error (.corruptEntry path) := by
    simp [scanFiles, scanEach, scanFile, htext path, hstamp, hj]
  refine ⟨⟨_, congrArg Prod.snd hfirst⟩, ?_⟩
  rw [hfirst]
  exact hagain hcached

def deepWorkspace : Workspace :=
  { Workspace.empty with frontend := fun _ => nestedTests 62 }.after
    (.write "A.kt" "StringSpec".toByteArray 1)

/-- The report that the first scan stores makes the second one fail. -/
theorem second_scan_fails :
    let first := scanFiles deepWorkspace.env {} ["A.kt"] {}
    (∃ result, first.2 = .ok result) ∧
      (scanFiles deepWorkspace.env {} ["A.kt"] first.1).2 = .error (.corruptEntry "A.kt") := by
  have hread : deepWorkspace.env.files.read "A.kt" = .ok "StringSpec" := by decide +kernel
  have hreport : deepWorkspace.env.report? {} "A.kt" =
      some (FileReport.ofFile "A.kt" ⟨"StringSpec", nestedTests 62⟩ {}) := by
    rw [Env.report?, hread]
    rfl
  have hstamp : deepWorkspace.env.files.stamp "A.kt" = .ok ⟨1, 10⟩ := by decide +kernel
  have hdeep : Json.maxDepth <
      (FileReport.ofFile "A.kt" ⟨"StringSpec", nestedTests 62⟩ {}).toJson.depth := by
    rw [depth_nestedTests]
    decide
  exact scanFiles_twice deepWorkspace.textual hstamp hreport hdeep rfl ⟨_, rfl⟩

end SpecAtlas
