import SpecAtlas.Proofs.Files.Walk
import SpecAtlas.Proofs.Index.Build
import SpecAtlas.Proofs.Workspace.Calls

/-! Rows and files. An index that is only built for one root, written the same way each time, holds
a row for each file at most, and none for a file that is gone. Another spelling of the root brings
in rows of its own. -/

namespace SpecAtlas

open Files

variable {root path : String} {i : Index} {w v : Workspace} {config : IndexConfig}
  {names : List String}

def Workspace.place? (w : Workspace) (path : String) : Option (List String) :=
  w.tree.locate? w.here path

lemma mem_walkRoot_of_mem_sourceFiles {globs excludeGlobs files : List String}
    (h : sourceFiles w.files [root] globs excludeGlobs = .ok files) (hpath : path ∈ files) :
    path ∈ w.tree.walkRoot w.here root := by
  obtain ⟨filter, -, rfl⟩ := sourceFiles_eq_ok h
  simpa [Workspace.files, FileTree.files] using List.mem_of_mem_filter hpath

namespace Index

structure Spelled (root : String) (i : Index) : Prop where
  paths : (i.rows.map (·.path)).Nodup
  below : i.AllRows fun row => root ≠ "" ∧ ∃ names, (∀ name ∈ names, Path.isName name = true) ∧
    row.path = Path.spell root names

namespace Spelled

lemma of_rows_eq_nil (h : i.rows = []) : i.Spelled root where
  paths := by simp [h]
  below := by simp [AllRows, h]

lemma opened (h : i.Spelled root) : i.opened.Spelled root := by
  rw [Index.opened]
  split_ifs
  · exact of_rows_eq_nil rfl
  · exact h

lemma attempt (h : i.Spelled root) (htidy : w.tree.Tidy) (hpaths : config.paths = [root])
    (path : String) : (Index.attempt w.env path config i).1.Spelled root := by
  constructor
  · rcases attempt_cases w.env path config i with ⟨e, -, he⟩ | ⟨files, m, -, hrest⟩
    · rw [he]
      exact h.paths
    have hrefreshed : ((refreshEach w.env i.rows {} files i).1.rows.map (·.path)).Nodup :=
      refreshEach_invariant (R := fun j => (j.rows.map (·.path)).Nodup)
        (fun _ _ _ _ _ _ _ hj => nodup_paths_store hj) h.paths
    rcases hrest with ⟨j, e, hrefresh, he⟩ | ⟨j, totals, hrefresh, he⟩
    · rw [hrefresh] at hrefreshed
      rwa [he]
    · rw [hrefresh] at hrefreshed
      rw [he, rows_saveMeta, rows_dropStale]
      exact hrefreshed.sublist (List.filter_sublist.map _)
  · refine h.below.attempt fun files hfiles path hpath stamp report hstamp _ id => ?_
    rw [hpaths] at hfiles
    have hwalk := mem_walkRoot_of_mem_sourceFiles hfiles hpath
    obtain ⟨hroot, base, names, -, hnames, hspell, -⟩ :=
      FileTree.exists_place_of_mem_walkRoot htidy hwalk hstamp
    exact ⟨hroot, names, hnames, hspell⟩

end Spelled

end Index

namespace Workspace

/-- A build for the root as it is written, in a tidy tree. -/
def BuildsFor (root : String) (w : Workspace) (c : IndexCall) : Prop :=
  ∃ config, c = .build config ∧ config.paths = [root] ∧
    (w.openIndex config.indexPath).1.tree.Tidy

lemma spelled_buildIndex (hsite : w.site? config.indexPath = some names)
    (htidy : (w.openIndex config.indexPath).1.tree.Tidy) (hpaths : config.paths = [root])
    (h : (w.held names).Spelled root) : ((w.buildIndex config).1.held names).Spelled root := by
  rcases held_buildIndex hsite with hheld | hheld | hheld
  · exact hheld ▸ h
  · exact hheld ▸ h.opened
  · exact hheld ▸ h.opened.attempt htidy hpaths config.indexPath

lemma spelled_of_reaches (h : Reaches names (BuildsFor root) w v)
    (hfresh : (w.held names).rows = []) : (v.held names).Spelled root := by
  refine h.invariant (P := Index.Spelled root) (.of_rows_eq_nil hfresh) ?_
  rintro u c ⟨config, rfl, hpaths, htidy⟩ haims hu
  cases hsite : u.site? config.indexPath with
  | none => exact held_call_of_site_none (c := .build config) hsite ▸ hu
  | some site =>
    obtain rfl := haims site hsite
    exact spelled_buildIndex hsite htidy hpaths hu

lemma met_of_mem_rows_attempt {i j : Index} {path : String} {summary : IndexSummary}
    (htidy : w.tree.Tidy) (hpaths : config.paths = [root]) (hi : i.Spelled root)
    (h : Index.attempt w.env path config i = (j, .ok summary)) {row : IndexRow}
    (hrow : row ∈ j.rows) :
    row.path ∈ w.tree.walkRoot w.here root ∧ ∃ s, w.tree.stamp w.here row.path = .ok s := by
  have hj : j.Spelled root := by
    have hattempt := hi.attempt htidy hpaths path
    rwa [h] at hattempt
  obtain ⟨hroot, names, hnames, hspell⟩ := hj.below row hrow
  have hwithin : Path.withinAny row.path config.paths = true := by
    rw [hpaths, hspell]
    simp [Path.withinAny, Path.within_spell hroot hnames]
  obtain ⟨files, old, m, hfiles, -, -, -, rfl⟩ := Index.attempt_eq_ok h
  obtain ⟨file, hfile, hsame, s, hs⟩ := Index.met_of_mem_rows_dropStale hrow hwithin
  rw [hpaths] at hfiles
  have hwalk := mem_walkRoot_of_mem_sourceFiles hfiles hfile
  obtain ⟨-, base, others, -, hothers, rfl, -⟩ :=
    FileTree.exists_place_of_mem_walkRoot htidy hwalk hs
  -- both paths start with the same root, so they are the same text
  rw [hspell] at hsame ⊢
  rw [Path.spell_of_same hroot hnames hothers hsame]
  exact ⟨hwalk, s, hs⟩

/-- After builds for one spelling of a root, no two rows name the same file, and each row names a
file that the last build found. -/
theorem rows_name_different_files (w v : Workspace) (names : List String) (root : String)
    (hfresh : (w.held names).rows = []) (hreaches : Reaches names (BuildsFor root) w v)
    (config : IndexConfig) (hpaths : config.paths = [root])
    (hsite : v.site? config.indexPath = some names)
    (htidy : (v.openIndex config.indexPath).1.tree.Tidy) (summary : IndexSummary)
    (hok : (v.buildIndex config).2 = .ok summary) :
    (∀ row ∈ ((v.buildIndex config).1.held names).rows, ∃ place content time,
      (v.openIndex config.indexPath).1.place? row.path = some place ∧
        (v.openIndex config.indexPath).1.tree.get? place = some (.file content time)) ∧
    (((v.buildIndex config).1.held names).rows.map fun row =>
      (v.openIndex config.indexPath).1.place? row.path).Nodup := by
  have hspelled := spelled_of_reaches hreaches hfresh
  have hpathsNodup := (spelled_buildIndex hsite htidy hpaths hspelled).paths
  have hbuilt := buildIndex_yields hsite
  generalize v.buildIndex config = built at hbuilt hok hpathsNodup ⊢
  obtain ⟨u, x⟩ := built
  cases hok
  have hmet (row : IndexRow) (hrow : row ∈ (u.held names).rows) :=
    met_of_mem_rows_attempt htidy hpaths hspelled.opened hbuilt hrow
  constructor
  · intro row hrow
    obtain ⟨hwalk, s, hs⟩ := hmet row hrow
    obtain ⟨-, base, below, -, -, -, hplace, content, time, hfile⟩ :=
      FileTree.exists_place_of_mem_walkRoot htidy hwalk hs
    exact ⟨base ++ below, content, time, hplace, hfile⟩
  · -- paths of rows are different, so it is enough that no place is met under two paths
    have hinj : ∀ p ∈ (u.held names).rows.map (·.path), ∀ q ∈ (u.held names).rows.map (·.path),
        (v.openIndex config.indexPath).1.place? p = (v.openIndex config.indexPath).1.place? q →
          p = q := by
      intro p hp q hq hsame
      obtain ⟨row, hrow, rfl⟩ := List.mem_map.mp hp
      obtain ⟨other, hother, rfl⟩ := List.mem_map.mp hq
      obtain ⟨hwalk, r, hr⟩ := hmet row hrow
      obtain ⟨hwalk', s, hs⟩ := hmet other hother
      exact FileTree.eq_of_locate?_eq htidy hwalk hwalk' hr hs hsame
    have hplaces := hpathsNodup.map_on hinj
    rwa [List.map_map] at hplaces

def sources : Workspace :=
  ofEntries [("src", .directory
    [("A.kt", .file (.bytes "class A".toByteArray none) 1),
      ("B.kt", .file (.bytes "class B".toByteArray none) 1)])]

def removedLater : Workspace :=
  let built := sources.call (.build (specsOf "src"))
  { built with tree := (built.tree.remove built.here "src/A.kt").1 }

lemma reaches_removedLater : Reaches ["specs.db"] (BuildsFor "src") sources removedLater := by
  have hbuilt : Reaches ["specs.db"] (BuildsFor "src") sources
      (sources.call (.build (specsOf "src"))) :=
    .call .start ⟨specsOf "src", rfl, rfl, by decide +kernel⟩ (by decide +kernel)
  exact .elsewhere hbuilt (by decide +kernel)

theorem rows_name_different_files_removedLater :
    ((removedLater.buildIndex (specsOf "src")).1.held ["specs.db"]).rows.map (·.path)
        = ["src/B.kt"] ∧
      ∀ row ∈ ((removedLater.buildIndex (specsOf "src")).1.held ["specs.db"]).rows,
        ∃ place content time,
          (removedLater.openIndex (specsOf "src").indexPath).1.place? row.path = some place ∧
          (removedLater.openIndex (specsOf "src").indexPath).1.tree.get? place
            = some (.file content time) := by
  obtain ⟨summary, hsummary⟩ : ∃ summary, (removedLater.buildIndex (specsOf "src")).2 =
    .ok summary :=
    exists_ok_of_toBool (by decide +kernel)
  obtain ⟨hplaces, -⟩ := rows_name_different_files sources removedLater ["specs.db"] "src"
    (by decide +kernel) reaches_removedLater (specsOf "src") rfl (by decide +kernel)
    (by decide +kernel) summary hsummary
  exact ⟨by decide +kernel, hplaces⟩

def respelled : Workspace :=
  (sources.call (.build (specsOf "src"))).call (.build (specsOf "./src"))

def respelledThenRemoved : Workspace :=
  { respelled with tree := (respelled.tree.remove respelled.here "src/A.kt").1 }

/-- Two spellings of one root give a file two rows, and one of them outlives the file. -/
theorem respelled_rows :
    sources.files.canonical? "src" = some "/work/src" ∧
      sources.files.canonical? "./src" = some "/work/src" ∧
      (sources.buildIndex (specsOf "src")).2.toBool = true ∧
      ((sources.call (.build (specsOf "src"))).buildIndex (specsOf "./src")).2.toBool = true ∧
      (respelled.held ["specs.db"]).rows.map (fun row => (row.path, respelled.place? row.path)) =
        [("src/A.kt", some ["src", "A.kt"]), ("src/B.kt", some ["src", "B.kt"]),
          ("./src/A.kt", some ["src", "A.kt"]), ("./src/B.kt", some ["src", "B.kt"])] ∧
      (respelledThenRemoved.buildIndex (specsOf "src")).2.toBool = true ∧
      ((respelledThenRemoved.buildIndex (specsOf "src")).1.held ["specs.db"]).rows.map
          (fun row => (row.path, respelledThenRemoved.place? row.path)) =
        [("src/B.kt", some ["src", "B.kt"]), ("./src/A.kt", none),
          ("./src/B.kt", some ["src", "B.kt"])] := by
  decide +kernel

end Workspace

end SpecAtlas
