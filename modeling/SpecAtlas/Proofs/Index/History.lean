import Mathlib.Data.List.Induction
import Mathlib.Data.List.Nodup
import SpecAtlas.Proofs.Scan.Cached

/-! Histories of an index. Whatever was done with an index since it was made, it holds one row for
each path whose last operation was to store a report, and hands that report back for its stamp. -/

namespace SpecAtlas

/-- What can be done with an index, which may also be closed and opened again. What it says about
itself is only saved by this version of the program. -/
inductive IndexOperation where
  | store (path : String) (stamp : Stamp) (report : FileReport)
  | remove (path : String)
  | saveMeta (rootPath : String) (createdAt updatedAt : UInt64)
  | reopen

namespace IndexOperation

def path? : IndexOperation → Option String
  | store path _ _ => some path
  | remove path => some path
  | saveMeta _ _ _ => none
  | reopen => none

def perform (i : Index) : IndexOperation → Index
  | store path stamp report => (i.store path stamp report).1
  | remove path => i.remove path
  | saveMeta rootPath createdAt updatedAt => i.saveMeta { rootPath, createdAt, updatedAt }
  | reopen => i.opened

def lastOn? (ops : List IndexOperation) (path : String) : Option IndexOperation :=
  ops.reverse.find? (·.path? == some path)

variable {ops : List IndexOperation} {op : IndexOperation} {path : String}

lemma lastOn?_append_of_eq (h : op.path? = some path) : lastOn? (ops ++ [op]) path = some op := by
  simp [lastOn?, h]

lemma lastOn?_append_of_ne {other : String} (h : op.path? = some other) (hne : other ≠ path) :
    lastOn? (ops ++ [op]) path = lastOn? ops path := by
  simp [lastOn?, h, hne]

lemma lastOn?_append_of_none (h : op.path? = none) :
    lastOn? (ops ++ [op]) path = lastOn? ops path := by
  simp [lastOn?, h]

end IndexOperation

namespace Index

open IndexOperation

def after (ops : List IndexOperation) : Index := ops.foldl perform {}

lemma after_append (ops : List IndexOperation) (op : IndexOperation) :
    after (ops ++ [op]) = perform (after ops) op := by
  simp [after]

variable {i : Index} {path : String} {stamp : Stamp} {report : FileReport}

lemma le_foldl_max (rows : List IndexRow) (n : Nat) :
    n ≤ rows.foldl (fun n r => max n r.id) n ∧
      ∀ r ∈ rows, r.id ≤ rows.foldl (fun n r => max n r.id) n := by
  induction rows generalizing n with
  | nil => simp
  | cons s rows ih =>
    obtain ⟨hn, hrows⟩ := ih (max n s.id)
    rw [List.foldl_cons]
    refine ⟨Nat.le_trans (Nat.le_max_left ..) hn, List.forall_mem_cons.mpr ⟨?_, hrows⟩⟩
    exact Nat.le_trans (Nat.le_max_right ..) hn

lemma id_lt_nextId {r : IndexRow} (h : r ∈ i.rows) : r.id < i.nextId :=
  Nat.lt_succ_of_le ((le_foldl_max i.rows 0).2 r h)

lemma rows_store_of_not_mem (h : path ∉ i.rows.map (·.path)) :
    (i.store path stamp report).1.rows = i.rows ++ [rowOf i.nextId path stamp report] := by
  rw [store, row?_eq_none_iff.mpr h]

def overwrite (path : String) (stamp : Stamp) (report : FileReport) (row : IndexRow) : IndexRow :=
  if row.path = path then rowOf row.id path stamp report else row

@[simp] lemma id_overwrite (row : IndexRow) : (overwrite path stamp report row).id = row.id := by
  rw [overwrite]
  split_ifs <;> rfl

@[simp] lemma path_overwrite (row : IndexRow) :
    (overwrite path stamp report row).path = row.path := by
  rw [overwrite]
  split_ifs with h
  · exact h.symm
  · rfl

lemma overwrite_of_ne {row : IndexRow} (h : row.path ≠ path) :
    overwrite path stamp report row = row := if_neg h

lemma rows_store_of_mem (hnodup : (i.rows.map (·.path)).Nodup) (h : path ∈ i.rows.map (·.path)) :
    (i.store path stamp report).1.rows = i.rows.map (overwrite path stamp report) := by
  cases hold : i.row? path with
  | none => exact absurd h (row?_eq_none_iff.mp hold)
  | some old =>
    have hmem := List.mem_of_find?_eq_some hold
    have hpath : old.path = path := by simpa using List.find?_some hold
    rw [store, hold]
    refine List.map_congr_left fun row hrow => ?_
    rw [overwrite]
    by_cases he : row.path = path
    · obtain rfl := List.inj_on_of_nodup_map hnodup hrow hmem (he.trans hpath.symm)
      simp [he]
    · simp [he]

lemma nodup_paths_store (h : (i.rows.map (·.path)).Nodup) :
    ((i.store path stamp report).1.rows.map (·.path)).Nodup := by
  by_cases hmem : path ∈ i.rows.map (·.path)
  · rw [rows_store_of_mem h hmem, List.map_map]
    simpa [Function.comp_def] using h
  · rw [rows_store_of_not_mem hmem, List.map_append]
    refine List.nodup_append.mpr ⟨h, List.nodup_singleton _, fun a ha b hb => ?_⟩
    obtain rfl : b = path := List.mem_singleton.mp hb
    exact fun he => hmem (he ▸ ha)

structure Accounts (ops : List IndexOperation) (i : Index) : Prop where
  ids : (i.rows.map (·.id)).Pairwise (· < ·)
  paths : (i.rows.map (·.path)).Nodup
  stored : ∀ row ∈ i.rows, ∃ stamp report,
    lastOn? ops row.path = some (.store row.path stamp report) ∧
      row = rowOf row.id row.path stamp report
  present : ∀ path stamp report, lastOn? ops path = some (.store path stamp report) →
    path ∈ i.rows.map (·.path)
  current : i.isVersioned = true → i.isCurrent = true

namespace Accounts

variable {ops : List IndexOperation}

lemma fresh : Accounts [] {} where
  ids := .nil
  paths := .nil
  stored _ h := nomatch h
  present _ _ _ h := nomatch h
  current h := nomatch h

lemma of_rows_eq (h : Accounts ops i) {op : IndexOperation} (hop : op.path? = none) {j : Index}
    (hrows : j.rows = i.rows) (hcurrent : j.isVersioned = true → j.isCurrent = true) :
    Accounts (ops ++ [op]) j := by
  have hlast (path : String) : lastOn? (ops ++ [op]) path = lastOn? ops path :=
    lastOn?_append_of_none hop
  constructor
  · rw [hrows]
    exact h.ids
  · rw [hrows]
    exact h.paths
  · intro row hrow
    rw [hlast]
    exact h.stored row (hrows ▸ hrow)
  · intro path stamp report hl
    rw [hrows]
    exact h.present path stamp report (hlast path ▸ hl)
  · exact hcurrent

lemma opened (h : Accounts ops i) : i.opened = i := by
  rw [Index.opened, if_neg]
  intro hstale
  simp only [Bool.and_eq_true, Bool.not_eq_true'] at hstale
  simp [h.current hstale.1] at hstale

lemma remove (h : Accounts ops i) (path : String) :
    Accounts (ops ++ [.remove path]) (i.remove path) := by
  have hsub : (i.remove path).rows.Sublist i.rows := List.filter_sublist
  refine ⟨h.ids.sublist (hsub.map _), h.paths.sublist (hsub.map _), ?_, ?_, h.current⟩
  · intro row hrow
    obtain ⟨hmem, hne⟩ := List.mem_filter.mp hrow
    have hne : path ≠ row.path := Ne.symm (by simpa using hne)
    rw [lastOn?_append_of_ne rfl hne]
    exact h.stored row hmem
  · intro p stamp report hl
    by_cases hp : path = p
    · subst hp
      rw [lastOn?_append_of_eq rfl] at hl
      cases hl
    · rw [lastOn?_append_of_ne rfl hp] at hl
      obtain ⟨row, hrow, rfl⟩ := List.mem_map.mp (h.present p stamp report hl)
      exact List.mem_map_of_mem (List.mem_filter.mpr ⟨hrow, by simpa using Ne.symm hp⟩)

lemma stored_store (h : Accounts ops i) (path : String) (stamp : Stamp) (report : FileReport) :
    ∀ row ∈ (i.store path stamp report).1.rows, ∃ s r,
      lastOn? (ops ++ [.store path stamp report]) row.path = some (.store row.path s r) ∧
        row = rowOf row.id row.path s r := by
  intro row hrow
  rcases mem_rows_store hrow with he | ⟨hold, hne⟩
  · have hpath : row.path = path := congrArg IndexRow.path he
    rw [hpath]
    exact ⟨stamp, report, lastOn?_append_of_eq rfl, he⟩
  · rw [lastOn?_append_of_ne rfl hne.symm]
    exact h.stored row hold

lemma present_store (h : Accounts ops i) (path : String) (stamp : Stamp) (report : FileReport)
    (p : String) (s : Stamp) (r : FileReport)
    (hl : lastOn? (ops ++ [.store path stamp report]) p = some (.store p s r)) :
    p ∈ (i.store path stamp report).1.rows.map (·.path) := by
  by_cases hp : path = p
  · subst hp
    obtain ⟨id, hrow⟩ := exists_mem_rows_store i path stamp report
    exact List.mem_map.mpr ⟨_, hrow, rfl⟩
  · rw [lastOn?_append_of_ne rfl hp] at hl
    obtain ⟨row, hrow, rfl⟩ := List.mem_map.mp (h.present p s r hl)
    exact List.mem_map_of_mem (mem_rows_store_of_ne hrow (Ne.symm hp))

lemma store (h : Accounts ops i) (path : String) (stamp : Stamp) (report : FileReport) :
    Accounts (ops ++ [.store path stamp report]) (i.store path stamp report).1 := by
  have hcurrent : (i.store path stamp report).1.isVersioned = true →
      (i.store path stamp report).1.isCurrent = true := by
    rw [Index.store]
    split <;> exact h.current
  have hids : ((i.store path stamp report).1.rows.map (·.id)).Pairwise (· < ·) := by
    by_cases hmem : path ∈ i.rows.map (·.path)
    · rw [rows_store_of_mem h.paths hmem, List.map_map]
      simpa [Function.comp_def] using h.ids
    · rw [rows_store_of_not_mem hmem, List.map_append]
      refine List.pairwise_append.mpr ⟨h.ids, List.pairwise_singleton .., fun a ha b hb => ?_⟩
      obtain ⟨row, hrow, rfl⟩ := List.mem_map.mp ha
      rw [List.mem_singleton.mp hb]
      exact id_lt_nextId hrow
  exact ⟨hids, nodup_paths_store h.paths, h.stored_store path stamp report,
    h.present_store path stamp report, hcurrent⟩

lemma perform (h : Accounts ops i) (op : IndexOperation) :
    Accounts (ops ++ [op]) (op.perform i) := by
  cases op with
  | store path stamp report => exact h.store path stamp report
  | remove path => exact h.remove path
  | saveMeta rootPath createdAt updatedAt => exact h.of_rows_eq rfl rfl fun _ => rfl
  | reopen =>
    change Accounts _ i.opened
    rw [h.opened]
    exact h.of_rows_eq rfl rfl h.current

lemma mem_paths_iff (h : Accounts ops i) :
    path ∈ i.rows.map (·.path) ↔
      ∃ stamp report, lastOn? ops path = some (.store path stamp report) := by
  constructor
  · intro hmem
    obtain ⟨row, hrow, rfl⟩ := List.mem_map.mp hmem
    obtain ⟨stamp, report, hl, _⟩ := h.stored row hrow
    exact ⟨stamp, report, hl⟩
  · rintro ⟨stamp, report, hl⟩
    exact h.present path stamp report hl

lemma cached_of_lastOn? (h : Accounts ops i)
    (hl : lastOn? ops path = some (.store path stamp report)) :
    i.cached path stamp =
      if report.toJson.depth ≤ Json.maxDepth then .ok (some report)
      else .error (.corruptEntry path) := by
  obtain ⟨row, hrow, rfl⟩ := List.mem_map.mp (h.present path stamp report hl)
  obtain ⟨stamp', report', hl', he⟩ := h.stored row hrow
  cases hl.symm.trans hl'
  have hstamp : row.stamp = stamp := congrArg IndexRow.stamp he
  have htext : row.report = report.toJson.render := congrArg IndexRow.report he
  cases hcurrent : i.current? row.path stamp with
  | none => exact absurd hstamp (current?_eq_none_iff.mp hcurrent row hrow rfl)
  | some other =>
    obtain ⟨hother, hpath, -⟩ := current?_eq_some hcurrent
    obtain rfl := List.inj_on_of_nodup_map h.paths hother hrow hpath
    exact cached_of_current? hcurrent htext

lemma cached_of_lastOn?_ne (h : Accounts ops i)
    (hl : ∀ report, lastOn? ops path ≠ some (.store path stamp report)) :
    i.cached path stamp = .ok none := by
  have hcurrent : i.current? path stamp = none := by
    refine current?_eq_none_iff.mpr fun row hrow hpath hstamp => ?_
    obtain ⟨stamp', report, hlast, he⟩ := h.stored row hrow
    have hsame : row.stamp = stamp' := congrArg IndexRow.stamp he
    exact hl report (hpath ▸ hstamp ▸ hsame ▸ hlast)
  simp only [cached, hcurrent]

lemma cached_eq_some_iff (h : Accounts ops i) :
    i.cached path stamp = .ok (some report) ↔
      lastOn? ops path = some (.store path stamp report) ∧
        report.toJson.depth ≤ Json.maxDepth := by
  by_cases hany : ∃ r, lastOn? ops path = some (.store path stamp r)
  · obtain ⟨r, hl⟩ := hany
    rw [h.cached_of_lastOn? hl, hl]
    split_ifs with hd
    · constructor
      · rintro ⟨⟩
        exact ⟨rfl, hd⟩
      · rintro ⟨⟨⟩, _⟩
        rfl
    · constructor
      · rintro ⟨⟩
      · rintro ⟨⟨⟩, hd'⟩
        exact absurd hd' hd
  · have hnone := fun r hr => hany ⟨r, hr⟩
    rw [h.cached_of_lastOn?_ne hnone]
    constructor
    · rintro ⟨⟩
    · rintro ⟨hl, _⟩
      exact absurd hl (hnone report)

end Accounts

lemma accounts_after (ops : List IndexOperation) : Accounts ops (after ops) := by
  induction ops using List.reverseRecOn with
  | nil => exact .fresh
  | append_singleton ops op ih =>
    rw [after_append]
    exact ih.perform op

/-- An index is a finite map from paths to stamps and reports, whatever was done with it: look-ups
give what was stored last, each stored path has one row, and a path that is stored again keeps its
id. -/
theorem refines_map (ops : List IndexOperation) (path : String) (stamp : Stamp) :
    (∀ report, (after ops).cached path stamp = .ok (some report) ↔
      lastOn? ops path = some (.store path stamp report) ∧
        report.toJson.depth ≤ Json.maxDepth) ∧
    ((∀ report, lastOn? ops path ≠ some (.store path stamp report)) →
      (after ops).cached path stamp = .ok none) ∧
    ((after ops).rows.map (·.id)).Pairwise (· < ·) ∧
    ((after ops).rows.map (·.path)).Nodup ∧
    (path ∈ (after ops).rows.map (·.path) ↔
      ∃ s report, lastOn? ops path = some (.store path s report)) ∧
    (∀ row ∈ (after ops).rows, ∃ report,
      lastOn? ops row.path = some (.store row.path row.stamp report) ∧
        row.report = report.toJson.render ∧ row.specCount = report.specs.length ∧
        row.testCount = report.testCount) ∧
    (path ∈ (after ops).rows.map (·.path) → ∀ report,
      (after (ops ++ [.store path stamp report])).rows.map (fun row => (row.id, row.path)) =
          (after ops).rows.map (fun row => (row.id, row.path)) ∧
        (after (ops ++ [.store path stamp report])).rows.filter (·.path ≠ path) =
          (after ops).rows.filter (·.path ≠ path)) := by
  have h := accounts_after ops
  refine ⟨fun _ => h.cached_eq_some_iff, h.cached_of_lastOn?_ne, h.ids, h.paths, h.mem_paths_iff,
    ?_, ?_⟩
  · intro row hrow
    obtain ⟨s, report, hl, he⟩ := h.stored row hrow
    refine ⟨report, ?_, congrArg IndexRow.report he, congrArg IndexRow.specCount he,
      congrArg IndexRow.testCount he⟩
    have hstamp : row.stamp = s := congrArg IndexRow.stamp he
    rw [hl, hstamp]
  · intro hmem report
    have hrows : (after (ops ++ [.store path stamp report])).rows =
        (after ops).rows.map (overwrite path stamp report) := by
      rw [after_append]
      exact rows_store_of_mem h.paths hmem
    rw [hrows]
    refine ⟨by simp [Function.comp_def], ?_⟩
    rw [List.filter_map]
    have hsame : ∀ row ∈ (after ops).rows.filter (·.path ≠ path),
        overwrite path stamp report row = row := fun row hrow =>
      overwrite_of_ne (by simpa using (List.mem_filter.mp hrow).2)
    simpa [Function.comp_def] using List.map_congr_left hsame

def specimenHistory : List IndexOperation :=
  [.store "a.kt" ⟨1, 10⟩ { path := "a.kt" }, .saveMeta "/src" 1 1,
    .store "b.kt" ⟨1, 20⟩ { path := "b.kt" }, .reopen]

theorem refines_map_specimen :
    (after (specimenHistory ++ [.store "a.kt" ⟨2, 11⟩ { path := "A.kt" }])).cached "a.kt" ⟨2, 11⟩ =
        .ok (some { path := "A.kt" }) ∧
      (after (specimenHistory ++ [.store "a.kt" ⟨2, 11⟩ { path := "A.kt" }])).cached "a.kt" ⟨1, 10⟩
        = .ok none ∧
      (after (specimenHistory ++ [.store "a.kt" ⟨2, 11⟩ { path := "A.kt" }])).rows.map
        (fun row => (row.id, row.path)) = [(1, "a.kt"), (2, "b.kt")] := by
  obtain ⟨hsome, -⟩ :=
    refines_map (specimenHistory ++ [.store "a.kt" ⟨2, 11⟩ { path := "A.kt" }]) "a.kt" ⟨2, 11⟩
  obtain ⟨-, hnone, -⟩ :=
    refines_map (specimenHistory ++ [.store "a.kt" ⟨2, 11⟩ { path := "A.kt" }]) "a.kt" ⟨1, 10⟩
  obtain ⟨-, -, -, -, -, -, hagain⟩ := refines_map specimenHistory "a.kt" ⟨2, 11⟩
  refine ⟨(hsome _).mpr ⟨rfl, by decide⟩, hnone fun report h => ?_, ?_⟩
  · rw [lastOn?_append_of_eq rfl] at h
    cases h
  · rw [(hagain (by decide) { path := "A.kt" }).1]
    decide +kernel

end Index

end SpecAtlas
