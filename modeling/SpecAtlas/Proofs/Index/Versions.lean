import SpecAtlas.Proofs.Index.History

/-! Versions of an index. What an index says about itself is only written when a scan or a build is
complete, while rows are written one by one. Once it says which version stored it, opening it leaves
no row of another version; before that, opening it leaves all rows as they are. -/

namespace SpecAtlas

/-- What can be done with an index that programs of several versions use. Another version differs
from this one only in what it says about itself. -/
inductive IndexEvent where
  | operation (op : IndexOperation)
  | stamped (m : IndexMeta)

namespace IndexEvent

def perform (i : Index) : IndexEvent → Index
  | operation op => op.perform i
  | stamped m => i.saveMeta m

def savesMeta : IndexEvent → Bool
  | operation (.saveMeta ..) => true
  | operation _ => false
  | stamped _ => true

end IndexEvent

namespace Index

variable {i : Index} {events : List IndexEvent} {path : String} {stamp : Stamp}

def following (events : List IndexEvent) : Index := events.foldl IndexEvent.perform {}

lemma following_append (events : List IndexEvent) (event : IndexEvent) :
    following (events ++ [event]) = event.perform (following events) := by
  simp [following]

@[simp] lemma entry?_putEntry_self (i : Index) (key value : String) :
    entry? (i.putEntry key value) key = some value := by
  have hnone : (without i.entries key).find? (·.1 == key) = none :=
    List.find?_eq_none.mpr fun e he => by simpa using (List.mem_filter.mp he).2
  simp [ entry?, putEntry, List.find?_append, hnone]

lemma entry?_putEntry_of_ne {key other : String} (value : String) (h : other ≠ key) :
    entry? (i.putEntry other value) key = i.entry? key := by
  have hkept : (without i.entries other).find? (·.1 == key) = i.entries.find? (·.1 == key) := by
    rw [without, List.find?_filter]
    congr 1
    funext e
    by_cases he : e.1 = key
    · simp [he, Ne.symm h]
    · simp [he]
  simp [ entry?, putEntry, List.find?_append, hkept, h]

@[simp] lemma isCurrent_opened_of_isVersioned (h : i.isVersioned = true) :
    i.opened.isCurrent = true := by
  rw [opened]
  cases hc : i.isCurrent with
  | true => simp [hc]
  | false =>
    simp only [h, Bool.not_false, Bool.and_self, if_true, isCurrent, entry?_putEntry_self,
      Bool.and_eq_true]
    rw [entry?_putEntry_of_ne _ (by decide), entry?_putEntry_self]
    simp

lemma opened_of_not_isVersioned (h : i.isVersioned = false) : i.opened = i := by
  simp [opened, h]

lemma rows_opened_of_not_isCurrent (h : i.isVersioned = true) (hc : i.isCurrent = false) :
    i.opened.rows = [] := by
  simp [opened, h, hc, putEntry]

lemma isVersioned_of_isCurrent (h : i.isCurrent = true) : i.isVersioned = true := by
  simp only [isCurrent, Bool.and_eq_true, beq_iff_eq] at h
  simp [isVersioned, h.1]

lemma isVersioned_opened (h : i.isVersioned = true) : i.opened.isVersioned = true :=
  isVersioned_of_isCurrent (isCurrent_opened_of_isVersioned h)

lemma isVersioned_congr {j : Index} (h : j.entries = i.entries) :
    j.isVersioned = i.isVersioned := by
  simp only [isVersioned, entry?, h]

lemma entries_store (path : String) (stamp : Stamp) (report : FileReport) :
    (i.store path stamp report).1.entries = i.entries := by
  rw [store]
  split <;> rfl

lemma isVersioned_perform (event : IndexEvent) :
    (event.perform i).isVersioned = (i.isVersioned || event.savesMeta) := by
  cases event with
  | stamped m => exact (Bool.or_true _).symm
  | operation op =>
    cases op with
    | store path stamp report =>
      exact (isVersioned_congr (entries_store path stamp report)).trans (Bool.or_false _).symm
    | remove path => exact (Bool.or_false _).symm
    | saveMeta rootPath createdAt updatedAt => exact (Bool.or_true _).symm
    | reopen =>
      refine Eq.trans ?_ (Bool.or_false _).symm
      change i.opened.isVersioned = i.isVersioned
      cases h : i.isVersioned with
      | true => exact isVersioned_opened h
      | false => rw [opened_of_not_isVersioned h, h]

lemma isVersioned_following (events : List IndexEvent) :
    (following events).isVersioned = events.any IndexEvent.savesMeta := by
  induction events using List.reverseRecOn with
  | nil => rfl
  | append_singleton events event ih =>
    rw [following_append, isVersioned_perform, ih, List.any_append, List.any_cons, List.any_nil,
      Bool.or_false]

lemma exists_loadMeta_opened (i : Index) (now : UInt64) : ∃ m, i.opened.loadMeta now = .ok m := by
  have hschema : (i.opened.entry? "schema_version").getD schemaVersion = schemaVersion := by
    cases hv : i.isVersioned with
    | true =>
      have hc := isCurrent_opened_of_isVersioned hv
      simp only [isCurrent, Bool.and_eq_true, beq_iff_eq] at hc
      rw [hc.1, Option.getD_some]
    | false =>
      rw [opened_of_not_isVersioned hv]
      simp only [isVersioned, Bool.or_eq_false_iff, Option.isSome_eq_false_iff,
        Option.isNone_iff_eq_none] at hv
      rw [hv.1, Option.getD_none]
  rw [loadMeta, hschema]
  split_ifs
  · exact ⟨_, rfl⟩
  · exact ⟨_, rfl⟩

/-- What opening leaves behind. The rows are those of this version exactly if some metadata was
saved before, or if there are none; without metadata the rows stay, whoever stored them. -/
theorem opened_following (events : List IndexEvent) :
    ((following events).opened.rows = [] ∨ (following events).opened.isCurrent = true ↔
      events.any IndexEvent.savesMeta = true ∨ (following events).rows = []) ∧
    (events.any IndexEvent.savesMeta = true → (following events).isCurrent = false →
      ∀ path stamp, (following events).opened.cached path stamp = .ok none) ∧
    (events.any IndexEvent.savesMeta = false → (following events).opened = following events) := by
  rw [← isVersioned_following]
  generalize following events = i
  refine ⟨?_, fun hv hc path stamp => ?_, opened_of_not_isVersioned⟩
  · cases hv : i.isVersioned with
    | true => simp [isCurrent_opened_of_isVersioned hv]
    | false =>
      have hc : i.isCurrent = false := by
        by_contra hc
        simp [isVersioned_of_isCurrent (Bool.of_not_eq_false hc)] at hv
      simp [opened_of_not_isVersioned hv, hc]
  · simp [cached, current?, rows_opened_of_not_isCurrent hv hc]

/-- A program that stops before it says which version it is leaves its rows to the next one. -/
theorem unrecorded_row_survives :
    let i := (following
      [.operation .reopen, .operation (.store "A.kt" ⟨1, 7⟩ { path := "A.kt" })]).opened
    i.rows ≠ [] ∧ i.isCurrent = false ∧ i.cached "A.kt" ⟨1, 7⟩ = .ok (some { path := "A.kt" }) := by
  refine ⟨by decide +kernel, by decide +kernel, ?_⟩
  let stored : IndexOperation := .store "A.kt" ⟨1, 7⟩ { path := "A.kt" }
  have hlast : IndexOperation.lastOn? [.reopen, stored] "A.kt" = some stored := rfl
  have hcached := (accounts_after [.reopen, stored]).cached_of_lastOn? hlast
  rw [if_pos (by decide)] at hcached
  exact hcached

end Index

end SpecAtlas
