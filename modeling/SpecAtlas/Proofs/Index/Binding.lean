import Mathlib.Data.Option.Basic
import SpecAtlas.Proofs.Index.Versions

/-! What an index says about itself. Scans and builds save it again, but for the time of the change
they save what they have read, so an index keeps the time of its creation, and its root from the
first time on that it has one. -/

namespace SpecAtlas

lemma Text.unsigned?_toString {bound n : Nat} (h : n < bound) :
    unsigned? bound (toString n) = some n := by
  have hdigits : (toString n).toList = digits n := by simp [digits]
  have hne : digits n ≠ [] := Nat.toDigits_ne_nil
  have hnat : nat? (digits n) = some n := by
    rw [nat?, if_pos, ofDigits_digits]
    simpa [hne] using fun c => isDigit_of_mem_digits
  rw [unsigned?, hdigits]
  split
  · rename_i rest hplus
    have hsign : '+' ∈ digits n := by simp [hplus]
    cases isDigit_of_mem_digits hsign
  · simp [hnat, h]

variable {env : Env} {hide : Hiding} {path : String} {files : List String} {i j k : Index}

lemma entries_scanFile : (scanFile env hide path i).1.entries = i.entries := by
  rcases fst_scanFile_cases env hide path i with he | ⟨stamp, report, -, -, he⟩
  · rw [he]
  · rw [he, Index.entries_store]

lemma entries_scanEach : (scanEach env hide files i).1.entries = i.entries :=
  scanEach_invariant (R := fun j => j.entries = i.entries)
    (fun _ _ _ hj => entries_scanFile.trans hj) rfl

namespace Index

lemma entries_refreshEach {before : List IndexRow} {t : BuildTotals} :
    (refreshEach env before t files i).1.entries = i.entries := by
  refine refreshEach_invariant (R := fun j => j.entries = i.entries) ?_ rfl
  intro j path stamp report _ _ _ hj
  rw [entries_store, hj]

lemma loadMeta_congr (h : j.entries = i.entries) (now : UInt64) :
    j.loadMeta now = i.loadMeta now := by
  obtain ⟨entries, rows⟩ := i
  obtain ⟨entries', rows'⟩ := j
  cases h
  rfl

def createdAt? (i : Index) : Option UInt64 :=
  if i.entries.isEmpty then none
  else some ((((i.entry? "created_at").bind (Text.unsigned? UInt64.size)).map UInt64.ofNat).getD 0)

def root (i : Index) : String := (i.entry? "root_path").getD ""

lemma of_loadMeta_eq_ok {now : UInt64} {m : IndexMeta} (h : i.loadMeta now = .ok m) :
    m.createdAt = i.createdAt?.getD now ∧ m.rootPath = i.root := by
  rw [loadMeta] at h
  split_ifs at h with hempty
  · cases h
    simp [createdAt?, root, entry?, List.isEmpty_iff.mp hempty]
  · dsimp only at h
    split_ifs at h
    cases h
    exact ⟨by rw [createdAt?, if_neg hempty]; rfl, rfl⟩

lemma createdAt?_saveMeta (i : Index) (m : IndexMeta) :
    (i.saveMeta m).createdAt? = some m.createdAt := by
  have hentry : entry? (i.saveMeta m) "created_at" = some (toString m.createdAt.toNat) := rfl
  rw [createdAt?, if_neg (by simp [saveMeta]), hentry, Option.bind_some,
    Text.unsigned?_toString m.createdAt.toNat_lt]
  simp

lemma root_saveMeta (i : Index) (m : IndexMeta) : (i.saveMeta m).root = m.rootPath := rfl

lemma createdAt?_congr (h : j.entries = i.entries) : j.createdAt? = i.createdAt? := by
  rw [createdAt?, createdAt?, entry?, entry?, h]

lemma root_congr (h : j.entries = i.entries) : j.root = i.root := by
  rw [root, root, entry?, entry?, h]

lemma entry?_opened {key : String} (hschema : key ≠ "schema_version")
    (htool : key ≠ "tool_version") :
    i.opened.entry? key = i.entry? key := by
  rw [opened]
  split_ifs
  · rw [entry?_putEntry_of_ne _ htool.symm, entry?_putEntry_of_ne _ hschema.symm]
    rfl
  · rfl

lemma entries_opened_isEmpty (i : Index) : i.opened.entries.isEmpty = i.entries.isEmpty := by
  rw [opened]
  split_ifs with h
  · have hne : i.entries ≠ [] := by
      rintro hnil
      simp [isVersioned, entry?, hnil] at h
    rw [List.isEmpty_eq_false_iff.mpr hne]
    simp [putEntry]
  · rfl

lemma createdAt?_opened (i : Index) : i.opened.createdAt? = i.createdAt? := by
  rw [createdAt?, createdAt?, entries_opened_isEmpty, entry?_opened (by decide) (by decide)]

lemma root_opened (i : Index) : i.opened.root = i.root := by
  rw [root, root, entry?_opened (by decide) (by decide)]

/-- The second index was created when the first one was, and has its root, if that has one. -/
structure Carries (i j : Index) : Prop where
  createdAt : ∀ moment, i.createdAt? = some moment → j.createdAt? = some moment
  root : i.root ≠ "" → j.root = i.root

namespace Carries

lemma refl (i : Index) : i.Carries i := ⟨fun _ h => h, fun _ => rfl⟩

lemma trans (h : i.Carries j) (h' : j.Carries k) : i.Carries k := by
  refine ⟨fun moment hm => h'.createdAt moment (h.createdAt moment hm), fun hroot => ?_⟩
  have hj := h.root hroot
  exact (h'.root (hj ▸ hroot)).trans hj

lemma of_entries (h : j.entries = i.entries) : i.Carries j :=
  ⟨fun _ hm => (createdAt?_congr h).trans hm, fun _ => root_congr h⟩

lemma opened (i : Index) : i.Carries i.opened :=
  ⟨fun _ hm => i.createdAt?_opened.trans hm, fun _ => i.root_opened⟩

lemma saveMeta {now : UInt64} {m m' : IndexMeta} (hm : i.loadMeta now = .ok m)
    (hcreated : m'.createdAt = m.createdAt) (hroot : m.rootPath ≠ "" → m'.rootPath = m.rootPath) :
    i.Carries (j.saveMeta m') := by
  obtain ⟨hmade, hbound⟩ := of_loadMeta_eq_ok hm
  refine ⟨fun moment hmoment => ?_, fun hne => ?_⟩
  · rw [createdAt?_saveMeta, hcreated, hmade, hmoment, Option.getD_some]
  · rw [← hbound] at hne ⊢
    rw [root_saveMeta]
    exact hroot hne

lemma scanFiles (env : Env) (hide : Hiding) (files : List String) (i : Index) :
    i.Carries (SpecAtlas.scanFiles env hide files i).1 := by
  have hentries : (scanEach env hide files i).1.entries = i.entries := entries_scanEach
  rw [SpecAtlas.scanFiles]
  split
  · rename_i heq
    rw [heq] at hentries
    exact of_entries hentries
  · rename_i j scanned heq
    rw [heq] at hentries
    split
    · exact of_entries hentries
    · rename_i m hm
      rw [loadMeta_congr hentries] at hm
      exact saveMeta hm rfl fun _ => rfl

lemma bind {fs : Files} {dir : String} {m m' : IndexMeta} (h : Index.bind fs dir m = .ok m') :
    m'.createdAt = m.createdAt ∧ (m.rootPath ≠ "" → m'.rootPath = m.rootPath) := by
  rw [Index.bind] at h
  split_ifs at h with hempty
  · cases h
    exact ⟨rfl, fun hne => absurd (String.isEmpty_iff.mp hempty) hne⟩
  · split at h
    · cases h
      exact ⟨rfl, fun _ => rfl⟩
    · split_ifs at h
      cases h
      exact ⟨rfl, fun _ => rfl⟩

lemma attempt (env : Env) (path : String) (config : IndexConfig) (i : Index) :
    i.Carries (Index.attempt env path config i).1 := by
  rcases attempt_cases env path config i with
    ⟨e, -, he⟩ | ⟨files, m, hplan, ⟨j, e, hrefresh, he⟩ | ⟨j, totals, hrefresh, he⟩⟩
  · rw [he]
    exact refl i
  · rw [he]
    refine of_entries ?_
    rw [← entries_refreshEach (i := i), hrefresh]
  · obtain ⟨-, old, hold, hm⟩ := plan_eq_ok hplan
    obtain ⟨hcreated, hroot⟩ := bind hm
    rw [he]
    exact saveMeta hold hcreated hroot

lemma loadMeta (h : i.Carries j) (hi : i.entries ≠ []) (now later : UInt64) :
    ∃ m m', i.opened.loadMeta now = .ok m ∧ j.opened.loadMeta later = .ok m' ∧
      m'.createdAt = m.createdAt ∧ (m.rootPath ≠ "" → m'.rootPath = m.rootPath) := by
  obtain ⟨m, hm⟩ := exists_loadMeta_opened i now
  obtain ⟨m', hm'⟩ := exists_loadMeta_opened j later
  obtain ⟨hmade, hbound⟩ := of_loadMeta_eq_ok hm
  obtain ⟨hmade', hbound'⟩ := of_loadMeta_eq_ok hm'
  obtain ⟨moment, hmoment⟩ : ∃ moment, i.createdAt? = some moment := by simp [createdAt?, hi]
  rw [createdAt?_opened] at hmade hmade'
  rw [root_opened] at hbound hbound'
  refine ⟨m, m', hm, hm', ?_, fun hne => ?_⟩
  · rw [hmade, hmade', hmoment, h.createdAt moment hmoment]
    rfl
  · rw [hbound] at hne ⊢
    rw [hbound']
    exact h.root hne

end Carries

lemma bind_of_not_same {fs : Files} {dir stored requested : String} {m : IndexMeta}
    (hne : m.rootPath ≠ "") (hstored : fs.canonical? m.rootPath = some stored)
    (hrequested : fs.canonical? dir = some requested)
    (hother : Path.same stored requested = false) :
    Index.bind fs dir m = .error (.rootMismatch stored requested) := by
  have hbound : m.rootPath.isEmpty = false := by simpa using hne
  simp [Index.bind, hbound, hstored, hrequested, hother]

lemma exists_error_of_bind (env : Env) (path : String) {config : IndexConfig} {m : IndexMeta}
    {e : Failure} (hm : i.loadMeta env.now = .ok m)
    (h : Index.bind env.files (config.paths.headD "") m = .error e) :
    ∃ e, attempt env path config i = (i, .error e) := by
  rcases attempt_cases env path config i with ⟨f, -, hf⟩ | ⟨files, m', hplan, -⟩
  · exact ⟨f, hf⟩
  · obtain ⟨-, old, hold, hbind⟩ := plan_eq_ok hplan
    cases hold.symm.trans hm
    cases hbind.symm.trans h

end Index

end SpecAtlas
