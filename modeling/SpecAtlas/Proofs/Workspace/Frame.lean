import SpecAtlas.Proofs.Files.Frame
import SpecAtlas.Proofs.Workspace.Steps

/-! What the use of an index leaves as it was. New directories apart, an index is opened, changed
and closed by changes in its own places: those of its file and of the companions of this. -/

namespace SpecAtlas

open Files

namespace Workspace

variable {w : Workspace} {index file : String} {names : List String} {site : Option (List String)}

def placesOf (site : Option (List String)) : List (List String) :=
  match site with
  | none => []
  | some names =>
    [names, Companion.log.beside names, Companion.digest.beside names,
      Companion.journal.beside names]

def places (w : Workspace) (index : String) : List (List String) := placesOf (w.site? index)

lemma beside_mem_placesOf (k : Companion) (names : List String) :
    k.beside names ∈ placesOf (some names) := by
  cases k <;> simp [placesOf]

lemma indexSpot?_eq_some (h : w.indexSpot? file = some names) :
    names ≠ [] ∧ w.tree.isDirectory names = false := by
  rw [indexSpot?] at h
  simp only [Option.bind_eq_bind, Option.bind_eq_some_iff] at h
  obtain ⟨_, -, spot, -, _, -, _, hguard, hspot⟩ := h
  cases hspot
  have hspot := (Option.guard_eq_some' _).mp hguard
  simp only [Bool.and_eq_true, Bool.not_eq_true', List.isEmpty_eq_false_iff] at hspot
  exact ⟨hspot.1.1, hspot.2⟩

lemma site?_eq_some (h : w.site? index = some names) :
    names ≠ [] ∧ (w.tree.makeParent w.here index).1.isDirectory names = false := by
  rw [site?] at h
  generalize w.tree.makeParent w.here index = made at h ⊢
  obtain ⟨tree, e | _⟩ := made
  · cases h
  · obtain ⟨location, -, h⟩ := Option.bind_eq_some_iff.mp h
    obtain ⟨file, -, h⟩ := Option.bind_eq_some_iff.mp h
    exact indexSpot?_eq_some h

lemma nil_notMem_places (w : Workspace) (index : String) : [] ∉ w.places index := by
  rw [places]
  cases h : w.site? index with
  | none => exact List.not_mem_nil
  | some names => simp [placesOf, Companion.beside, (site?_eq_some h).1.symm]

def Confined (w : Workspace) (index : String) (v : Workspace) : Prop :=
  (w.tree.makeParent w.here index).1.Differ (w.places index) v.tree

lemma confined_stable (w : Workspace) (index : String) :
    Stable (fun _ => True) (w.site? index) (w.Confined index) := by
  have hput {v : Workspace} {names : List String} {content : Content} (h : w.Confined index v)
      (hsite : w.site? index = some names) : w.Confined index (v.put names content) := by
    refine h.trans (.put_file ?_ ((h.isDirectory names).trans (site?_eq_some hsite).2))
    rw [places, hsite]
    exact List.mem_cons_self
  have hbeside {k : Companion} {names : List String} (hsite : w.site? index = some names) :
      k.beside names ∈ w.places index := by
    rw [places, hsite]
    exact beside_mem_placesOf k names
  refine ⟨⟨?_, ?_⟩, fun h hsite _ => hput h hsite, fun h hsite _ => hput h hsite, fun _ _ h => h,
    fun h _ => h, fun _ _ _ _ _ => trivial, fun _ _ _ _ _ => trivial⟩
  · intro v names k h hsite hnone
    refine h.trans (.put_file (hbeside hsite) ?_)
    rw [FileTree.isDirectory, hnone]
  · intro v names k h hsite
    exact h.trans (.unlink (hbeside hsite))

lemma openIndex_confined (w : Workspace) (index : String) :
    Attempt.Keeps (w.Confined index) (Stable.Opened (fun _ => True) (w.site? index))
      (w.openIndex index) :=
  (w.confined_stable index).openIndex (.refl _)

lemma Confined.conclude {α : Type} {v : Workspace} {o : OpenIndex} (h : w.Confined index v)
    (ho : Stable.Opened (fun _ => True) (w.site? index) o) (r : Index × Except Failure α) :
    w.Confined index (v.conclude o r).1 :=
  (w.confined_stable index).conclude h ho fun _ _ => trivial

lemma Confined.without_extends {v : Workspace} (h : w.Confined index v) :
    (w.tree.without (w.places index)).Extends v.tree := by
  have hplaces := w.nil_notMem_places index
  have hmade := (FileTree.Extends.makeParent w.tree w.here index).without hplaces
  exact hmade.trans (FileTree.Differ.without_extends h hplaces)

lemma scan_without_extends {config : ScanConfig} {index : IndexConfig}
    (hindex : config.index = some index) :
    (w.tree.without (w.places index.indexPath)).Extends (w.scan config).1.tree := by
  rw [Workspace.scan, hindex]
  dsimp only
  split
  · exact w.tree.without_extends (w.nil_notMem_places index.indexPath)
  · have hopened := w.openIndex_confined index.indexPath
    generalize w.openIndex index.indexPath = opened at hopened ⊢
    obtain ⟨v, e | o⟩ := opened
    · exact hopened.1.without_extends
    · exact (hopened.1.conclude (hopened.2 o rfl) _).without_extends

lemma buildIndex_without_extends (w : Workspace) (config : IndexConfig) :
    ((w.openIndex config.indexPath).1.tree.without (w.places config.indexPath)).Extends
      (w.buildIndex config).1.tree := by
  have hplaces := w.nil_notMem_places config.indexPath
  have hopened := w.openIndex_confined config.indexPath
  rw [Workspace.buildIndex]
  generalize w.openIndex config.indexPath = opened at hopened ⊢
  obtain ⟨v, e | o⟩ := opened
  · exact v.tree.without_extends hplaces
  · have hdone := hopened.1.conclude (hopened.2 o rfl)
      (Index.attempt v.env o.path config o.contents)
    exact (hopened.1.symm.trans hdone).without_extends hplaces

end Workspace

end SpecAtlas
