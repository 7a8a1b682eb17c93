import SpecAtlas.Proofs.Workspace.Steps

/-! The rows of a workspace. Opening, changing and closing an index moves rows between its file, its
users and memory, but brings in no rows beyond those of the index that is written. -/

namespace SpecAtlas

open Files

variable {f : Frontend} {dir : List String} {P : IndexRow → Prop} {w : Workspace}

namespace Workspace

/-- The workspace has the parser and the directory, and every row of every index, in the tree or
shared in memory, has the property. -/
structure Holds (f : Frontend) (dir : List String) (P : IndexRow → Prop) (w : Workspace) :
    Prop where
  frontend : w.frontend = f
  here : w.here = dir
  tree : w.tree.AllRows P
  shared : ∀ s ∈ w.shared, s.contents.AllRows P

namespace Holds

lemma mono {Q : IndexRow → Prop} (h : w.Holds f dir P) (himp : ∀ row, P row → Q row) :
    w.Holds f dir Q where
  frontend := h.frontend
  here := h.here
  tree := by
    intro names content time hget
    have hrows := h.tree names content time hget
    cases content with
    | bytes b former => trivial
    | database d => exact fun row hrow => himp row (hrows row hrow)
  shared s hs row hrow := himp row (h.shared s hs row hrow)

lemma stable (site : Option (List String)) : Stable P site (Holds f dir P) where
  create h _ _ := { h with tree := h.tree.put_bytes }
  createBeside _ h _ _ := { h with tree := h.tree.put_bytes }
  dropBeside _ h _ := { h with tree := h.tree.unlink }
  write h _ hd := { h with tree := h.tree.put_database hd }
  count _ _ h := { h with }
  share h hshared := { h with shared := hshared }
  database h _ hd := by
    rw [Workspace.database?] at hd
    split at hd
    · rename_i time hget
      cases hd
      exact h.tree _ _ time hget
    · cases hd
  shared h := h.shared

lemma openIndex (h : w.Holds f dir P) (path : String) :
    Attempt.Keeps (Holds f dir P) (Stable.Opened P (w.site? path)) (w.openIndex path) :=
  (stable _).openIndex { h with tree := h.tree.makeParent }

lemma scan (h : w.Holds f dir P) {config : ScanConfig}
    (hgrant : ∀ index files, config.index = some index →
      sourceFiles w.files config.paths config.globs config.excludeGlobs = .ok files →
      (w.openIndex index.indexPath).1.env.Grants P files) : (w.scan config).1.Holds f dir P := by
  rw [Workspace.scan]
  split
  · exact h
  · rename_i index hindex
    split
    · exact h
    · rename_i files hfiles
      have hopened := h.openIndex index.indexPath
      have hgranted := hgrant index files hindex hfiles
      generalize w.openIndex index.indexPath = opened at hopened hgranted ⊢
      obtain ⟨v, e | o⟩ := opened
      · exact hopened.1
      · have ho := hopened.2 o rfl
        exact (stable _).conclude hopened.1 ho (ho.2.scanFiles hgranted)

lemma buildIndex (h : w.Holds f dir P) {config : IndexConfig}
    (hgrant : ∀ files,
      sourceFiles (w.openIndex config.indexPath).1.files config.paths config.globs
        config.excludeGlobs = .ok files →
      (w.openIndex config.indexPath).1.env.Grants P files) :
    (w.buildIndex config).1.Holds f dir P := by
  have hopened := h.openIndex config.indexPath
  rw [Workspace.buildIndex]
  generalize w.openIndex config.indexPath = opened at hopened hgrant ⊢
  obtain ⟨v, e | o⟩ := opened
  · exact hopened.1
  · have ho := hopened.2 o rfl
    exact (stable _).conclude hopened.1 ho (ho.2.attempt hgrant)

end Holds

end Workspace

end SpecAtlas
