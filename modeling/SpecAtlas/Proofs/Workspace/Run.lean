import Mathlib.Data.List.Induction
import SpecAtlas.Proofs.Workspace.Frame
import SpecAtlas.Proofs.Workspace.Rows

/-! Runs of a workspace: files are written and removed, indexes are built and scans are made, one
after the other. A step that fails is a step of the run like any other. -/

namespace SpecAtlas

open Files

inductive Action where
  | write (path : String) (bytes : ByteArray) (mtime : Int)
  | remove (path : String)
  | index (config : IndexConfig)
  | scan (config : ScanConfig)
  | wait (now : UInt64)

variable {f : Frontend} {dir : List String} {P : IndexRow → Prop} {w v : Workspace} {a : Action}
  {actions : List Action}

namespace Workspace

def after (w : Workspace) : Action → Workspace
  | .write path bytes mtime => { w with tree := (w.tree.writeFile w.here path bytes mtime).1 }
  | .remove path => { w with tree := (w.tree.remove w.here path).1 }
  | .index config => (w.buildIndex config).1
  | .scan config => (w.scan config).1
  | .wait now => { w with now }

def run (w : Workspace) (actions : List Action) : Workspace := actions.foldl after w

def states (w : Workspace) : List Action → List Workspace
  | [] => [w]
  | a :: rest => w :: (w.after a).states rest

structure Reading where
  found : Workspace
  index : String
  files : List String

/-- The files whose reports an action stores in an index. A scan lists them before it opens the
index. -/
def reading? (w : Workspace) : Action → Option Reading
  | .index config =>
    let opened := (w.openIndex config.indexPath).1
    match sourceFiles opened.files config.paths config.globs config.excludeGlobs with
    | .ok files => some { found := opened, index := config.indexPath, files }
    | .error _ => none
  | .scan config =>
    match config.index, sourceFiles w.files config.paths config.globs config.excludeGlobs with
    | some index, .ok files => some { found := w, index := index.indexPath, files }
    | _, _ => none
  | .write _ _ _ | .remove _ | .wait _ => none

lemma run_append (w : Workspace) (actions : List Action) (a : Action) :
    w.run (actions ++ [a]) = (w.run actions).after a := by
  rw [run, List.foldl_append]
  rfl

lemma states_append (w : Workspace) (actions : List Action) (a : Action) :
    w.states (actions ++ [a]) = w.states actions ++ [w.run (actions ++ [a])] := by
  induction actions generalizing w with
  | nil => rfl
  | cons b rest ih =>
    rw [List.cons_append, states, states, ih]
    rfl

lemma run_mem_states (w : Workspace) (actions : List Action) :
    w.run actions ∈ w.states actions := by
  induction actions generalizing w with
  | nil => exact List.mem_singleton_self w
  | cons a rest ih => exact List.mem_cons_of_mem w (ih (w.after a))

lemma states_subset_append (hv : v ∈ w.states actions) (a : Action) :
    v ∈ w.states (actions ++ [a]) := by
  rw [states_append]
  exact List.mem_append_left _ hv

lemma Holds.after (h : w.Holds f dir P)
    (hgrant : ∀ r, w.reading? a = some r → (w.openIndex r.index).1.env.Grants P r.files) :
    (w.after a).Holds f dir P := by
  cases a with
  | write path bytes mtime => exact { h with tree := h.tree.writeFile bytes mtime }
  | remove path => exact { h with tree := h.tree.remove }
  | index config =>
    refine h.buildIndex fun files hfiles => ?_
    exact hgrant ⟨_, config.indexPath, files⟩ (by rw [reading?, hfiles])
  | scan config =>
    refine h.scan fun index files hindex hfiles => ?_
    exact hgrant ⟨_, index.indexPath, files⟩ (by rw [reading?, hindex, hfiles])
  | wait now => exact { h with }

lemma holds_true (w : Workspace) : w.Holds w.frontend w.here fun _ => True := by
  refine ⟨rfl, rfl, fun names content time hget => ?_, fun s hs row hrow => trivial⟩
  cases content with
  | bytes b former => trivial
  | database d => exact fun row hrow => trivial

lemma openIndex_holds_true (w : Workspace) (index : String) :
    (w.openIndex index).1.Holds w.frontend w.here fun _ => True :=
  (w.holds_true.openIndex index).1

lemma after_holds_true (w : Workspace) (a : Action) :
    (w.after a).Holds w.frontend w.here fun _ => True := by
  apply w.holds_true.after
  intro r _ path _ stamp report _ _ id
  trivial

lemma frontend_of_mem_states (hv : v ∈ w.states actions) : v.frontend = w.frontend := by
  induction actions generalizing w with
  | nil => rw [List.mem_singleton.mp hv]
  | cons a rest ih =>
    rcases List.mem_cons.mp hv with rfl | hrest
    · rfl
    · rw [ih hrest, (w.after_holds_true a).frontend]

structure Shares (path : String) (w v : Workspace) : Prop where
  frontend : v.frontend = w.frontend
  stamp : v.files.stamp path = w.files.stamp path
  read : v.files.read path = w.files.read path

namespace Shares

variable {path : String} {u : Workspace}

lemma refl (path : String) (w : Workspace) : Shares path w w := ⟨rfl, rfl, rfl⟩

lemma symm (h : Shares path w v) : Shares path v w :=
  ⟨h.frontend.symm, h.stamp.symm, h.read.symm⟩

lemma trans (h : Shares path w v) (h' : Shares path v u) : Shares path w u :=
  ⟨h'.frontend.trans h.frontend, h'.stamp.trans h.stamp, h'.read.trans h.read⟩

lemma report? (h : Shares path w v) (hide : Hiding) :
    v.env.report? hide path = w.env.report? hide path := by
  have hfrontend : v.env.frontend = w.env.frontend := h.frontend
  have hread : v.env.files.read path = w.env.files.read path := h.read
  rw [Env.report?, Env.report?, hfrontend, hread]

lemma of_extends {Q : IndexRow → Prop} (hw : w.Holds f dir P) (hv : v.Holds f dir Q)
    {places : List (List String)} (hplaces : [] ∉ places) (h : w.tree.Bypasses w.here path places)
    (hext : (w.tree.without places).Extends v.tree) : Shares path w v := by
  obtain ⟨hstamp, hread⟩ := h.same hplaces hext
  have hfiles : v.files = v.tree.files w.here := by
    rw [Workspace.files, hv.here, hw.here]
  refine ⟨hv.frontend.trans hw.frontend.symm, ?_, ?_⟩
  · rw [hfiles]
    exact hstamp
  · rw [hfiles]
    exact hread

end Shares

def Bypasses (w : Workspace) (a : Action) : Prop :=
  ∀ r ∈ w.reading? a, ∀ path ∈ r.files,
    r.found.tree.Bypasses r.found.here path (w.places r.index)

instance (w : Workspace) (a : Action) : Decidable (w.Bypasses a) :=
  inferInstanceAs (Decidable (∀ r ∈ w.reading? a, ∀ path ∈ r.files,
    r.found.tree.Bypasses r.found.here path (w.places r.index)))

lemma Bypasses.shares (h : w.Bypasses a) {r : Reading} (hr : w.reading? a = some r)
    {path : String} (hpath : path ∈ r.files) :
    Shares path r.found (w.openIndex r.index).1 ∧ Shares path r.found (w.after a) := by
  have hbypass := h r hr path hpath
  have hplaces := w.nil_notMem_places r.index
  have hopened := w.openIndex_holds_true r.index
  have hafter := w.after_holds_true a
  cases a with
  | write path bytes mtime => cases hr
  | remove path => cases hr
  | wait now => cases hr
  | index config =>
    rw [reading?] at hr
    split at hr
    · cases hr
      exact ⟨.refl path _, .of_extends hopened hafter hplaces hbypass
        (w.buildIndex_without_extends config)⟩
    · cases hr
  | scan config =>
    rw [reading?] at hr
    split at hr
    · rename_i index files hindex _
      cases hr
      exact ⟨.of_extends w.holds_true hopened hplaces hbypass
          (w.openIndex_confined index.indexPath).1.without_extends,
        .of_extends w.holds_true hafter hplaces hbypass (scan_without_extends hindex)⟩
    · cases hr

end Workspace

end SpecAtlas
