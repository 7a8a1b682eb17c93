import SpecAtlas.Proofs.Source.WellFormed
import SpecAtlas.Proofs.Spec.Forest

/-! Display paths. The names that are read from the places above a test are those of the tests that
lead to it in the forest, so the path of a nested test is that of its parent and its own name. -/

namespace SpecAtlas.Test

open Source

variable {style : Style} {f : File} {cls : Place} {call : Spec.TestCall}

def scope (p : Place) : List Place := p.ancestors.takeWhile (!·.isClass)

def namesAbove (style : Style) (f : File) (p : Place) : List String :=
  (scope p).filterMap fun a => (Spec.testCall? style f a).map (·.name)

def Settled (style : Style) (f : File) (p : Place) : Prop :=
  ∀ a ∈ scope p, ∀ call, Spec.testCall? style f a = some call → call.body ∈ p.ancestors

lemma enclosingNames_eq {p : Place} (hcover : ∀ a ∈ p.ancestors, a.covers p = true)
    (hs : Settled style f p) : enclosingNames style f p = (namesAbove style f p).reverse := by
  rw [enclosingNames, namesAbove]
  congr 1
  refine List.filterMap_congr fun a ha => ?_
  cases hcall : Spec.testCall? style f a with
  | none => rfl
  | some call => simp [hcover _ (hs a ha call hcall)]

lemma scope_eq {p q : Place} (h : Place.Below Place.Scaffold p q) :
    ∃ between, scope q = between ++ p.lineage.takeWhile (!·.isClass) ∧ ∀ a ∈ between, a.Plain := by
  obtain ⟨between, he, hplain⟩ := (h.mono fun _ ha => ha.plain).ancestors_eq
  refine ⟨between, ?_, hplain⟩
  rw [scope, he]
  exact List.takeWhile_append_of_pos fun a ha => by simp [(hplain a ha).2]

lemma scope_of_below_class {q : Place} (hcls : cls.isClass = true)
    (h : Place.Below Place.Scaffold cls q) : ∀ a ∈ scope q, a.Plain := by
  obtain ⟨between, he, hplain⟩ := scope_eq h
  have hstop : cls.lineage.takeWhile (!·.isClass) = [] := by simp [Place.lineage, hcls]
  rw [he, hstop, List.append_nil]
  exact hplain

lemma scope_of_below_test {p q : Place} (hp : Spec.testCall? style f p = some call)
    (h : Place.Below Place.Scaffold p q) :
    ∃ between, scope q = between ++ p :: scope p ∧ ∀ a ∈ between, a.Plain := by
  obtain ⟨between, he, hplain⟩ := scope_eq h
  refine ⟨between, ?_, hplain⟩
  rw [he, Place.lineage, List.takeWhile_cons_of_pos (by simp [Spec.isClass_of_testCall? hp]), scope]

lemma filterMap_plain {between : List Place} (h : ∀ a ∈ between, a.Plain) :
    (between.filterMap fun a => (Spec.testCall? style f a).map (·.name)) = [] := by
  refine List.filterMap_eq_nil_iff.mpr fun a ha => ?_
  rw [Spec.testCall?_of_plain (h a ha), Option.map_none]

namespace Declared

lemma settled (hcls : cls.isClass = true) (h : Declared style f cls call) :
    Settled style f call.node := by
  induction h with
  | top hb hs hcall =>
    intro a ha outer houter
    rw [Spec.testCall?_node hcall] at ha
    have hplain := scope_of_below_class hcls (below_of_top hb hs) a ha
    rw [Spec.testCall?_of_plain hplain] at houter
    cases houter
  | @nested outer call s hd hs hcall ih =>
    have hbelow := Spec.below_of_mem_body hd.testCall? hs
    obtain ⟨between, he, hplain⟩ := scope_of_below_test hd.testCall? hbelow
    rw [Spec.testCall?_node hcall]
    intro a ha c hc
    rw [he, List.mem_append, List.mem_cons] at ha
    rcases ha with ha | rfl | ha
    · rw [Spec.testCall?_of_plain (hplain a ha)] at hc
      cases hc
    · obtain rfl : outer = c := Option.some.inj (hd.testCall?.symm.trans hc)
      exact (Place.below_of_mem_statements hs).mem_ancestors
    · exact hbelow.ancestors_subset (ih a ha c hc)

lemma namesAbove_of_top (hcls : cls.isClass = true) {block s : Place}
    (hb : block ∈ cls.containers) (hs : s ∈ block.statements) : namesAbove style f s = [] :=
  filterMap_plain (scope_of_below_class hcls (below_of_top hb hs))

lemma namesAbove_of_nested {outer : Spec.TestCall} {s : Place}
    (hd : Declared style f cls outer) (hs : s ∈ outer.body.statements) :
    namesAbove style f s = outer.name :: namesAbove style f outer.node := by
  obtain ⟨between, he, hplain⟩ :=
    scope_of_below_test hd.testCall? (Spec.below_of_mem_body hd.testCall? hs)
  rw [namesAbove, he, List.filterMap_append, filterMap_plain hplain, List.nil_append,
    List.filterMap_cons_some (by rw [hd.testCall?, Option.map_some]), namesAbove]

lemma enclosingNames_eq (hn : f.rootPlace.Nested) (hmem : cls ∈ f.rootPlace.preorder)
    (hcls : cls.isClass = true) (h : Declared style f cls call) :
    enclosingNames style f call.node = (namesAbove style f call.node).reverse := by
  refine Test.enclosingNames_eq (fun a ha => ?_) (h.settled hcls)
  have hnode := Place.mem_preorder_trans hmem h.mem_preorder
  obtain ⟨hroot, hbelow⟩ := Place.mem_preorder_of_mem_lineage hnode (List.mem_cons_of_mem _ ha)
  exact (hn.of_mem hroot).covers hbelow

end Declared

/-- The path of a top-level test is its name, and a nested test adds its name to its parent's path.
-/
theorem path_of_nesting (f : File) (hn : f.rootPlace.Nested) (cls : Place)
    (hmem : cls ∈ f.rootPlace.preorder) (spec : Spec) (hspec : Spec.ofClass? f cls = some spec)
    (hide : Hiding) :
    (∀ t ∈ (Outline.ofSpec f hide spec).tests, t.path = t.name) ∧
      ∀ p ∈ flattenAll (Outline.ofSpec f hide spec).tests, ∀ t ∈ p.children,
        t.path = p.path ++ " " ++ t.name := by
  obtain ⟨rfl, hstyle⟩ := Spec.ofClass?_eq_some hspec
  have hcls := Spec.isClass_of_classify? hstyle
  constructor
  · intro t ht
    obtain ⟨block, hb, ht⟩ := List.mem_flatMap.mp ht
    obtain ⟨s, hs, call, hcall, rfl⟩ := mem_inBlock.mp ht
    have hd : Declared spec.style f spec.node call := .top hb hs hcall
    have hnames := hd.enclosingNames_eq hn hmem hcls
    rw [Spec.testCall?_node hcall, Declared.namesAbove_of_top hcls hb hs] at hnames
    simp [ofCall, pathOf, Spec.testCall?_node hcall, hnames]
  · intro p hp t ht
    obtain ⟨outer, hd, rfl⟩ := exists_declared_of_mem hp
    obtain ⟨s, hs, call, hcall, rfl⟩ := mem_inBlock.mp ht
    have houter := hd.enclosingNames_eq hn hmem hcls
    have hnames := (hd.nested hs hcall).enclosingNames_eq hn hmem hcls
    rw [Spec.testCall?_node hcall, Declared.namesAbove_of_nested hd hs, List.reverse_cons,
      ← houter] at hnames
    simp only [ofCall, pathOf, Spec.testCall?_node hcall, hnames]
    rw [String.intercalate_append_of_ne_nil (by simp) (by simp), String.intercalate_singleton]

theorem path_of_nesting_specimen :
    (flattenAll (Outline.ofSpec specimen {} specimenSpec).tests).map path =
      ["outer", "outer slow"] ∧
      (∀ t ∈ (Outline.ofSpec specimen {} specimenSpec).tests, t.path = t.name) ∧
      ∀ p ∈ flattenAll (Outline.ofSpec specimen {} specimenSpec).tests, ∀ t ∈ p.children,
        t.path = p.path ++ " " ++ t.name :=
  ⟨by decide +kernel, path_of_nesting specimen (by decide +kernel) specimenClass specimenClass_mem
    specimenSpec specimenSpec_eq {}⟩

end SpecAtlas.Test
