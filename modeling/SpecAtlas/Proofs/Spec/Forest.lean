import Mathlib.Data.List.Nodup
import SpecAtlas.Proofs.Source.Numbering
import SpecAtlas.Source.Preorder
import SpecAtlas.Spec.Outline

/-! The forest of the tests of a spec. Every test of it is introduced by a call that is a statement
of a container of the class, or of the body of another such call; no other call and no class lies on
the way. Listed with each test before its children, the calls of a block keep the order of the
syntax tree. -/

namespace SpecAtlas

open Source

namespace Spec

variable {style : Style} {f : File} {p : Place} {call : TestCall}

lemma testCall?_node (h : testCall? style f p = some call) : call.node = p := by
  obtain ⟨_, _, _, _, _, hn, _⟩ := testCall?_eq_some h
  exact hn

lemma testCall?_kind (h : testCall? style f p = some call) : p.kind = "call_expression" := by
  obtain ⟨_, _, hp, _⟩ := testCall?_eq_some h
  exact Place.callParts?_kind hp

lemma testCall?_of_plain (h : p.Plain) : testCall? style f p = none := by
  cases hc : testCall? style f p with
  | none => rfl
  | some call => exact absurd (testCall?_kind hc) h.1

lemma testCall?_of_isCallee (h : p.isCallee = true) : testCall? style f p = none := by
  rw [testCall?, if_pos h]

lemma isCallee_of_testCall? (h : testCall? style f p = some call) : p.isCallee = false := by
  by_contra hcallee
  rw [testCall?_of_isCallee (by simpa using hcallee)] at h
  cases h

lemma headOf?_cases {parts : CallParts} {head : Head} (h : headOf? style f p parts = some head) :
    (∃ call, stem? parts.callee parts.arguments = some (.head call) ∧
      head? style f call = some head) ∨
    (∃ nav arguments receiver selector bare,
      stem? parts.callee parts.arguments = some (.base nav arguments) ∧
      nav.navigationParts? = some (receiver, selector) ∧
      Text.stripBackticks (f.textOf selector) = "config" ∧ head? style f receiver = some bare ∧
      head = { bare with enabled := bare.enabled && !disables f arguments }) ∨
    (∃ arguments callee, stem? parts.callee parts.arguments = some (.base callee arguments) ∧
      callee.navigationParts? = none ∧ head? style f p = some head) := by
  simp only [headOf?, Option.bind_eq_bind, Option.bind_eq_some_iff] at h
  obtain ⟨s, hs, h⟩ := h
  cases s with
  | head call =>
    simp only [Option.bind_eq_some_iff] at h
    obtain ⟨_, _, hhead⟩ := h
    exact .inl ⟨call, hs, hhead⟩
  | base callee arguments =>
    simp only at h
    split at h
    · rename_i receiver selector hnav
      simp only [Option.bind_eq_some_iff] at h
      obtain ⟨_, hguard, bare, hbare, he⟩ := h
      have hconfig : Text.stripBackticks (f.textOf selector) = "config" := by
        simpa [guard, Option.ite_none_right_eq_some] using hguard
      exact .inr (.inl ⟨callee, arguments, receiver, selector, bare, hs, hnav, hconfig, hbare,
        (Option.some.inj he).symm⟩)
    · rename_i hnav
      simp only [Option.bind_eq_some_iff] at h
      obtain ⟨_, _, hhead⟩ := h
      exact .inr (.inr ⟨arguments, callee, hs, hnav, hhead⟩)

lemma isClass_of_testCall? (h : testCall? style f p = some call) : p.isClass = false := by
  simp [Place.isClass, testCall?_kind h]

lemma below_body (h : testCall? style f p = some call) :
    Place.Below Place.Scaffold p call.body ∧ call.body.kind = "lambda_literal" := by
  obtain ⟨parts, _, hp, hl, _⟩ := testCall?_eq_some h
  exact Place.below_of_lambda hp hl

lemma below_of_mem_body {s : Place} (h : testCall? style f p = some call)
    (hs : s ∈ call.body.statements) : Place.Below Place.Scaffold p s := by
  obtain ⟨hbody, hk⟩ := below_body h
  refine hbody.trans (Place.scaffold_of_kind hk) ?_
  exact (Place.below_of_mem_statements hs).mono fun a ha => Place.scaffold_of_isStatementWrapper ha

lemma ofClass?_eq_some {cls : Place} {spec : Spec} (h : ofClass? f cls = some spec) :
    spec.node = cls ∧ classify? f cls = some spec.style := by
  obtain ⟨style, hs, rfl⟩ := Option.map_eq_some_iff.mp h
  exact ⟨rfl, hs⟩

lemma exists_ofClass? {cls : Place} (h : classify? f cls = some style) :
    ∃ spec, ofClass? f cls = some spec ∧ spec.style = style := by
  simp [ofClass?, h]

lemma isClass_of_classify? {cls : Place} (h : classify? f cls = some style) :
    cls.isClass = true := by
  by_contra hc
  simp [classify?, hc] at h

end Spec

namespace Test

mutual

def flatten : Test → List Test
  | t@⟨_, _, _, _, children⟩ => t :: flattenAll children

def flattenAll : List Test → List Test
  | [] => []
  | t :: ts => t.flatten ++ flattenAll ts

end

lemma flatten_eq (t : Test) : t.flatten = t :: flattenAll t.children := by
  cases t
  rw [flatten]

lemma flattenAll_eq_flatMap (ts : List Test) : flattenAll ts = ts.flatMap flatten := by
  induction ts with
  | nil => rfl
  | cons t ts ih => rw [flattenAll, ih, List.flatMap_cons]

mutual

theorem forall_mem_flatten {P : Test → Prop} (hstep : ∀ t, P t → ∀ c ∈ t.children, P c) :
    (t : Test) → P t → ∀ u ∈ t.flatten, P u
  | ⟨name, path, enabled, node, children⟩, ht => by
    intro u hu
    rw [flatten, List.mem_cons] at hu
    rcases hu with rfl | hu
    · exact ht
    · exact forall_mem_flattenAll hstep children (hstep _ ht) u hu

theorem forall_mem_flattenAll {P : Test → Prop} (hstep : ∀ t, P t → ∀ c ∈ t.children, P c) :
    (ts : List Test) → (∀ t ∈ ts, P t) → ∀ u ∈ flattenAll ts, P u
  | [], _ => by simp [flattenAll]
  | t :: ts, ht => by
    obtain ⟨hhead, htail⟩ := List.forall_mem_cons.mp ht
    intro u hu
    rw [flattenAll, List.mem_append] at hu
    rcases hu with hu | hu
    · exact forall_mem_flatten hstep t hhead u hu
    · exact forall_mem_flattenAll hstep ts htail u hu

end

lemma mem_inBlock {style : Style} {f : File} {block : Place} {t : Test} :
    t ∈ inBlock style f block ↔
      ∃ s ∈ block.statements, ∃ call, Spec.testCall? style f s = some call ∧
        ofCall style f call = t := by
  simp only [inBlock_eq, List.mem_filterMap, Option.map_eq_some_iff]

inductive Declared (style : Style) (f : File) (cls : Place) : Spec.TestCall → Prop
  | top {block s : Place} {call : Spec.TestCall} : block ∈ cls.containers →
      s ∈ block.statements → Spec.testCall? style f s = some call → Declared style f cls call
  | nested {outer call : Spec.TestCall} {s : Place} : Declared style f cls outer →
      s ∈ outer.body.statements → Spec.testCall? style f s = some call →
      Declared style f cls call

namespace Declared

variable {style : Style} {f : File} {cls : Place} {call : Spec.TestCall}

lemma testCall? (h : Declared style f cls call) :
    Spec.testCall? style f call.node = some call := by
  cases h with
  | top _ _ hcall => rw [Spec.testCall?_node hcall, hcall]
  | nested _ _ hcall => rw [Spec.testCall?_node hcall, hcall]

lemma below_of_top {block s : Place} (hb : block ∈ cls.containers) (hs : s ∈ block.statements) :
    Place.Below Place.Scaffold cls s := by
  obtain ⟨hbelow, hscaffold⟩ := Place.below_of_mem_containers hb
  refine hbelow.trans hscaffold ?_
  exact (Place.below_of_mem_statements hs).mono fun a ha => Place.scaffold_of_isStatementWrapper ha

lemma mem_preorder (h : Declared style f cls call) : call.node ∈ cls.preorder := by
  induction h with
  | top hb hs hcall =>
    rw [Spec.testCall?_node hcall]
    exact (below_of_top hb hs).mem_preorder
  | nested hd hs hcall ih =>
    rw [Spec.testCall?_node hcall]
    exact Place.mem_preorder_trans ih (Spec.below_of_mem_body hd.testCall? hs).mem_preorder

lemma lineage_eq (h : Declared style f cls call) :
    ∃ between, call.node.lineage = between ++ cls.lineage ∧
      ∀ a ∈ between, a.kind = "call_expression" ∨ a.Scaffold := by
  induction h with
  | @top block s call hb hs hcall =>
    obtain ⟨between, he, hscaffold⟩ := (below_of_top hb hs).ancestors_eq
    refine ⟨s :: between, ?_, ?_⟩
    · rw [Spec.testCall?_node hcall, Place.lineage, he, List.cons_append]
    · exact List.forall_mem_cons.mpr
        ⟨.inl (Spec.testCall?_kind hcall), fun a ha => .inr (hscaffold a ha)⟩
  | @nested outer call s hd hs hcall ih =>
    obtain ⟨above, he, hpassed⟩ := ih
    obtain ⟨between, hb, hscaffold⟩ := (Spec.below_of_mem_body hd.testCall? hs).ancestors_eq
    refine ⟨s :: between ++ above, ?_, ?_⟩
    · rw [Spec.testCall?_node hcall, Place.lineage, hb, he, List.cons_append, List.cons_append,
        List.append_assoc]
    · intro a ha
      rcases List.mem_append.mp ha with ha | ha
      · rcases List.mem_cons.mp ha with rfl | ha
        · exact .inl (Spec.testCall?_kind hcall)
        · exact .inr (hscaffold a ha)
      · exact hpassed a ha

lemma enclosingClass? (h : Declared style f cls call) (hcls : cls.isClass = true) :
    call.node.enclosingClass? = some cls := by
  obtain ⟨between, he, hpassed⟩ := h.lineage_eq
  have hnone : between.find? Place.isClass = none := by
    refine List.find?_eq_none.mpr fun a ha => ?_
    rcases hpassed a ha with hk | hscaffold
    · simp [Place.isClass, hk]
    · simp [hscaffold.plain.2]
  rw [Place.enclosingClass?, he, List.find?_append, hnone, Option.none_or, Place.lineage,
    List.find?_cons_of_pos hcls]

end Declared

lemma exists_declared_of_mem {f : File} {spec : Spec} {t : Test}
    (h : t ∈ flattenAll (Outline.testsOf f spec)) :
    ∃ call, Declared spec.style f spec.node call ∧ ofCall spec.style f call = t := by
  refine forall_mem_flattenAll
    (P := fun t => ∃ call, Declared spec.style f spec.node call ∧ ofCall spec.style f call = t)
    ?_ _ ?_ t h
  · rintro t ⟨outer, hd, rfl⟩ c hc
    obtain ⟨s, hs, call, hcall, rfl⟩ := mem_inBlock.mp hc
    exact ⟨call, hd.nested hs hcall, rfl⟩
  · intro t ht
    obtain ⟨block, hb, ht⟩ := List.mem_flatMap.mp ht
    obtain ⟨s, hs, call, hcall, rfl⟩ := mem_inBlock.mp ht
    exact ⟨call, .top hb hs hcall, rfl⟩

lemma nodes_of_statements_sublist {style : Style} {f : File} {ss : List Place}
    (h : ∀ s ∈ ss, ∀ call, Spec.testCall? style f s = some call →
      ((flattenAll (inBlock style f call.body)).map node).Sublist call.body.preorder) :
    ((ss.filterMap fun s => (Spec.testCall? style f s).map (ofCall style f)).flatMap
      fun t => t.flatten.map node).Sublist (ss.flatMap Place.preorder) := by
  induction ss with
  | nil => exact .refl _
  | cons s ss ih =>
    obtain ⟨hs, hss⟩ := List.forall_mem_cons.mp h
    rw [List.flatMap_cons]
    cases hcall : Spec.testCall? style f s with
    | none =>
      rw [List.filterMap_cons_none (by rw [hcall, Option.map_none])]
      exact (ih hss).trans (List.sublist_append_right ..)
    | some call =>
      rw [List.filterMap_cons_some (by rw [hcall, Option.map_some]), List.flatMap_cons,
        flatten_eq, List.map_cons]
      have hnode : (ofCall style f call).node = s := Spec.testCall?_node hcall
      rw [hnode]
      refine .append ?_ (ih hss)
      exact ((hs call hcall).cons_cons s).trans (Spec.below_body hcall).1.preorder_sublist

theorem nodes_inBlock_sublist (style : Style) (f : File) (block : Place) :
    ((flattenAll (inBlock style f block)).map node).Sublist block.preorder := by
  induction block using inBlock.induct style f with
  | case1 block ih =>
    rw [inBlock_eq, flattenAll_eq_flatMap, List.map_flatMap]
    exact (nodes_of_statements_sublist ih).trans (Place.statements_preorder_sublist block)

theorem nodup_nodes (f : File) (spec : Spec) :
    ((flattenAll (Outline.testsOf f spec)).map node).Nodup := by
  rw [Outline.testsOf, flattenAll_eq_flatMap, List.flatMap_assoc, List.map_flatMap,
    List.nodup_flatMap]
  have hsub (block : Place) :
      (((inBlock spec.style f block).flatMap flatten).map node).Sublist block.preorder := by
    rw [← flattenAll_eq_flatMap]
    exact nodes_inBlock_sublist spec.style f block
  constructor
  · intro block _
    exact (Place.nodup_preorder block).sublist (hsub block)
  · refine (Place.pairwise_disjoint_containers spec.node).imp ?_
    intro b c hbc x hxb hxc
    exact hbc ((hsub b).subset hxb) ((hsub c).subset hxc)

def specimen : File where
  text := "class A : FunSpec(\x7b context(\"outer\") \x7b " ++
    "test(\"slow\").config(enabled = false) \x7b \x7d \x7d \x7d)"
  root := (Node.ofPreorder
    [(⟨"source_file", 0, 84, true, false, false⟩, 1),
      (⟨"class_declaration", 0, 84, true, false, false⟩, 2),
      (⟨"identifier", 6, 7, true, true, false⟩, 0),
      (⟨"delegation_specifiers", 10, 84, true, false, false⟩, 1),
      (⟨"delegation_specifier", 10, 84, true, false, false⟩, 1),
      (⟨"constructor_invocation", 10, 84, true, false, false⟩, 2),
      (⟨"user_type", 10, 17, true, false, false⟩, 0),
      (⟨"value_arguments", 17, 84, true, false, false⟩, 1),
      (⟨"value_argument", 18, 83, true, false, false⟩, 1),
      (⟨"lambda_literal", 18, 83, true, false, false⟩, 1),
      (⟨"call_expression", 20, 81, true, false, false⟩, 2),
      (⟨"call_expression", 20, 36, true, false, false⟩, 2),
      (⟨"identifier", 20, 27, true, false, false⟩, 0),
      (⟨"value_arguments", 27, 36, true, false, false⟩, 1),
      (⟨"value_argument", 28, 35, true, false, false⟩, 1),
      (⟨"string_literal", 28, 35, true, false, false⟩, 0),
      (⟨"annotated_lambda", 37, 81, true, false, false⟩, 1),
      (⟨"lambda_literal", 37, 81, true, false, false⟩, 1),
      (⟨"call_expression", 39, 79, true, false, false⟩, 2),
      (⟨"call_expression", 39, 75, true, false, false⟩, 2),
      (⟨"navigation_expression", 39, 58, true, false, false⟩, 3),
      (⟨"call_expression", 39, 51, true, false, false⟩, 2),
      (⟨"identifier", 39, 43, true, false, false⟩, 0),
      (⟨"value_arguments", 43, 51, true, false, false⟩, 1),
      (⟨"value_argument", 44, 50, true, false, false⟩, 1),
      (⟨"string_literal", 44, 50, true, false, false⟩, 0),
      (⟨".", 51, 52, false, false, false⟩, 0),
      (⟨"identifier", 52, 58, true, false, false⟩, 0),
      (⟨"value_arguments", 58, 75, true, false, false⟩, 1),
      (⟨"value_argument", 59, 74, true, false, false⟩, 2),
      (⟨"identifier", 59, 66, true, false, false⟩, 0),
      (⟨"identifier", 69, 74, true, false, false⟩, 0),
      (⟨"annotated_lambda", 76, 79, true, false, false⟩, 1),
      (⟨"lambda_literal", 76, 79, true, false, false⟩, 0)]).headD default

def specimenClass : Place := specimen.rootPlace.namedChildren.headD default

lemma specimenClass_mem : specimenClass ∈ specimen.rootPlace.preorder := by
  have hchild : specimenClass ∈ specimen.rootPlace.namedChildren := List.mem_of_head? (by rfl)
  exact Place.mem_preorder_of_mem_children (Place.mem_children_of_mem_namedChildren hchild)

def specimenSpec : Spec := (Spec.ofClass? specimen specimenClass).get (by decide +kernel)

lemma specimenSpec_eq : Spec.ofClass? specimen specimenClass = some specimenSpec :=
  (Option.some_get _).symm

end Test

end SpecAtlas
