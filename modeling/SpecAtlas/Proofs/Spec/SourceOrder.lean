import SpecAtlas.Proofs.Spec.Forest

/-! The order of an outline. Numbers in the preorder of the syntax tree increase along the tests of
a spec, along its callbacks and along its includes. A call has one of these roles at most, and the
calls that register callbacks and includes stand beside the tests, never inside of one. -/

namespace SpecAtlas

open Source

namespace Source.Place

variable {cls : Place}

/-- The supertypes of a class are written before its body. -/
def HeadFirst (cls : Place) : Prop :=
  cls.namedChildren.Pairwise fun c d => isDelegation d.kind → c.kind ≠ "class_body"

instance (cls : Place) : Decidable cls.HeadFirst :=
  inferInstanceAs (Decidable (List.Pairwise _ _))

def Precedes (p q : Place) : Prop := ∀ x ∈ p.preorder, ∀ y ∈ q.preorder, x.number < y.number

lemma Precedes.of_mem {p q b c : Place} (h : p.Precedes q) (hb : b ∈ p.preorder)
    (hc : c ∈ q.preorder) : b.Precedes c :=
  fun x hx y hy => h x (mem_preorder_trans hb hx) y (mem_preorder_trans hc hy)

lemma pairwise_precedes_namedChildren (p : Place) : p.namedChildren.Pairwise Precedes :=
  (pairwise_number_children p).sublist List.filter_sublist

lemma HeadFirst.precedes (h : cls.HeadFirst) {d body : Place} (hd : d ∈ cls.namedChildren)
    (hdk : isDelegation d.kind) (hbody : cls.classBody? = some body) : d.Precedes body := by
  have hpair := List.pairwise_iff_getElem.mp (pairwise_precedes_namedChildren cls)
  have hhead := List.pairwise_iff_getElem.mp h
  have hbk := kind_of_firstOfKind? hbody
  obtain ⟨i, hi, rfl⟩ := List.mem_iff_getElem.mp hd
  obtain ⟨j, hj, rfl⟩ := List.mem_iff_getElem.mp (mem_of_firstOfKind? hbody)
  rcases lt_trichotomy i j with hij | rfl | hij
  · exact hpair i j hi hj hij
  · rw [hbk] at hdk
    exact absurd hdk (by decide)
  · exact absurd hbk (hhead j i hj hi hij hdk)

theorem pairwise_precedes_containers (h : cls.HeadFirst) : cls.containers.Pairwise Precedes := by
  rw [containers, List.pairwise_append]
  refine ⟨?_, ?_, ?_⟩
  · cases cls.supertypeCall?.bind constructorLambda? <;> simp
  · cases cls.classBody? with
    | none => simp
    | some body => exact (pairwise_precedes_namedChildren body).sublist List.filter_sublist
  · intro b hb c hc
    obtain ⟨d, hd, hdk, hbd, body, hbody, hcb⟩ :=
      exists_parts_of_containers (Option.mem_toList.mp hb) hc
    exact (h.precedes hd hdk hbody).of_mem hbd hcb

end Source.Place

namespace Test

theorem pairwise_number_nodes (f : File) {spec : Spec} (h : spec.node.HeadFirst) :
    ((flattenAll (Outline.testsOf f spec)).map node).Pairwise fun p q => p.number < q.number := by
  have hsub (block : Place) :
      (((inBlock spec.style f block).flatMap flatten).map node).Sublist block.preorder := by
    rw [← flattenAll_eq_flatMap]
    exact nodes_inBlock_sublist spec.style f block
  rw [Outline.testsOf, flattenAll_eq_flatMap, List.flatMap_assoc, List.map_flatMap,
    List.pairwise_flatMap]
  constructor
  · intro block _
    exact (Place.pairwise_number_preorder block).sublist (hsub block)
  · refine (Place.pairwise_precedes_containers h).imp ?_
    intro b c hbc x hx y hy
    exact hbc x ((hsub b).subset hx) y ((hsub c).subset hy)

end Test

namespace Spec

variable {style : Style} {f : File} {p : Place} {parts : CallParts}

lemma stem?_of_plain {callee : Place} (h : callee.Plain) (arguments : List Place) :
    stem? callee arguments = some (.base callee arguments) := by
  rw [stem?, if_neg (by simpa using h.1)]

lemma navigationParts?_of_isIdentifier {q : Place} (h : q.isIdentifier = true) :
    q.navigationParts? = none := by
  have hk : q.kind ≠ "navigation_expression" := by
    intro he
    simp [Place.isIdentifier, he] at h
  simp [Place.navigationParts?, guard, hk]

lemma stringHead?_of_isIdentifier (hparts : p.callParts? = some parts)
    (hid : parts.callee.isIdentifier = true) : stringHead? f p = none := by
  have hk : parts.callee.kind ≠ "string_literal" := by
    intro he
    simp [Place.isIdentifier, he] at hid
  have hliteral : headLiteral? p = none := by
    rw [headLiteral?, if_neg (by simp [Place.callParts?_kind hparts]), hparts]
    simp [guard, hk]
  rw [stringHead?, hliteral, Option.map_none]

lemma keyword?_of_keywordHead? {head : Head} (hparts : p.callParts? = some parts)
    (h : keywordHead? style f p = some head) :
    parts.arguments ≠ [] ∧
      (style.keyword? (Text.stripBackticks (f.textOf parts.callee))).isSome := by
  simp only [keywordHead?, hparts, Option.bind_eq_bind, Option.bind_some,
    Option.bind_eq_some_iff] at h
  obtain ⟨_, _, _, hk, argument, harg, _⟩ := h
  refine ⟨fun he => ?_, by rw [hk, Option.isSome_some]⟩
  rw [he] at harg
  cases harg

lemma keyword?_of_testCall? {call : TestCall} (hparts : p.callParts? = some parts)
    (hid : parts.callee.isIdentifier = true) (h : testCall? style f p = some call) :
    parts.arguments ≠ [] ∧
      (style.keyword? (Text.stripBackticks (f.textOf parts.callee))).isSome := by
  obtain ⟨parts', head, hparts', -, hhead, -⟩ := testCall?_eq_some h
  obtain rfl := Option.some.inj (hparts'.symm.trans hparts)
  simp only [headOf?, stem?_of_plain (Place.plain_of_isIdentifier hid), Option.bind_eq_bind,
    Option.bind_some, navigationParts?_of_isIdentifier hid, Place.same_self, guard_true] at hhead
  change head? style f p = some head at hhead
  cases style with
  | string =>
    have hnone : head? .string f p = none := stringHead?_of_isIdentifier hparts hid
    rw [hnone] at hhead
    cases hhead
  | _ => exact keyword?_of_keywordHead? hparts hhead

end Spec

lemma Callback.ofCall?_eq_some {f : File} {p : Place} {c : Callback} (h : ofCall? f p = some c) :
    c.node = p ∧ ∃ parts, p.callParts? = some parts ∧ parts.callee.isIdentifier = true ∧
      parts.arguments = [] := by
  simp only [ofCall?, Option.bind_eq_bind, Option.bind_eq_some_iff] at h
  obtain ⟨parts, hparts, _, hguard, kind, _, he⟩ := h
  cases he
  have hparts' := (Option.guard_eq_some' _).mp hguard
  simp only [Bool.and_eq_true, List.isEmpty_iff] at hparts'
  exact ⟨rfl, parts, hparts, hparts'.1.1, hparts'.2⟩

lemma Include.ofCall?_eq_some {f : File} {p : Place} {i : Include} (h : ofCall? f p = some i) :
    i.node = p ∧ ∃ parts argument, p.callParts? = some parts ∧
      parts.callee.isIdentifier = true ∧ f.textOf parts.callee = "include" ∧
      parts.arguments = [argument] := by
  simp only [ofCall?, Option.bind_eq_bind, Option.bind_eq_some_iff] at h
  obtain ⟨parts, hparts, _, hguard, h⟩ := h
  have hcallee := (Option.guard_eq_some' _).mp hguard
  simp only [Bool.and_eq_true, beq_iff_eq] at hcallee
  split at h
  · rename_i argument harg
    simp only [Option.bind_eq_some_iff] at h
    obtain ⟨_, _, _, _, he⟩ := h
    cases he
    exact ⟨rfl, parts, argument, hparts, hcallee.1, hcallee.2, harg⟩
  · cases h

lemma Style.keyword?_include (s : Style) : s.keyword? "include" = none := by
  cases s <;> decide

lemma Callback.testCall?_eq_none {f : File} {p : Place} {c : Callback}
    (h : ofCall? f p = some c) (style : Style) : Spec.testCall? style f p = none := by
  obtain ⟨-, parts, hparts, hid, hargs⟩ := ofCall?_eq_some h
  cases hcall : Spec.testCall? style f p with
  | none => rfl
  | some call => exact absurd hargs (Spec.keyword?_of_testCall? hparts hid hcall).1

lemma Include.testCall?_eq_none {f : File} {p : Place} {i : Include}
    (h : ofCall? f p = some i) (style : Style) : Spec.testCall? style f p = none := by
  obtain ⟨-, parts, argument, hparts, hid, htext, -⟩ := ofCall?_eq_some h
  cases hcall : Spec.testCall? style f p with
  | none => rfl
  | some call =>
    have hk := (Spec.keyword?_of_testCall? hparts hid hcall).2
    have hname : Text.stripBackticks "include" = "include" := by decide
    rw [htext, hname, Style.keyword?_include] at hk
    cases hk

lemma map_filterMap_sublist {α β : Type} {g : α → Option β} {back : β → α}
    (h : ∀ a b, g a = some b → back b = a) (xs : List α) :
    ((xs.filterMap g).map back).Sublist xs := by
  induction xs with
  | nil => exact .slnil
  | cons a xs ih =>
    cases ha : g a with
    | none =>
      rw [List.filterMap_cons_none ha]
      exact ih.cons a
    | some b =>
      rw [List.filterMap_cons_some ha, List.map_cons, h a b ha]
      exact ih.cons_cons a

lemma lifecycleBlock?_mem_containers {cls b : Place} (h : lifecycleBlock? cls = some b) :
    b ∈ cls.containers := by
  rw [lifecycleBlock?] at h
  split at h
  · rw [Place.containers, List.mem_append]
    rcases Option.or_eq_some_iff.mp h with h | ⟨-, h⟩
    · obtain ⟨body, hbody, hb⟩ := Option.bind_eq_some_iff.mp h
      right
      rw [hbody]
      exact List.mem_of_head? hb
    · left
      exact Option.mem_toList.mpr h
  · cases h

lemma mem_lifecycleCalls {cls p : Place} (h : p ∈ lifecycleCalls cls) :
    ∃ b ∈ cls.containers, p ∈ b.statements := by
  rw [lifecycleCalls] at h
  cases hb : lifecycleBlock? cls with
  | none => simp [hb] at h
  | some b =>
    rw [hb] at h
    exact ⟨b, lifecycleBlock?_mem_containers hb, (List.mem_filter.mp h).1⟩

lemma pairwise_number_lifecycleCalls (cls : Place) :
    (lifecycleCalls cls).Pairwise fun p q => p.number < q.number := by
  rw [lifecycleCalls]
  cases lifecycleBlock? cls with
  | none => simp
  | some b =>
    refine (Place.pairwise_number_preorder b).sublist ?_
    exact List.filter_sublist.trans (Place.statements_sublist b)

namespace Test.Declared

variable {style : Style} {f : File} {cls : Place} {call : Spec.TestCall}

lemma exists_top (h : Declared style f cls call) :
    ∃ block ∈ cls.containers, ∃ s ∈ block.statements,
      (Spec.testCall? style f s).isSome ∧ call.node ∈ s.preorder := by
  induction h with
  | @top block s call hb hs hcall =>
    refine ⟨block, hb, s, hs, by rw [hcall, Option.isSome_some], ?_⟩
    rw [Spec.testCall?_node hcall]
    exact Place.self_mem_preorder s
  | nested hd hs hcall ih =>
    obtain ⟨block, hb, top, htop, hsome, hmem⟩ := ih
    refine ⟨block, hb, top, htop, hsome, Place.mem_preorder_trans hmem ?_⟩
    rw [Spec.testCall?_node hcall]
    exact (Spec.below_of_mem_body hd.testCall? hs).mem_preorder

lemma notMem_preorder (h : Declared style f cls call) {block p : Place}
    (hb : block ∈ cls.containers) (hp : p ∈ block.statements)
    (hnone : Spec.testCall? style f p = none) : p ∉ call.node.preorder := by
  intro hmem
  obtain ⟨outer, ho, s, hs, hsome, hnode⟩ := h.exists_top
  have hps := Place.mem_preorder_trans hnode hmem
  have hpo := Place.mem_preorder_trans ((Place.statements_sublist outer).subset hs) hps
  obtain rfl := Place.eq_of_mem_containers ho hb hpo ((Place.statements_sublist block).subset hp)
  obtain rfl := Place.eq_of_mem_statements hs hp hps
  rw [hnone] at hsome
  cases hsome

end Test.Declared

namespace Outline

def testNodes (o : Outline) : List Place := (Test.flattenAll o.tests).map Test.node

def callbackNodes (o : Outline) : List Place := o.callbacks.map Callback.node

def includeNodes (o : Outline) : List Place := o.includes.map Include.node

variable {f : File} {hide : Hiding} {spec : Spec} {p : Place}

lemma callbacks_ofSpec_sublist :
    (ofSpec f hide spec).callbacks.Sublist
    ((lifecycleCalls spec.node).filterMap (Callback.ofCall? f)) := by
  simp only [ofSpec]
  split
  · exact List.nil_sublist _
  · exact .refl _

lemma includes_ofSpec_sublist :
    (ofSpec f hide spec).includes.Sublist
    ((lifecycleCalls spec.node).filterMap (Include.ofCall? f)) := by
  simp only [ofSpec]
  split
  · exact List.nil_sublist _
  · exact .refl _

lemma callbackNodes_sublist :
    (ofSpec f hide spec).callbackNodes.Sublist (lifecycleCalls spec.node) :=
  (callbacks_ofSpec_sublist.map Callback.node).trans
    (map_filterMap_sublist (fun _ _ h => (Callback.ofCall?_eq_some h).1) _)

lemma includeNodes_sublist :
    (ofSpec f hide spec).includeNodes.Sublist (lifecycleCalls spec.node) :=
  (includes_ofSpec_sublist.map Include.node).trans
    (map_filterMap_sublist (fun _ _ h => (Include.ofCall?_eq_some h).1) _)

lemma exists_callback_of_mem (h : p ∈ (ofSpec f hide spec).callbackNodes) :
    ∃ c, Callback.ofCall? f p = some c := by
  obtain ⟨c, hc, rfl⟩ := List.mem_map.mp h
  obtain ⟨q, -, hq⟩ := List.mem_filterMap.mp (callbacks_ofSpec_sublist.subset hc)
  exact ⟨c, by rw [(Callback.ofCall?_eq_some hq).1, hq]⟩

lemma exists_include_of_mem (h : p ∈ (ofSpec f hide spec).includeNodes) :
    ∃ i, Include.ofCall? f p = some i := by
  obtain ⟨i, hi, rfl⟩ := List.mem_map.mp h
  obtain ⟨q, -, hq⟩ := List.mem_filterMap.mp (includes_ofSpec_sublist.subset hi)
  exact ⟨i, by rw [(Include.ofCall?_eq_some hq).1, hq]⟩

lemma notMem_preorder_of_mem {t : Place} (ht : t ∈ (ofSpec f hide spec).testNodes)
    (hp : p ∈ (ofSpec f hide spec).callbackNodes ++ (ofSpec f hide spec).includeNodes) :
    p ∉ t.preorder := by
  obtain ⟨test, htest, rfl⟩ := List.mem_map.mp ht
  obtain ⟨call, hd, rfl⟩ := Test.exists_declared_of_mem htest
  rcases List.mem_append.mp hp with hp | hp
  · obtain ⟨block, hb, hs⟩ := mem_lifecycleCalls (callbackNodes_sublist.subset hp)
    obtain ⟨c, hc⟩ := exists_callback_of_mem hp
    exact hd.notMem_preorder hb hs (Callback.testCall?_eq_none hc _)
  · obtain ⟨block, hb, hs⟩ := mem_lifecycleCalls (includeNodes_sublist.subset hp)
    obtain ⟨i, hi⟩ := exists_include_of_mem hp
    exact hd.notMem_preorder hb hs (Include.testCall?_eq_none hi _)

lemma disjoint_callbackNodes_includeNodes :
    (ofSpec f hide spec).callbackNodes.Disjoint (ofSpec f hide spec).includeNodes := by
  intro p hc hi
  obtain ⟨c, hc⟩ := exists_callback_of_mem hc
  obtain ⟨i, hi⟩ := exists_include_of_mem hi
  obtain ⟨-, parts, hparts, -, hnone⟩ := Callback.ofCall?_eq_some hc
  obtain ⟨-, parts', argument, hparts', -, -, hone⟩ := Include.ofCall?_eq_some hi
  obtain rfl := Option.some.inj (hparts.symm.trans hparts')
  rw [hnone] at hone
  cases hone

lemma mem_preorder_of_mem_nodes
    (h : p ∈ (ofSpec f hide spec).testNodes ++ (ofSpec f hide spec).callbackNodes ++
      (ofSpec f hide spec).includeNodes) : p ∈ spec.node.preorder := by
  have hstatement (hp : p ∈ lifecycleCalls spec.node) : p ∈ spec.node.preorder := by
    obtain ⟨block, hb, hs⟩ := mem_lifecycleCalls hp
    exact Place.mem_preorder_trans (Place.below_of_mem_containers hb).1.mem_preorder
      ((Place.statements_sublist block).subset hs)
  rw [List.mem_append, List.mem_append] at h
  rcases h with (h | h) | h
  · obtain ⟨t, ht, rfl⟩ := List.mem_map.mp h
    obtain ⟨call, hd, rfl⟩ := Test.exists_declared_of_mem ht
    exact hd.mem_preorder
  · exact hstatement (callbackNodes_sublist.subset h)
  · exact hstatement (includeNodes_sublist.subset h)

/-- Every role is reported in source order, and no call has two of them. -/
theorem roles_in_source_order (f : File) (cls : Place) (hmem : cls ∈ f.rootPlace.preorder)
    (hhead : cls.HeadFirst) (spec : Spec) (hspec : Spec.ofClass? f cls = some spec)
    (hide : Hiding) :
    let o := ofSpec f hide spec
    (∀ p ∈ o.testNodes ++ o.callbackNodes ++ o.includeNodes,
      f.rootPlace.preorder[p.number]? = some p) ∧
    o.testNodes.Pairwise (fun p q => p.number < q.number) ∧
    o.callbackNodes.Pairwise (fun p q => p.number < q.number) ∧
    o.includeNodes.Pairwise (fun p q => p.number < q.number) ∧
    o.testNodes.Disjoint o.callbackNodes ∧ o.testNodes.Disjoint o.includeNodes ∧
    o.callbackNodes.Disjoint o.includeNodes ∧
    ∀ t ∈ o.testNodes, ∀ p ∈ o.callbackNodes ++ o.includeNodes, p ∉ t.preorder := by
  obtain ⟨rfl, -⟩ := Spec.ofClass?_eq_some hspec
  have hcalls := pairwise_number_lifecycleCalls spec.node
  refine ⟨?_, Test.pairwise_number_nodes f hhead, hcalls.sublist callbackNodes_sublist,
    hcalls.sublist includeNodes_sublist, ?_, ?_, disjoint_callbackNodes_includeNodes,
    fun t ht p hp => notMem_preorder_of_mem ht hp⟩
  · intro p hp
    exact Place.getElem?_preorder_number
      (Place.mem_preorder_trans hmem (mem_preorder_of_mem_nodes hp))
  · intro p ht hp
    exact notMem_preorder_of_mem ht (List.mem_append_left _ hp) (Place.self_mem_preorder p)
  · intro p ht hp
    exact notMem_preorder_of_mem ht (List.mem_append_right _ hp) (Place.self_mem_preorder p)

def specimen : File where
  text := "class A : FunSpec(\x7b test(\"a\") \x7b \x7d \x7d) \x7b init \x7b beforeTest \x7b " ++
    "\x7d include(shared) test(\"b\") \x7b \x7d \x7d \x7d"
  root := (Node.ofPreorder
    [(⟨"source_file", 0, 94, true, false, false⟩, 1),
      (⟨"class_declaration", 0, 94, true, false, false⟩, 3),
      (⟨"identifier", 6, 7, true, true, false⟩, 0),
      (⟨"delegation_specifiers", 10, 36, true, false, false⟩, 1),
      (⟨"delegation_specifier", 10, 36, true, false, false⟩, 1),
      (⟨"constructor_invocation", 10, 36, true, false, false⟩, 2),
      (⟨"user_type", 10, 17, true, false, false⟩, 0),
      (⟨"value_arguments", 17, 36, true, false, false⟩, 1),
      (⟨"value_argument", 18, 35, true, false, false⟩, 1),
      (⟨"lambda_literal", 18, 35, true, false, false⟩, 1),
      (⟨"call_expression", 20, 33, true, false, false⟩, 2),
      (⟨"call_expression", 20, 29, true, false, false⟩, 2),
      (⟨"identifier", 20, 24, true, false, false⟩, 0),
      (⟨"value_arguments", 24, 29, true, false, false⟩, 1),
      (⟨"value_argument", 25, 28, true, false, false⟩, 1),
      (⟨"string_literal", 25, 28, true, false, false⟩, 0),
      (⟨"annotated_lambda", 30, 33, true, false, false⟩, 1),
      (⟨"lambda_literal", 30, 33, true, false, false⟩, 0),
      (⟨"class_body", 37, 94, true, false, false⟩, 1),
      (⟨"anonymous_initializer", 39, 92, true, false, false⟩, 1),
      (⟨"block", 44, 92, true, false, false⟩, 3),
      (⟨"call_expression", 46, 60, true, false, false⟩, 2),
      (⟨"identifier", 46, 56, true, false, false⟩, 0),
      (⟨"annotated_lambda", 57, 60, true, false, false⟩, 1),
      (⟨"lambda_literal", 57, 60, true, false, false⟩, 0),
      (⟨"call_expression", 61, 76, true, false, false⟩, 2),
      (⟨"identifier", 61, 68, true, false, false⟩, 0),
      (⟨"value_arguments", 68, 76, true, false, false⟩, 1),
      (⟨"value_argument", 69, 75, true, false, false⟩, 1),
      (⟨"identifier", 69, 75, true, false, false⟩, 0),
      (⟨"call_expression", 77, 90, true, false, false⟩, 2),
      (⟨"call_expression", 77, 86, true, false, false⟩, 2),
      (⟨"identifier", 77, 81, true, false, false⟩, 0),
      (⟨"value_arguments", 81, 86, true, false, false⟩, 1),
      (⟨"value_argument", 82, 85, true, false, false⟩, 1),
      (⟨"string_literal", 82, 85, true, false, false⟩, 0),
      (⟨"annotated_lambda", 87, 90, true, false, false⟩, 1),
      (⟨"lambda_literal", 87, 90, true, false, false⟩, 0)]).headD default

def specimenClass : Place := specimen.rootPlace.namedChildren.headD default

lemma specimenClass_mem : specimenClass ∈ specimen.rootPlace.preorder := by
  have hchild : specimenClass ∈ specimen.rootPlace.namedChildren := List.mem_of_head? (by rfl)
  exact Place.mem_preorder_of_mem_children (Place.mem_children_of_mem_namedChildren hchild)

def specimenSpec : Spec := (Spec.ofClass? specimen specimenClass).get (by decide +kernel)

theorem roles_in_source_order_specimen :
    let o := ofSpec specimen {} specimenSpec
    (o.testNodes.map Place.number, o.callbackNodes.map Place.number,
      o.includeNodes.map Place.number) = ([10, 30], [21], [25]) ∧
    o.testNodes.Pairwise (fun p q => p.number < q.number) ∧
    ∀ t ∈ o.testNodes, ∀ p ∈ o.callbackNodes ++ o.includeNodes, p ∉ t.preorder := by
  obtain ⟨-, hsorted, -, -, -, -, -, houtside⟩ := roles_in_source_order specimen specimenClass
    specimenClass_mem (by decide +kernel) specimenSpec (Option.some_get _).symm {}
  exact ⟨by decide +kernel, hsorted, houtside⟩

end Outline

end SpecAtlas
