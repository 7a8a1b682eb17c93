import SpecAtlas.Proofs.Source.Layout
import SpecAtlas.Proofs.Spec.Alike
import SpecAtlas.Report.Build

/-! Specs in other layouts. Wrapping the arguments of calls, the names of navigations or the
statements of blocks into nodes of their own, and renaming the kind of identifiers, changes nothing
in what is reported of a class. -/

namespace SpecAtlas

open Source

variable {f f' : File} {style : Style} {p p' q q' : Place} {hide : Hiding}

namespace Source.Place.Moved

variable {r r' : Node}

lemma bounds_eq (h : Moved r r' p p') : p.start = p'.start ∧ p.stop = p'.stop := by
  rcases h.like.label_cases with hl | ⟨-, hl⟩ <;>
    exact ⟨by rw [start, start, Node.start, Node.start, hl],
      by rw [stop, stop, Node.stop, Node.stop, hl]⟩

lemma textOf_eq (htext : f.text = f'.text) (h : Moved r r' p p') : f.textOf p = f'.textOf p' := by
  rw [File.textOf, File.textOf, File.slice, File.slice, htext, h.bounds_eq.1, h.bounds_eq.2]

lemma rangeOf_eq (htext : f.text = f'.text) (h : Moved r r' p p') :
    f.rangeOf p = f'.rangeOf p' := by
  rw [File.rangeOf, File.rangeOf, File.pointAt, File.pointAt, File.pointAt, File.pointAt, htext,
    h.bounds_eq.1, h.bounds_eq.2]

lemma congruent (htext : f.text = f'.text) (r r' : Node) : Congruent f f' True (Moved r r') where
  toAlike := alike r r'
  text _ h := h.textOf_eq htext
  identifier h _ := h.textOf_eq htext
  callParts h := h.callParts?_rel
  navigationParts h := h.navigationParts?_rel

lemma testCall?_rel (htext : f.text = f'.text) (h : Moved r r' p p') :
    Option.Rel (Spec.TestCall.Alike True (Moved r r')) (Spec.testCall? style f p)
      (Spec.testCall? style f' p') :=
  (congruent htext r r').testCall?_rel h.isCallee_eq h.callParts?_rel

end Source.Place.Moved

open Source.Place (Moved)

namespace Test

def nameAt? (style : Style) (f : File) (p a : Place) : Option String := do
  let call ← Spec.testCall? style f a
  guard (call.body.covers p)
  return call.name

def namesAt (style : Style) (f : File) (p : Place) (places : List Place) : List String :=
  (places.takeWhile (!·.isClass)).filterMap (nameAt? style f p)

lemma enclosingNames_eq_namesAt (p : Place) :
    enclosingNames style f p = (namesAt style f p p.ancestors).reverse := rfl

lemma namesAt_nil : namesAt style f p [] = [] := rfl

lemma namesAt_cons (a : Place) (places : List Place) :
    namesAt style f p (a :: places) =
      if a.isClass then [] else (nameAt? style f p a).toList ++ namesAt style f p places := by
  cases hc : a.isClass with
  | true => simp [namesAt, hc]
  | false =>
    rw [namesAt, List.takeWhile_cons_of_pos (by simp [hc]), List.filterMap_cons]
    cases nameAt? style f p a <;> rfl

lemma namesAt_cons_of_plain {a : Place} (h : a.Plain) (places : List Place) :
    namesAt style f p (a :: places) = namesAt style f p places := by
  rw [namesAt_cons, if_neg (by simp [h.2]), nameAt?, Spec.testCall?_of_plain h]
  rfl

lemma nameAt?_eq {r r' : Node} {a a' : Place} (htext : f.text = f'.text) (ha : Moved r r' a a')
    (hp : Moved r r' p p') : nameAt? style f p a = nameAt? style f' p' a' := by
  refine bind_eq_of_rel (ha.testCall?_rel htext) fun call call' hcall => ?_
  have hcovers : call.body.covers p = call'.body.covers p' := by
    rw [Place.covers, Place.covers, hp.bounds_eq.1, hp.bounds_eq.2, hcall.body.bounds_eq.1,
      hcall.body.bounds_eq.2]
  rw [hcovers, hcall.name trivial]

lemma plain_of_wrapper {w : Node}
    (hw : w.kind ∈ ["call_suffix", "navigation_suffix", "statements"]) (p : Place) (j : Nat) :
    (p.child j w).Plain :=
  have hk : (p.child j w).kind ∈ ["call_suffix", "navigation_suffix", "statements"] := hw
  Place.plain_of_mem hk

lemma namesAt_lineage_eq {r r' : Node} (htext : f.text = f'.text) (hp : Moved r r' p p')
    (hq : Moved r r' q q') : namesAt style f p q.lineage = namesAt style f' p' q'.lineage := by
  induction hq with
  | root h =>
    have hroot : Moved r r' (.ofRoot r) (.ofRoot r') := .root h
    change namesAt style f p [_] = namesAt style f' p' [_]
    rw [namesAt_cons, namesAt_cons, nameAt?_eq htext hroot hp, (Moved.alike r r').isClass hroot,
      namesAt_nil, namesAt_nil]
  | @child q q' c c' i j hq hlike hcallee ih =>
    have hchild := hq.child hlike hcallee
    change namesAt style f p (_ :: q.lineage) = namesAt style f' p' (_ :: q'.lineage)
    rw [namesAt_cons, namesAt_cons, nameAt?_eq htext hchild hp, (Moved.alike r r').isClass hchild,
      ih]
  | @wrapped q q' c c' w i j k hq hlike hw hcallee ih =>
    have hchild := hq.wrapped hlike hw hcallee (k := k) (j := j)
    change namesAt style f p (_ :: q.lineage) =
      namesAt style f' p' (_ :: q'.child j w :: q'.lineage)
    rw [namesAt_cons, namesAt_cons, namesAt_cons_of_plain (plain_of_wrapper hw _ _),
      nameAt?_eq htext hchild hp, (Moved.alike r r').isClass hchild, ih]

lemma enclosingNames_eq_of_moved {r r' : Node} (htext : f.text = f'.text) (hp : Moved r r' p p') :
    enclosingNames style f p = enclosingNames style f' p' := by
  rw [enclosingNames_eq_namesAt, enclosingNames_eq_namesAt]
  refine congrArg List.reverse ?_
  cases hp with
  | root h =>
    change namesAt style f _ [] = namesAt style f' _ []
    rw [namesAt_nil, namesAt_nil]
  | child hq hlike hcallee => exact namesAt_lineage_eq htext (hq.child hlike hcallee) hq
  | @wrapped q q' c c' w i j k hq hlike hw hcallee =>
    change namesAt style f _ q.lineage = namesAt style f' _ (q'.child j w :: q'.lineage)
    rw [namesAt_cons_of_plain (plain_of_wrapper hw _ _)]
    exact namesAt_lineage_eq htext (hq.wrapped hlike hw hcallee) hq

lemma pathOf_eq_of_moved {r r' : Node} (htext : f.text = f'.text) (hp : Moved r r' p p')
    (name : String) : pathOf style f p name = pathOf style f' p' name := by
  rw [pathOf, pathOf, enclosingNames_eq_of_moved htext hp]

end Test

namespace TestReport

lemma ofTest_eq (f : File) (siblings : List Test) (t : Test) :
    ofTest f siblings t =
      { name := t.name, path := t.path, enabled := t.enabled, unique := uniqueIn siblings t.name
        range := f.rangeOf t.node, children := t.children.map (ofTest f t.children) } := by
  cases t
  rw [ofTest, ofTestsAmong_eq_map]

lemma name_ofTest (f : File) (siblings : List Test) (t : Test) :
    (ofTest f siblings t).name = t.name := by
  rw [ofTest_eq]

lemma uniqueIn_congr {ts ts' : List Test} (h : ts.map Test.name = ts'.map Test.name)
    (name : String) : uniqueIn ts name = uniqueIn ts' name := by
  have hcount := congrArg (List.countP (· == name)) h
  rw [List.countP_map, List.countP_map] at hcount
  exact congrArg (· == 1) hcount

def Agree (f f' : File) (ts ts' : List Test) : Prop :=
  ∀ siblings siblings' : List Test, siblings.map Test.name = siblings'.map Test.name →
    ts.map (ofTest f siblings) = ts'.map (ofTest f' siblings')

lemma Agree.names_eq {ts ts' : List Test} (h : Agree f f' ts ts') :
    ts.map Test.name = ts'.map Test.name := by
  have hnames := congrArg (List.map name) (h [] [] rfl)
  simpa [Function.comp_def, name_ofTest] using hnames

lemma Agree.ofTests_eq {ts ts' : List Test} (h : Agree f f' ts ts') :
    ofTests f ts = ofTests f' ts' := by
  rw [ofTests, ofTests, ofTestsAmong_eq_map, ofTestsAmong_eq_map]
  exact h ts ts' h.names_eq

lemma agree_inBlock {r r' : Node} (htext : f.text = f'.text) (hp : Moved r r' p p')
    (hk : p.kind ∉ ["call_expression", "navigation_expression"]) :
    Agree f f' (Test.inBlock style f p) (Test.inBlock style f' p') := by
  induction p using Test.inBlock.induct style f generalizing p' with
  | case1 p ih =>
    intro siblings siblings' hsiblings
    rw [Test.inBlock_eq, Test.inBlock_eq, List.map_filterMap, List.map_filterMap]
    refine filterMap_eq_of_rel (rel_mem (hp.statements_rel hk)) fun s s' hrel => ?_
    obtain ⟨hs, -, hss⟩ := hrel
    rw [Option.map_map, Option.map_map]
    refine map_eq_of_rel (rel_option_found (hss.testCall?_rel htext)) ?_
    rintro call call' ⟨hcall, hcall', hcc⟩
    have hbody := ih s hs call hcall hcc.body (by simp [(Spec.below_body hcall).2])
    simp only [Function.comp_apply, ofTest_eq, Test.ofCall, Spec.testCall?_node hcall,
      Spec.testCall?_node hcall', hcc.name trivial, hcc.enabled trivial,
      Test.pathOf_eq_of_moved htext hss,
      hss.rangeOf_eq htext, uniqueIn_congr hsiblings, hbody _ _ hbody.names_eq]

lemma Agree.flatMap {bs bs' : List Place} {g g' : Place → List Test} {R : Place → Place → Prop}
    (h : List.Forall₂ R bs bs') (hg : ∀ b b', R b b' → Agree f f' (g b) (g' b')) :
    Agree f f' (bs.flatMap g) (bs'.flatMap g') := by
  intro siblings siblings' hsiblings
  rw [List.map_flatMap, List.map_flatMap]
  exact flatMap_eq_of_rel h fun b b' hb => hg b b' hb siblings siblings' hsiblings

end TestReport

def SpecReport.ofClass? (f : File) (hide : Hiding) (cls : Place) : Option SpecReport :=
  (Spec.ofClass? f cls).map fun spec => ofOutline f (Outline.ofSpec f hide spec)

def SpecReport.ofClasses (f : File) (hide : Hiding) : List (Option SpecReport) :=
  (f.rootPlace.preorder.filter Place.isClass).map (ofClass? f hide)

def SpecReport.unqualified (r : SpecReport) : SpecReport := { r with fqn := "" }

namespace Source.Place.Moved

variable {r r' : Node}

section

variable (htext : f.text = f'.text) (h : Moved r r' p p')

include htext h

lemma ofTests_eq (hc : p.isClass = true) :
    TestReport.ofTests f (p.containers.flatMap (Test.inBlock style f)) =
      TestReport.ofTests f' (p'.containers.flatMap (Test.inBlock style f')) := by
  refine TestReport.Agree.ofTests_eq ?_
  refine .flatMap (rel_mem ((alike r r').containers h hc)) fun b b' ⟨hb, _, hbb⟩ => ?_
  exact TestReport.agree_inBlock htext hbb (notMem_of_mem_containers hb)

lemma callback_eq :
    (Callback.ofCall? f p).map (fun c => CallbackReport.mk c.kind (f.rangeOf c.node)) =
      (Callback.ofCall? f' p').map fun c => CallbackReport.mk c.kind (f'.rangeOf c.node) := by
  have hcallback := rel_option_found ((congruent htext r r').callback_rel h.callParts?_rel)
  refine map_eq_of_rel hcallback ?_
  rintro c c' ⟨hc, hc', hkind⟩
  rw [hkind, (Callback.ofCall?_eq_some hc).1, (Callback.ofCall?_eq_some hc').1, h.rangeOf_eq htext]

lemma include_eq :
    (Include.ofCall? f p).map (fun i => IncludeReport.mk i.name i.kind (f.rangeOf i.node)) =
      (Include.ofCall? f' p').map fun i => IncludeReport.mk i.name i.kind (f'.rangeOf i.node) := by
  have hinclude := rel_option_found ((congruent htext r r').include_rel h.callParts?_rel)
  refine map_eq_of_rel hinclude ?_
  rintro i i' ⟨hi, hi', hkind, hname⟩
  rw [hkind, hname trivial, (Include.ofCall?_eq_some hi).1, (Include.ofCall?_eq_some hi').1,
    h.rangeOf_eq htext]

omit htext in
lemma lifecycleCalls_rel :
    List.Forall₂ (Moved r r') (lifecycleCalls p) (lifecycleCalls p') := by
  have hblock := rel_option_and_left ((alike r r').lifecycleBlock? h)
    fun b hb => notMem_of_mem_containers (lifecycleBlock?_mem_containers hb)
  rw [lifecycleCalls, lifecycleCalls]
  refine rel_filter_of ?_ fun a b hab => hab.sameKind.beq_eq _
  generalize lifecycleBlock? p = x at hblock ⊢
  generalize lifecycleBlock? p' = y at hblock ⊢
  cases hblock with
  | none => exact .nil
  | some hb => exact hb.2.statements_rel hb.1

lemma ofOutline_eq (hc : p.isClass = true) (package : Option String) (style : Style)
    (hide : Hiding) :
    SpecReport.ofOutline f (Outline.ofSpec f hide
        ⟨p, (p.className?.map fun n => Text.stripBackticks (f.textOf n)).getD "", package, style⟩) =
      SpecReport.ofOutline f' (Outline.ofSpec f' hide
        ⟨p', (p'.className?.map fun n => Text.stripBackticks (f'.textOf n)).getD "", package,
          style⟩) := by
  have hname := map_eq_of_rel ((alike r r').className? h hc) fun n n' hn =>
    congrArg Text.stripBackticks (textOf_eq htext hn)
  have hcalls := h.lifecycleCalls_rel
  have hcallbacks := filterMap_eq_of_rel hcalls fun s s' hs => callback_eq htext hs
  have hincludes := filterMap_eq_of_rel hcalls fun s s' hs => include_eq htext hs
  have hshow {α β : Type} (hidden : Bool) (l : List α) (g : α → β) :
      (if hidden then [] else l).map g = if hidden then [] else l.map g := by
    split <;> rfl
  simp only [SpecReport.ofOutline, Outline.ofSpec, Outline.testsOf, hshow, Callback.ofClass,
    Include.ofClass, List.map_filterMap]
  rw [hname, h.rangeOf_eq htext, ofTests_eq htext h hc, hcallbacks, hincludes]
  rfl

lemma classify?_eq : Spec.classify? f p = Spec.classify? f' p' :=
  (alike r r').classify?_eq h fun _ _ _ _ _ hu => textOf_eq htext hu

lemma ofClass?_eq (hpackage : f.package? = f'.package?) :
    SpecReport.ofClass? f hide p = SpecReport.ofClass? f' hide p' := by
  rw [SpecReport.ofClass?, SpecReport.ofClass?, Spec.ofClass?, Spec.ofClass?,
    ← h.classify?_eq htext,
    hpackage, Option.map_map, Option.map_map]
  refine Option.map_congr fun style hstyle => ?_
  exact h.ofOutline_eq htext (Spec.isClass_of_classify? hstyle) _ _ _

lemma unqualified_eq :
    (SpecReport.ofClass? f hide p).map SpecReport.unqualified =
      (SpecReport.ofClass? f' hide p').map SpecReport.unqualified := by
  rw [SpecReport.ofClass?, SpecReport.ofClass?, Spec.ofClass?, Spec.ofClass?,
    ← h.classify?_eq htext,
    Option.map_map, Option.map_map, Option.map_map, Option.map_map]
  refine Option.map_congr fun style hstyle => ?_
  have heq := h.ofOutline_eq htext (Spec.isClass_of_classify? hstyle) none style hide
  have hunqualified := congrArg SpecReport.unqualified heq
  exact hunqualified

end

end Source.Place.Moved

lemma specs_ofFile (path : String) (f : File) (hide : Hiding) :
    (FileReport.ofFile path f hide).specs =
      (f.rootPlace.namedChildren.filter Place.isClass).filterMap (SpecReport.ofClass? f hide) := by
  rw [FileReport.ofFile, Outline.ofFile, Spec.topLevel, List.map_map, List.map_filterMap]
  rfl

lemma namedChildren_rel_of_like (h : f.root.Like f'.root) (hroot : f.root.kind ∉ Node.wrapped) :
    List.Forall₂ (Moved f.root f'.root) f.rootPlace.namedChildren f'.rootPlace.namedChildren :=
  (Moved.alike _ _).namedChildren_of ((Moved.root h).children_of_kind hroot)

/-- Whatever is reported of a file, but for the qualified names if the children of the root may be
wrapped. -/
structure SameReports (f f' : File) : Prop where
  unqualified (hide : Hiding) :
    (SpecReport.ofClasses f hide).map (Option.map SpecReport.unqualified) =
      (SpecReport.ofClasses f' hide).map (Option.map SpecReport.unqualified)
  classes (hide : Hiding) : f.root.kind ∉ Node.wrapped →
    SpecReport.ofClasses f hide = SpecReport.ofClasses f' hide
  file (path : String) (hide : Hiding) : f.root.kind ∉ Node.wrapped →
    FileReport.ofFile path f hide = FileReport.ofFile path f' hide
  root : f.root.kind ∉ Node.wrapped → f'.root.kind ∉ Node.wrapped

section Files

variable (htext : f.text = f'.text) (h : f.root.Like f'.root)

include htext h

lemma package?_eq_of_like (hroot : f.root.kind ∉ Node.wrapped) : f.package? = f'.package? := by
  have hheader := rel_find? (namedChildren_rel_of_like h hroot) fun _ _ hc =>
    hc.sameKind.beq_eq "package_header"
  exact bind_eq_of_rel hheader fun _ _ hc => by rw [hc.textOf_eq htext]

lemma sameReports_of_like : SameReports f f' where
  unqualified hide := by
    rw [SpecReport.ofClasses, SpecReport.ofClasses, List.map_map, List.map_map]
    exact map_list_eq_of_rel (Moved.root h).classes_rel fun _ _ hc => hc.unqualified_eq htext
  classes hide hroot :=
    map_list_eq_of_rel (Moved.root h).classes_rel fun _ _ hc =>
      hc.ofClass?_eq htext (package?_eq_of_like htext h hroot)
  file path hide hroot := by
    have hpackage := package?_eq_of_like htext h hroot
    have hclasses := rel_filter_of (namedChildren_rel_of_like h hroot) fun _ _ hc =>
      (Moved.alike _ _).isClass hc
    have hspecs : (FileReport.ofFile path f hide).specs =
        (FileReport.ofFile path f' hide).specs := by
      rw [specs_ofFile, specs_ofFile]
      exact filterMap_eq_of_rel hclasses fun _ _ hc => hc.ofClass?_eq htext hpackage
    have hfaulty : f.root.label.faulty = f'.root.label.faulty := by
      rcases h.label_cases with hl | ⟨-, hl⟩ <;> rw [hl]
    rw [FileReport.mk.injEq]
    exact ⟨rfl, hpackage, hfaulty, hspecs⟩
  root hroot := by
    rcases h.label_cases with hl | ⟨-, hl⟩
    · rwa [Node.kind, hl]
    · rw [Node.kind, hl]
      exact (by simp [Node.wrapped] : "simple_identifier" ∉ Node.wrapped)

end Files

lemma SameReports.trans {g : File} (h : SameReports f f') (h' : SameReports f' g) :
    SameReports f g where
  unqualified hide := (h.unqualified hide).trans (h'.unqualified hide)
  classes hide hroot := (h.classes hide hroot).trans (h'.classes hide (h.root hroot))
  file path hide hroot := (h.file path hide hroot).trans (h'.file path hide (h.root hroot))
  root hroot := h'.root (h.root hroot)

lemma sameReports_of_reshape (f : File) {root : Node}
    (h : Relation.ReflTransGen Node.Reshape f.root root) : SameReports f { f with root } := by
  induction h with
  | refl => exact sameReports_of_like rfl (.refl _)
  | tail _ hstep ih => exact ih.trans (sameReports_of_like rfl (.inr hstep))

/-- Any number of differences in layout, anywhere in the tree, changes nothing in what is reported
of any class. Nor do they change the report of the file, with its package, if its root has no
wrapped children. -/
theorem reports_eq_of_reshape (f : File) (root : Node)
    (h : Relation.ReflTransGen Node.Reshape f.root root) (hide : Hiding) :
    (SpecReport.ofClasses f hide).map (Option.map SpecReport.unqualified) =
      (SpecReport.ofClasses { f with root } hide).map (Option.map SpecReport.unqualified) ∧
    (f.root.kind ∉ Node.wrapped →
      SpecReport.ofClasses f hide = SpecReport.ofClasses { f with root } hide ∧
      ∀ path, FileReport.ofFile path f hide = FileReport.ofFile path { f with root } hide) := by
  have hsame := sameReports_of_reshape f h
  exact ⟨hsame.unqualified hide, fun hroot =>
    ⟨hsame.classes hide hroot, fun path => hsame.file path hide hroot⟩⟩

namespace LayoutSpecimen

def around (children : List Node) : Node :=
  .mk ⟨"source_file", 0, 43, true, false, false⟩
    [.mk ⟨"class_declaration", 0, 43, true, false, false⟩
      [.mk ⟨"identifier", 6, 7, true, true, false⟩ [],
        .mk ⟨"delegation_specifiers", 10, 43, true, false, false⟩
          [.mk ⟨"constructor_invocation", 10, 43, true, false, false⟩
            [.mk ⟨"user_type", 10, 17, true, false, false⟩ [],
              .mk ⟨"lambda_literal", 18, 42, true, false, false⟩ children]]]]

lemma reshape_around {cs cs' : List Node}
    (h : (Node.mk ⟨"lambda_literal", 18, 42, true, false, false⟩ cs).Reshape
      (.mk ⟨"lambda_literal", 18, 42, true, false, false⟩ cs')) :
    (around cs).Reshape (around cs') :=
  @Node.Reshape.inside _ [] [] _ _ (@Node.Reshape.inside _ [_] [] _ _
    (@Node.Reshape.inside _ [] [] _ _ (@Node.Reshape.inside _ [_] [] _ _ h)))

def head : Node :=
  .mk ⟨"call_expression", 20, 29, true, false, false⟩
    [.mk ⟨"identifier", 20, 24, true, false, false⟩ [],
      .mk ⟨"value_arguments", 24, 29, true, false, false⟩
        [.mk ⟨"value_argument", 25, 28, true, false, false⟩
          [.mk ⟨"string_literal", 25, 28, true, false, false⟩ []]]]

def separator : Node := .mk ⟨".", 29, 30, false, false, false⟩ []

def selector (kind : String) : Node := .mk ⟨kind, 30, 36, true, false, false⟩ []

def body : Node := .mk ⟨"lambda_literal", 37, 40, true, false, false⟩ []

def test (selection suffix : List Node) : Node :=
  .mk ⟨"call_expression", 20, 40, true, false, false⟩
    (.mk ⟨"navigation_expression", 20, 36, true, false, false⟩ (head :: selection) :: suffix)

def flat : Node := around [test [separator, selector "identifier"] [body]]

def selectionSuffix : Node :=
  .mk ⟨"navigation_suffix", 29, 36, true, false, false⟩ [separator, selector "simple_identifier"]

def callSuffix : Node := .mk ⟨"call_suffix", 37, 40, true, false, false⟩ [body]

def layered : Node :=
  around [.mk ⟨"statements", 20, 40, true, false, false⟩ [test [selectionSuffix] [callSuffix]]]

lemma reshape_flat_layered : Relation.ReflTransGen Node.Reshape flat layered := by
  have hinside {n n' : Node} (h : n.Reshape n') : (around [n]).Reshape (around [n']) :=
    reshape_around (@Node.Reshape.inside _ [] [] _ _ h)
  have hrename : (around [test [separator, selector "identifier"] [body]]).Reshape
      (around [test [separator, selector "simple_identifier"] [body]]) :=
    hinside (@Node.Reshape.inside _ [] [_] _ _ (@Node.Reshape.inside _ [_, _] [] _ _ (.rename rfl)))
  have hselect : (around [test [separator, selector "simple_identifier"] [body]]).Reshape
      (around [test [selectionSuffix] [body]]) :=
    hinside (@Node.Reshape.inside _ [] [_] _ _ (@Node.Reshape.wrap _ _ [head] _ []
      (.selector rfl rfl rfl rfl (by decide)) rfl))
  have hsuffix : (around [test [selectionSuffix] [body]]).Reshape
      (around [test [selectionSuffix] [callSuffix]]) :=
    hinside (@Node.Reshape.wrap _ _ [_] [body] [] (.suffix rfl rfl rfl) rfl)
  have hblock : (around [test [selectionSuffix] [callSuffix]]).Reshape layered :=
    reshape_around (@Node.Reshape.wrap _ _ [] [_] [] (.statements (by decide) rfl) rfl)
  exact ((Relation.ReflTransGen.single hrename |>.tail hselect).tail hsuffix).tail hblock

def file : File where
  text := "class A : FunSpec(\x7b test(\"a\").config \x7b \x7d \x7d)"
  root := flat

end LayoutSpecimen

open LayoutSpecimen in
theorem reports_eq_of_reshape_specimen :
    Relation.ReflTransGen Node.Reshape file.root layered ∧
    (FileReport.ofFile "A.kt" file {}).specs.map SpecReport.testCount = [1] ∧
    FileReport.ofFile "A.kt" file {} = FileReport.ofFile "A.kt" { file with root := layered } {} :=
  ⟨reshape_flat_layered, by decide +kernel,
    ((reports_eq_of_reshape file layered reshape_flat_layered {}).2 (by decide)).2 "A.kt"⟩

end SpecAtlas
