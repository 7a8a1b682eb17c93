import SpecAtlas.Proofs.Source.Edit
import SpecAtlas.Proofs.Spec.Alike
import SpecAtlas.Proofs.Spec.DisplayPath

/-! Edits of a spec. Whatever replaces one statement of a spec or of a test, the tests, callbacks
and includes outside of it stay where they are. Names are texts as written, so what may change
besides the statement is the name of a test or an include whose own head holds the statement, and
the paths that this name is part of. -/

namespace SpecAtlas

open Source

variable {f f' : File} {style : Style} {way : List Nat}

def Source.Place.headHolds (way : List Nat) (p : Place) : Bool :=
  (p.callParts?.map fun parts => (parts.callee :: parts.arguments).any (Place.holds way)).getD false

def Source.Place.supertypeHolds (way : List Nat) (cls : Place) : Bool :=
  (cls.supertypeCall?.bind Place.constructorType?).any (Place.holds way)

namespace Test

/-- What an edit keeps of a test: the call that introduces it and the tests inside of it; the name
and the flag, unless the edit lies in the head of the test; and the path, unless it lies in the head
of the test or of one around it. -/
structure Sketch where
  route : List Nat
  name : Option String
  enabled : Option Bool
  path : Option String
  children : List Sketch

mutual

def sketch (way : List Nat) (kept : Bool) : Test → Sketch
  | ⟨name, path, enabled, node, children⟩ =>
    let own := !node.headHolds way
    { route := node.route
      name := if own then some name else none
      enabled := if own then some enabled else none
      path := if kept && own then some path else none
      children := sketchAll way (kept && own) children }

def sketchAll (way : List Nat) (kept : Bool) : List Test → List Sketch
  | [] => []
  | t :: ts =>
    if t.node.isInside way then sketchAll way kept ts
    else t.sketch way kept :: sketchAll way kept ts

end

lemma sketch_eq (way : List Nat) (kept : Bool) (t : Test) :
    t.sketch way kept =
      let own := !t.node.headHolds way
      { route := t.node.route
        name := if own then some t.name else none
        enabled := if own then some t.enabled else none
        path := if kept && own then some t.path else none
        children := sketchAll way (kept && own) t.children } := by
  cases t
  rw [sketch]

lemma sketchAll_eq (way : List Nat) (kept : Bool) (ts : List Test) :
    sketchAll way kept ts = (ts.filter (!·.node.isInside way)).map (sketch way kept) := by
  induction ts with
  | nil => rfl
  | cons t ts ih =>
    rw [sketchAll, ih, List.filter_cons]
    cases t.node.isInside way <;> rfl

end Test

structure Outline.Sketch where
  tests : List Test.Sketch
  callbacks : List (List Nat × CallbackKind)
  includes : List (List Nat × IncludeKind × Option String)

def Outline.sketch (way : List Nat) (o : Outline) : Sketch where
  tests := Test.sketchAll way true o.tests
  callbacks := (o.callbacks.filter (!·.node.isInside way)).map fun c => (c.node.route, c.kind)
  includes := (o.includes.filter (!·.node.isInside way)).map fun i =>
    (i.node.route, i.kind, if i.node.headHolds way then none else some i.name)

lemma filter_filterMap_of {β : Type} {g : Place → Option β} {back : β → Place}
    (h : ∀ a b, g a = some b → back b = a) (ok : Place → Bool) (l : List Place) :
    (l.filterMap g).filter (fun b => ok (back b)) = (l.filter ok).filterMap g := by
  induction l with
  | nil => rfl
  | cons a l ih =>
    cases ha : g a with
    | none =>
      rw [List.filterMap_cons_none ha, ih, List.filter_cons]
      split
      · rw [List.filterMap_cons_none ha]
      · rfl
    | some b =>
      rw [List.filterMap_cons_some ha, List.filter_cons, List.filter_cons, h a b ha, ih]
      split
      · rw [List.filterMap_cons_some ha]
      · rfl

namespace Source.Place.Twins

variable {E : Prop} {p q : Place} (hedit : EditedBlock f f' way)

include hedit

lemma congruent : Congruent f f' E (Twins f f' way E) where
  toAlike := alike hedit
  text he h := (h.matches_at hedit).text (h.clear he)
  identifier h hid := (h.matches_at hedit).text (hedit.identifier h.mem h.outside hid)
  callParts h := h.callParts?_rel hedit
  navigationParts h := h.navigationParts?_rel hedit

variable (h : Twins f f' way False p q)

include h

lemma headHolds_eq : p.headHolds way = q.headHolds way := by
  refine congrArg (Option.getD · false) (map_eq_of_rel (h.callParts?_rel hedit) fun a b hab => ?_)
  have hall := List.Forall₂.cons hab.callee hab.arguments
  exact any_eq_of_rel hall fun _ _ hcd => hcd.holds_eq

lemma callParts_of_head :
    Option.Rel (CallParts.Alike (Twins f f' way (p.headHolds way = false)) (Twins f f' way False))
      p.callParts? q.callParts? := by
  refine rel_option_mono (rel_option_found (h.callParts?_rel hedit)) ?_
  rintro parts parts' ⟨hp, -, hpq⟩
  have hclear (hhead : p.headHolds way = false) :
      ∀ a ∈ parts.callee :: parts.arguments, a.holds way = false := by
    rw [headHolds, hp, Option.map_some, Option.getD_some, List.any_eq_false] at hhead
    exact fun a ha => by simpa using hhead a ha
  refine { hpq with
    callee := hpq.callee.strengthen fun hhead => hclear hhead _ (List.mem_cons_self ..)
    arguments := ?_ }
  exact (rel_mem hpq.arguments).imp fun a b ⟨ha, _, hab⟩ =>
    hab.strengthen fun hhead => hclear hhead a (List.mem_cons_of_mem _ ha)

lemma testCall?_rel :
    Option.Rel (Spec.TestCall.Alike (p.headHolds way = false) (Twins f f' way False))
      (Spec.testCall? style f p) (Spec.testCall? style f' q) :=
  (congruent hedit).testCall?_rel (h.isCallee_eq hedit) (h.callParts_of_head hedit)

end Source.Place.Twins

namespace Test

variable {cls cls' block block' s : Place} {names : List String}

inductive Opened (style : Style) (f : File) (cls : Place) : Place → List String → Prop
  | container {block : Place} : block ∈ cls.containers → Opened style f cls block []
  | body {block s : Place} {names : List String} {call : Spec.TestCall} :
      Opened style f cls block names → s ∈ block.statements →
      Spec.testCall? style f s = some call → Opened style f cls call.body (call.name :: names)

namespace Opened

lemma declared (h : Opened style f cls block names) (hs : s ∈ block.statements)
    {call : Spec.TestCall} (hcall : Spec.testCall? style f s = some call) :
    Declared style f cls call := by
  induction h generalizing s call with
  | container hb => exact .top hb hs hcall
  | body _ hs' hcall' ih => exact .nested (ih hs' hcall') hs hcall

lemma namesAbove_eq (hcls : cls.isClass = true) (h : Opened style f cls block names)
    (hs : s ∈ block.statements) : namesAbove style f s = names := by
  induction h generalizing s with
  | container hb => exact Declared.namesAbove_of_top hcls hb hs
  | body hopen hs' hcall' ih =>
    rw [Declared.namesAbove_of_nested (hopen.declared hs' hcall') hs, Spec.testCall?_node hcall',
      ih hs']

lemma pathOf_eq (hn : f.rootPlace.Nested) (hmem : cls ∈ f.rootPlace.preorder)
    (hcls : cls.isClass = true) (h : Opened style f cls block names) (hs : s ∈ block.statements)
    {call : Spec.TestCall} (hcall : Spec.testCall? style f s = some call) (name : String) :
    pathOf style f call.node name = " ".intercalate (names.reverse ++ [name]) := by
  rw [pathOf, (h.declared hs hcall).enclosingNames_eq hn hmem hcls, Spec.testCall?_node hcall,
    h.namesAbove_eq hcls hs]

end Opened

variable (hedit : Place.EditedBlock f f' way) (hn : f.rootPlace.Nested) (hn' : f'.rootPlace.Nested)
  (hcls : Place.Twins f f' way False cls cls') (hclass : cls.isClass = true)

include hedit hn hn' hcls hclass

lemma sketchAll_inBlock_eq (kept : Bool) (h : Place.Twins f f' way False block block')
    (hopen : kept = true → ∃ names, Opened style f cls block names ∧
      Opened style f' cls' block' names) :
    sketchAll way kept (inBlock style f block) = sketchAll way kept (inBlock style f' block') := by
  have hclass' : cls'.isClass = true := (Place.Twins.alike hedit).isClass hcls ▸ hclass
  induction block using inBlock.induct style f generalizing block' kept with
  | case1 block ih =>
    have hnode (g : File) (a : Place) (t : Test)
        (ht : (Spec.testCall? style g a).map (ofCall style g) = some t) : t.node = a := by
      obtain ⟨call, hcall, rfl⟩ := Option.map_eq_some_iff.mp ht
      exact Spec.testCall?_node hcall
    rw [sketchAll_eq, sketchAll_eq, inBlock_eq, inBlock_eq,
      filter_filterMap_of (hnode f) (!·.isInside way),
      filter_filterMap_of (hnode f') (!·.isInside way),
      List.map_filterMap, List.map_filterMap]
    -- outside of the edit the statements correspond, and each pair introduces the same test or none
    refine filterMap_eq_of_rel (rel_mem (h.statements_outside_rel hedit)) ?_
    rintro s s' ⟨hs, hs', hss⟩
    replace hs := (List.mem_filter.mp hs).1
    replace hs' := (List.mem_filter.mp hs').1
    rw [Option.map_map, Option.map_map]
    refine map_eq_of_rel (rel_option_found (hss.testCall?_rel hedit)) ?_
    rintro call call' ⟨hcall, hcall', hcc⟩
    have hbody := ih s hs call hcall (kept && !s.headHolds way) hcc.body fun hk => by
      rw [Bool.and_eq_true, Bool.not_eq_true'] at hk
      obtain ⟨names, ho, ho'⟩ := hopen hk.1
      exact ⟨call.name :: names, ho.body hs hcall, hcc.name hk.2 ▸ ho'.body hs' hcall'⟩
    simp only [Function.comp_apply, sketch_eq, ofCall, Spec.testCall?_node hcall,
      Spec.testCall?_node hcall', hss.route, ← hss.headHolds_eq hedit, hbody]
    cases hhead : s.headHolds way with
    | true => simp only [Bool.not_true, Bool.and_false, Bool.false_eq_true, if_false]
    | false =>
      rw [hcc.name hhead, hcc.enabled hhead]
      cases kept with
      | false => simp only [Bool.false_and, Bool.false_eq_true, if_false]
      | true =>
        -- paths are read off the tree, so they are compared through the names around the blocks
        obtain ⟨names, ho, ho'⟩ := hopen rfl
        have hpath := ho.pathOf_eq hn hcls.mem hclass hs hcall call'.name
        have hpath' := ho'.pathOf_eq hn' hcls.mem' hclass' hs' hcall' call'.name
        rw [Spec.testCall?_node hcall] at hpath
        rw [Spec.testCall?_node hcall'] at hpath'
        rw [hpath, hpath']

lemma sketchAll_containers_eq (style : Style) :
    sketchAll way true (cls.containers.flatMap (inBlock style f)) =
      sketchAll way true (cls'.containers.flatMap (inBlock style f')) := by
  simp only [sketchAll_eq, List.filter_flatMap, List.map_flatMap]
  refine flatMap_eq_of_rel (rel_mem ((Place.Twins.alike hedit).containers hcls hclass)) ?_
  rintro b b' ⟨hb, hb', hbb⟩
  simp only [← sketchAll_eq]
  exact sketchAll_inBlock_eq hedit hn hn' hcls hclass true hbb fun _ =>
    ⟨[], .container hb, .container hb'⟩

end Test

namespace Source.Place.Twins

variable {p q cls cls' : Place} (hedit : EditedBlock f f' way)

include hedit

lemma lifecycleCalls_outside_rel (h : Twins f f' way False cls cls') :
    List.Forall₂ (Twins f f' way False) ((lifecycleCalls cls).filter (!·.isInside way))
      ((lifecycleCalls cls').filter (!·.isInside way)) := by
  have hblock := (alike hedit).lifecycleBlock? h
  have hcalls (c : Place) : (lifecycleCalls c).filter (!·.isInside way) =
      (((lifecycleBlock? c).map statements |>.getD []).filter (!·.isInside way)).filter
        (·.kind == "call_expression") := List.filter_comm ..
  rw [hcalls, hcalls]
  refine rel_filter_of ?_ fun a b hab => ((alike hedit).kind hab).beq_eq _
  generalize lifecycleBlock? cls = x at hblock ⊢
  generalize lifecycleBlock? cls' = y at hblock ⊢
  cases hblock with
  | none => exact .nil
  | some hb => exact hb.statements_outside_rel hedit

lemma callback_eq (h : Twins f f' way False p q) :
    (Callback.ofCall? f p).map (fun c => (c.node.route, c.kind)) =
      (Callback.ofCall? f' q).map fun c => (c.node.route, c.kind) := by
  have hcallback := (congruent hedit).callback_rel (h.callParts?_rel hedit)
  refine map_eq_of_rel (rel_option_found hcallback) ?_
  rintro c c' ⟨hc, hc', hkind⟩
  rw [(Callback.ofCall?_eq_some hc).1, (Callback.ofCall?_eq_some hc').1, h.route, hkind]

lemma include_eq (h : Twins f f' way False p q) :
    (Include.ofCall? f p).map
        (fun i => (i.node.route, i.kind, if i.node.headHolds way then none else some i.name)) =
      (Include.ofCall? f' q).map
        fun i => (i.node.route, i.kind, if i.node.headHolds way then none else some i.name) := by
  have hinclude := (congruent hedit).include_rel (h.callParts_of_head hedit)
  refine map_eq_of_rel (rel_option_found hinclude) ?_
  rintro i i' ⟨hi, hi', hkind, hname⟩
  rw [(Include.ofCall?_eq_some hi).1, (Include.ofCall?_eq_some hi').1, h.route, hkind,
    ← h.headHolds_eq hedit]
  cases hhead : p.headHolds way with
  | true => simp only [if_true]
  | false => rw [hname hhead]

end Source.Place.Twins

namespace Outline

lemma sketch_ofSpec_eq (hedit : Place.EditedBlock f f' way) (hn : f.rootPlace.Nested)
    (hn' : f'.rootPlace.Nested) {spec spec' : Spec}
    (hspec : Place.Twins f f' way False spec.node spec'.node) (hclass : spec.node.isClass = true)
    (hstyle : spec'.style = spec.style) (hide : Hiding) :
    (ofSpec f hide spec).sketch way = (ofSpec f' hide spec').sketch way := by
  have htests := Test.sketchAll_containers_eq hedit hn hn' hspec hclass spec.style
  have hcalls := hspec.lifecycleCalls_outside_rel hedit
  have hcallbacks := filterMap_eq_of_rel hcalls fun _ _ h => h.callback_eq hedit
  have hincludes := filterMap_eq_of_rel hcalls fun _ _ h => h.include_eq hedit
  have hshow {α β : Type} (hidden : Bool) (l : List α) (ok : α → Bool) (g : α → β) :
      ((if hidden then [] else l).filter ok).map g =
        if hidden then [] else (l.filter ok).map g := by
    split <;> rfl
  have hcallback (g : File) (a : Place) (c : Callback) (hc : Callback.ofCall? g a = some c) :
      c.node = a := (Callback.ofCall?_eq_some hc).1
  have hinclude (g : File) (a : Place) (i : Include) (hi : Include.ofCall? g a = some i) :
      i.node = a := (Include.ofCall?_eq_some hi).1
  simp only [sketch, ofSpec, testsOf, hshow, Callback.ofClass, Include.ofClass, hstyle, htests]
  rw [filter_filterMap_of (hcallback f) (!·.isInside way),
    filter_filterMap_of (hcallback f') (!·.isInside way),
    filter_filterMap_of (hinclude f) (!·.isInside way),
    filter_filterMap_of (hinclude f') (!·.isInside way), List.map_filterMap, List.map_filterMap,
    List.map_filterMap, List.map_filterMap, hcallbacks, hincludes]

end Outline

def Spec.IsStatement (f : File) (s : Place) : Prop :=
  ∃ cls ∈ f.rootPlace.preorder, ∃ spec, Spec.ofClass? f cls = some spec ∧
    ∃ block, s ∈ block.statements ∧ (block ∈ cls.containers ∨
      ∃ call, Test.Declared spec.style f cls call ∧ call.body = block)

lemma Source.Place.exists_parent_of_mem_statements {block s : Place} (h : s ∈ block.statements) :
    ∃ a ∈ block.preorder, s ∈ a.children ∧ (a = block ∨ isStatementWrapper a.kind = true) := by
  cases below_of_mem_statements h with
  | child hc => exact ⟨block, self_mem_preorder block, hc, .inl rfl⟩
  | step hbelow hwrapper hc => exact ⟨_, hbelow.mem_preorder, hc, .inr hwrapper⟩

lemma Spec.IsStatement.exists_parent {s : Place} (h : IsStatement f s) :
    ∃ a ∈ f.rootPlace.preorder, s ∈ a.children ∧ a.kind ∈ Place.blocks := by
  obtain ⟨cls, hmem, spec, hspec, block, hs, hblock⟩ := h
  have hb : block ∈ cls.preorder ∧ block.kind ∈ Place.blocks := by
    rcases hblock with hb | ⟨call, hd, rfl⟩
    · have hsub : ["lambda_literal", "anonymous_initializer"] ⊆ Place.blocks := by
        simp [Place.blocks]
      exact ⟨(Place.below_of_mem_containers hb).1.mem_preorder,
        hsub (Place.kind_of_mem_containers hb)⟩
    · obtain ⟨hbelow, hk⟩ := Spec.below_body hd.testCall?
      refine ⟨Place.mem_preorder_trans hd.mem_preorder hbelow.mem_preorder, ?_⟩
      simp [hk, Place.blocks]
  obtain ⟨a, ha, hsa, hcases⟩ := Place.exists_parent_of_mem_statements hs
  refine ⟨a, Place.mem_preorder_trans hmem (Place.mem_preorder_trans hb.1 ha), hsa, ?_⟩
  rcases hcases with rfl | hwrapper
  · exact hb.2
  · have hk : a.kind ∈ ["statements", "block"] := by simpa [Place.isStatementWrapper] using hwrapper
    have hsub : ["statements", "block"] ⊆ Place.blocks := by simp [Place.blocks]
    exact hsub hk

lemma Spec.IsStatement.editedBlock {s : Place} (h : IsStatement f s) (hedit : f.Edited f' s.route)
    (hleaf : ∀ p ∈ f.rootPlace.preorder, p.isIdentifier = true → p.children = []) :
    Place.EditedBlock f f' s.route := by
  obtain ⟨a, ha, hs, hk⟩ := h.exists_parent
  have hmem := Place.mem_preorder_trans ha (Place.mem_preorder_of_mem_children hs)
  refine ⟨hedit, fun {p c} hp hc hroute => ?_, fun {p} hp hout hid => ?_⟩
  · obtain ⟨i, hi⟩ := Place.route_of_mem_children hc
    obtain ⟨j, hj⟩ := Place.route_of_mem_children hs
    have hparents : i :: p.route = j :: a.route := by rw [← hi, ← hj, hroute]
    obtain rfl := Place.eq_of_route_eq hp ha (List.cons.inj hparents).2
    exact hk
  · rw [← Bool.not_eq_true]
    intro hholds
    have hbelow := Place.mem_preorder_of_route_suffix hp hmem (Place.holds_iff.mp hholds)
    rcases Place.mem_preorder.mp hbelow with rfl | ⟨c, hc, -⟩
    · have hself := Place.isInside_iff.mpr (List.suffix_refl s.route)
      rw [hout] at hself
      cases hself
    · rw [hleaf p hp hid] at hc
      cases hc

/-- Replacing one statement of a spec or of a test by anything keeps the outline of every spec, as
far as it lies outside of the statement. A class outside of the statement stays a spec of its style,
unless the statement is part of its written supertype. -/
theorem outline_of_edited_statement (f f' : File) (hn : f.rootPlace.Nested)
    (hn' : f'.rootPlace.Nested)
    (hleaf : ∀ p ∈ f.rootPlace.preorder, p.isIdentifier = true → p.children = [])
    (s : Place) (hs : Spec.IsStatement f s) (hedit : f.Edited f' s.route)
    (cls : Place) (hmem : cls ∈ f.rootPlace.preorder) (hout : cls.isInside s.route = false)
    (spec : Spec) (hspec : Spec.ofClass? f cls = some spec) :
    ∃ cls' ∈ f'.rootPlace.preorder, cls'.route = cls.route ∧
      (cls.supertypeHolds s.route = false →
        ∃ spec', Spec.ofClass? f' cls' = some spec' ∧ spec'.style = spec.style) ∧
      ∀ spec', Spec.ofClass? f' cls' = some spec' → spec'.style = spec.style →
        ∀ hide, (Outline.ofSpec f hide spec).sketch s.route =
          (Outline.ofSpec f' hide spec').sketch s.route := by
  have hblock := hs.editedBlock hedit hleaf
  obtain ⟨cls', htwins⟩ := Place.Twins.exists_twin hblock hmem hout
  obtain ⟨rfl, hstyle⟩ := Spec.ofClass?_eq_some hspec
  refine ⟨cls', htwins.mem', htwins.route.symm, fun hwritten => ?_, fun spec' hspec' hstyle' hide =>
    ?_⟩
  · have hclassify : Spec.classify? f spec.node = Spec.classify? f' cls' := by
      refine (Place.Twins.alike hblock).classify?_eq htwins fun call written hcall htype u hu => ?_
      refine (hu.matches_at hblock).text ?_
      rwa [Place.supertypeHolds, hcall, Option.bind_some, htype, Option.any_some] at hwritten
    exact Spec.exists_ofClass? (hclassify ▸ hstyle)
  · obtain ⟨rfl, -⟩ := Spec.ofClass?_eq_some hspec'
    have hclass := Spec.isClass_of_classify? hstyle
    exact Outline.sketch_ofSpec_eq hblock hn hn' htwins hclass hstyle' hide

lemma headD_mem {α : Type} {l : List α} (h : l.isEmpty = false) (a : α) : l.headD a ∈ l := by
  cases l with
  | nil => cases h
  | cons b l => exact List.mem_cons_self ..

namespace EditSpecimen

def file (word kind : String) : File where
  text := "class A : StringSpec \x7b " ++ word ++ " \"a\" \x7b \x7d \x7d"
  root := (Node.ofPreorder
    [(⟨"source_file", 0, 36, true, false, false⟩, 1),
      (⟨"class_declaration", 0, 36, true, false, false⟩, 1),
      (⟨"delegation_specifier", 10, 36, true, false, false⟩, 1),
      (⟨"constructor_invocation", 10, 36, true, false, false⟩, 2),
      (⟨"user_type", 10, 20, true, false, false⟩, 0),
      (⟨"lambda_literal", 21, 36, true, false, false⟩, 2),
      (⟨kind, 23, 26, true, false, kind == "ERROR"⟩, 0),
      (⟨"call_expression", 27, 34, true, false, false⟩, 2),
      (⟨"string_literal", 27, 30, true, false, false⟩, 0),
      (⟨"lambda_literal", 31, 34, true, false, false⟩, 0)]).headD default

def before : File := file "foo" "identifier"

def after : File := file "%%%" "ERROR"

def cls : Place := before.rootPlace.namedChildren.headD default

def block : Place := cls.containers.headD default

def statement : Place := block.statements.headD default

def spot : List Nat := [0, 1, 0, 0, 0]

lemma facts :
    (before.rootPlace.Nested ∧ after.rootPlace.Nested ∧ before.Edited after spot) ∧
    (∀ p ∈ before.rootPlace.preorder, p.isIdentifier = true → p.children.isEmpty = true) ∧
    (before.rootPlace.namedChildren.isEmpty = false ∧ cls.containers.isEmpty = false ∧
      block.statements.isEmpty = false ∧ statement.route = spot) ∧
    (cls.isInside spot = false ∧ cls.supertypeHolds spot = false) ∧
    (Spec.ofClass? before cls).map (fun spec => (Outline.testsOf before spec).map Test.name) =
      some ["a"] := by
  decide +kernel

lemma cls_mem : cls ∈ before.rootPlace.preorder :=
  Place.mem_preorder_of_mem_children
    (Place.mem_children_of_mem_namedChildren (headD_mem facts.2.2.1.1 _))

lemma exists_spec : ∃ spec, Spec.ofClass? before cls = some spec ∧
    (Outline.testsOf before spec).map Test.name = ["a"] :=
  Option.map_eq_some_iff.mp facts.2.2.2.2

lemma isStatement : Spec.IsStatement before statement := by
  obtain ⟨spec, hspec, -⟩ := exists_spec
  obtain ⟨-, hcontainers, hstatements, -⟩ := facts.2.2.1
  exact ⟨cls, cls_mem, spec, hspec, block, headD_mem hstatements _, .inl (headD_mem hcontainers _)⟩

end EditSpecimen

open EditSpecimen in
theorem outline_of_edited_statement_specimen :
    ∃ spec, Spec.ofClass? before cls = some spec ∧
      (Outline.testsOf before spec).map Test.name = ["a"] ∧
      ∃ cls' ∈ after.rootPlace.preorder, cls'.route = cls.route ∧
        ∃ spec', Spec.ofClass? after cls' = some spec' ∧ spec'.style = spec.style ∧
          (Outline.ofSpec before {} spec).sketch statement.route =
            (Outline.ofSpec after {} spec').sketch statement.route := by
  obtain ⟨⟨hn, hn', hedit⟩, hleaf, ⟨-, -, -, hroute⟩, ⟨hout, hwritten⟩, -⟩ := facts
  rw [← hroute] at hedit hout hwritten
  obtain ⟨spec, hspec, hnames⟩ := exists_spec
  obtain ⟨cls', hmem, hcls, hstyle, hsketch⟩ := outline_of_edited_statement before after hn hn'
    (fun p hp hid => List.isEmpty_iff.mp (hleaf p hp hid)) statement isStatement hedit cls cls_mem
    hout spec hspec
  obtain ⟨spec', hspec', hsame⟩ := hstyle hwritten
  exact ⟨spec, hspec, hnames, cls', hmem, hcls, spec', hspec', hsame, hsketch spec' hspec' hsame {}⟩

lemma edited_of_texts {root : Node} {text text' : String}
    (h : ∀ p ∈ (Place.ofRoot root).preorder, p.isInside way = false → p.holds way = false →
      File.textOf ⟨text, root⟩ p = File.textOf ⟨text', root⟩ p) :
    File.Edited ⟨text, root⟩ ⟨text', root⟩ way := by
  intro p hp q hq hroute hout
  obtain rfl := Place.eq_of_route_eq hp hq hroute
  exact ⟨rfl, rfl, rfl, rfl, h q hp hout⟩

namespace NameSpecimen

def root : Node :=
  (Node.ofPreorder
    [(⟨"source_file", 0, 65, true, false, false⟩, 1),
      (⟨"class_declaration", 0, 65, true, false, false⟩, 1),
      (⟨"delegation_specifier", 10, 65, true, false, false⟩, 1),
      (⟨"constructor_invocation", 10, 65, true, false, false⟩, 2),
      (⟨"user_type", 10, 17, true, false, false⟩, 0),
      (⟨"lambda_literal", 18, 65, true, false, false⟩, 1),
      (⟨"call_expression", 20, 63, true, false, false⟩, 3),
      (⟨"identifier", 20, 24, true, false, false⟩, 0),
      (⟨"value_arguments", 24, 59, true, false, false⟩, 1),
      (⟨"value_argument", 25, 58, true, false, false⟩, 1),
      (⟨"call_expression", 25, 58, true, false, false⟩, 2),
      (⟨"identifier", 25, 28, true, false, false⟩, 0),
      (⟨"lambda_literal", 29, 58, true, false, false⟩, 1),
      (⟨"class_declaration", 31, 56, true, false, false⟩, 1),
      (⟨"delegation_specifier", 41, 56, true, false, false⟩, 1),
      (⟨"constructor_invocation", 41, 56, true, false, false⟩, 2),
      (⟨"user_type", 41, 48, true, false, false⟩, 0),
      (⟨"lambda_literal", 49, 56, true, false, false⟩, 1),
      (⟨"identifier", 51, 54, true, false, false⟩, 0),
      (⟨"lambda_literal", 60, 63, true, false, false⟩, 0)]).headD default

def before : File :=
  ⟨"class A : FunSpec \x7b test(run \x7b class L : FunSpec \x7b foo \x7d \x7d) \x7b \x7d \x7d",
    root⟩

def after : File :=
  ⟨"class A : FunSpec \x7b test(run \x7b class L : FunSpec \x7b bar \x7d \x7d) \x7b \x7d \x7d",
    root⟩

def classes : List Place := (Place.ofRoot root).preorder.filter Place.isClass

def outer : Place := classes.headD default

def inner : Place := classes.reverse.headD default

def block : Place := inner.containers.headD default

def statement : Place := block.statements.headD default

def spot : List Nat := [0, 1, 0, 0, 0, 1, 0, 0, 1, 0, 1, 0, 0, 0]

def names (f : File) : Option (List (String × Bool)) :=
  (Spec.ofClass? f outer).map fun spec =>
    (Outline.testsOf f spec).map fun t => (t.name, t.node.isInside spot)

lemma facts :
    (Place.ofRoot root).Nested ∧
    (∀ p ∈ (Place.ofRoot root).preorder, p.isInside spot = false → p.holds spot = false →
      before.textOf p = after.textOf p) ∧
    (classes.reverse.isEmpty = false ∧ inner.containers.isEmpty = false ∧
      block.statements.isEmpty = false ∧ statement.route = spot) ∧
    (Spec.ofClass? before inner).isSome = true ∧
    names before = some [("run \x7b class L : FunSpec \x7b foo \x7d \x7d", false)] ∧
    names after = some [("run \x7b class L : FunSpec \x7b bar \x7d \x7d", false)] := by
  decide +kernel

lemma isStatement : Spec.IsStatement before statement := by
  obtain ⟨-, -, ⟨hclasses, hcontainers, hstatements, -⟩, hspec, -⟩ := facts
  obtain ⟨spec, hspec⟩ := Option.isSome_iff_exists.mp hspec
  have hinner : inner ∈ classes := List.mem_reverse.mp (headD_mem hclasses _)
  exact ⟨inner, List.mem_of_mem_filter hinner, spec, hspec, block, headD_mem hstatements _,
    .inl (headD_mem hcontainers _)⟩

end NameSpecimen

open NameSpecimen in
/-- A name is what is written, so a test that stands outside of a statement may be named after it.
-/
theorem name_follows_statement :
    Spec.IsStatement before statement ∧ before.Edited after statement.route ∧
    before.rootPlace.Nested ∧ after.rootPlace.Nested ∧ statement.route = spot ∧
    names before = some [("run \x7b class L : FunSpec \x7b foo \x7d \x7d", false)] ∧
    names after = some [("run \x7b class L : FunSpec \x7b bar \x7d \x7d", false)] := by
  obtain ⟨hn, htext, ⟨-, -, -, hroute⟩, -, hbefore, hafter⟩ := facts
  refine ⟨isStatement, ?_, hn, hn, hroute, hbefore, hafter⟩
  rw [hroute]
  exact edited_of_texts htext

end SpecAtlas
