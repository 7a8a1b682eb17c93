import Mathlib.Logic.Relation
import SpecAtlas.Proofs.Report.Position

/-! Markers beside the lines of a file. A test is marked at the word that its head opens with, or,
if it is configured, at the separator before `config`. From each of these nodes the walk through the
calls that invoke one another ends at the call of the test, and nothing on the way to the class
rules a test out, so that the marker shows the test of the outline. -/

namespace SpecAtlas

open Source Relation

namespace Source.Place

def Calls (p c : Place) : Prop := ∃ parts, p.callParts? = some parts ∧ parts.callee = c

variable {p c nav sep : Place}

lemma Calls.mem_children (h : Calls p c) : c ∈ p.children := by
  obtain ⟨parts, hparts, rfl⟩ := h
  exact mem_children_of_mem_namedChildren (callee_mem_namedChildren hparts)

lemma Calls.invokes (h : Calls p c) : p.invokes c = true := by
  obtain ⟨parts, hparts, rfl⟩ := h
  rw [Place.invokes, hparts]
  exact same_self parts.callee

lemma Calls.kind (h : Calls p c) : p.kind = "call_expression" := by
  obtain ⟨parts, hparts, -⟩ := h
  exact callParts?_kind hparts

lemma parent?_of_mem_children (h : c ∈ p.children) : c.parent? = some p := by
  obtain ⟨i, hi, rfl⟩ := mem_children.mp h
  exact parent?_child ..

lemma outermostCall?_of_isCallee_eq_false (h : p.isCallee = false) : p.outermostCall? = none := by
  cases hparent : p.parent? with
  | none =>
    obtain ⟨node, above⟩ := p
    cases above with
    | nil => rfl
    | cons s rest => cases hparent
  | some q =>
    have hinvokes : q.invokes p = false := by simpa [isCallee, hparent] using h
    rw [outermostCall?_of_parent? hparent, hinvokes, if_neg Bool.false_ne_true]

lemma outermostCall?_of_calls (h : TransGen Calls p c) (hp : p.isCallee = false) :
    c.outermostCall? = some p := by
  induction h with
  | single hcall =>
    rw [outermostCall?_of_parent? (parent?_of_mem_children hcall.mem_children),
      if_pos hcall.invokes, outermostCall?_of_isCallee_eq_false hp, Option.getD_none]
  | tail _ hcall ih =>
    rw [outermostCall?_of_parent? (parent?_of_mem_children hcall.mem_children),
      if_pos hcall.invokes, ih, Option.getD_some]

lemma mem_preorder_of_calls (h : TransGen Calls p c) : c ∈ p.preorder := by
  induction h with
  | single hcall => exact mem_preorder_of_mem_children hcall.mem_children
  | tail _ hcall ih =>
    exact mem_preorder_trans ih (mem_preorder_of_mem_children hcall.mem_children)

lemma ancestors_of_calls (h : TransGen Calls p c) :
    ∃ between, c.ancestors = between ++ p.lineage ∧ ∀ a ∈ between, a.kind = "call_expression" := by
  induction h with
  | single hcall => exact ⟨[], ancestors_of_mem_children hcall.mem_children, by simp⟩
  | @tail b c _ hcall ih =>
    obtain ⟨between, he, hbetween⟩ := ih
    refine ⟨b :: between, ?_, List.forall_mem_cons.mpr ⟨hcall.kind, hbetween⟩⟩
    rw [ancestors_of_mem_children hcall.mem_children, lineage, he, List.cons_append]

lemma kind_of_navigationParts? {found : Place × Place} (h : nav.navigationParts? = some found) :
    nav.kind = "navigation_expression" := by
  by_contra hk
  simp [navigationParts?, guard, hk] at h

def separators (nav : Place) : List Place :=
  (nav.children ++ (nav.children.filter (·.kind == "navigation_suffix")).flatMap children).filter
    isSeparator

def Separated (p : Place) : Prop :=
  ∀ nav ∈ p.preorder, nav.kind = "navigation_expression" → nav.separators ≠ []

instance (p : Place) : Decidable p.Separated :=
  inferInstanceAs (Decidable
    (∀ nav ∈ p.preorder, nav.kind = "navigation_expression" → nav.separators ≠ []))

lemma isSeparator_of_mem (h : sep ∈ nav.separators) : sep.isSeparator = true :=
  (List.mem_filter.mp h).2

lemma mem_separators_cases (h : sep ∈ nav.separators) :
    sep ∈ nav.children ∨
      ∃ suffix ∈ nav.children, suffix.kind = "navigation_suffix" ∧ sep ∈ suffix.children := by
  obtain ⟨hsep, -⟩ := List.mem_filter.mp h
  rcases List.mem_append.mp hsep with hsep | hsep
  · exact .inl hsep
  · obtain ⟨suffix, hsuffix, hsep⟩ := List.mem_flatMap.mp hsep
    obtain ⟨hchild, hk⟩ := List.mem_filter.mp hsuffix
    exact .inr ⟨suffix, hchild, by simpa using hk, hsep⟩

lemma navigationOfSeparator?_of_mem (h : sep ∈ nav.separators)
    (hnav : nav.kind = "navigation_expression") : sep.navigationOfSeparator? = some nav := by
  have hsep := isSeparator_of_mem h
  rcases mem_separators_cases h with hchild | ⟨suffix, hsuffix, hk, hchild⟩
  · simp [navigationOfSeparator?, hsep, parent?_of_mem_children hchild, hnav]
  · simp [navigationOfSeparator?, hsep, parent?_of_mem_children hchild, hk,
      parent?_of_mem_children hsuffix, hnav, Option.filter]

lemma mem_preorder_of_mem_separators (h : sep ∈ nav.separators) : sep ∈ nav.preorder := by
  rcases mem_separators_cases h with hchild | ⟨suffix, hsuffix, -, hchild⟩
  · exact mem_preorder_of_mem_children hchild
  · exact mem_preorder_trans (mem_preorder_of_mem_children hsuffix)
      (mem_preorder_of_mem_children hchild)

end Source.Place

namespace Spec

def IsOpening (style : Style) (f : File) (p : Place) : Prop :=
  match style with
  | .string => p.kind = "string_literal"
  | _ => p.isIdentifier = true ∧ (style.keyword? (Text.stripBackticks (f.textOf p))).isSome

/-- The nodes at which the test of a call is marked. -/
inductive Marks (style : Style) (f : File) (p : Place) : Place → Prop
  | opening {leaf : Place} (hcalls : TransGen Place.Calls p leaf)
      (hopening : IsOpening style f leaf) : Marks style f p leaf
  | separator {nav receiver selector leaf : Place} (hcalls : TransGen Place.Calls p nav)
      (hnav : nav.navigationParts? = some (receiver, selector))
      (hconfig : Text.stripBackticks (f.textOf selector) = "config")
      (hleaf : leaf ∈ nav.separators) : Marks style f p leaf

variable {style : Style} {f : File} {p leaf : Place} {call : TestCall} {head : Head}

lemma calls_of_stem? {callee : Place} {arguments : List Place} {s : Stem}
    (h : stem? callee arguments = some s) : ReflTransGen Place.Calls callee s.place := by
  fun_induction stem? callee arguments with
  | case1 => cases h
  | case2 callee =>
    obtain rfl := Option.some.inj h
    exact .refl
  | case3 callee _ _ inner hinner _ ih => exact .head ⟨inner, hinner, rfl⟩ (ih h)
  | case4 callee =>
    obtain rfl := Option.some.inj h
    exact .refl

lemma kind_of_stem? {callee h : Place} {arguments : List Place}
    (hs : stem? callee arguments = some (.head h)) : h.kind = "call_expression" := by
  fun_induction stem? callee arguments with
  | case1 => cases hs
  | case2 callee _ hk =>
    cases hs
    simpa using hk
  | case3 callee _ _ inner hinner _ ih => exact ih hs
  | case4 => cases hs

lemma exists_opening_of_keywordHead? (h : keywordHead? style f p = some head) :
    ∃ c, Place.Calls p c ∧ c.isIdentifier = true ∧
      (style.keyword? (Text.stripBackticks (f.textOf c))).isSome := by
  simp only [keywordHead?, Option.bind_eq_bind, Option.bind_eq_some_iff] at h
  obtain ⟨parts, hparts, _, hguard, found, hfound, -⟩ := h
  refine ⟨parts.callee, ⟨parts, hparts, rfl⟩, ?_, by rw [hfound, Option.isSome_some]⟩
  simpa [guard, Option.ite_none_right_eq_some] using hguard

lemma exists_opening_of_stringHead? (hk : p.kind = "call_expression")
    (h : stringHead? f p = some head) : ∃ c, Place.Calls p c ∧ c.kind = "string_literal" := by
  obtain ⟨literal, hliteral, -⟩ := Option.map_eq_some_iff.mp h
  rw [headLiteral?, if_neg (by simp [hk])] at hliteral
  simp only [Option.bind_eq_bind, Option.bind_eq_some_iff] at hliteral
  obtain ⟨parts, hparts, _, hguard, -⟩ := hliteral
  have hkinds : parts.callee.kind = "string_literal" ∧ parts.arguments = [] := by
    simpa [guard, Option.ite_none_right_eq_some] using hguard
  exact ⟨parts.callee, ⟨parts, hparts, rfl⟩, hkinds.1⟩

lemma exists_opening_of_head? (hk : p.kind = "call_expression") (h : head? style f p = some head) :
    ∃ c, Place.Calls p c ∧ IsOpening style f c := by
  cases style with
  | string => exact exists_opening_of_stringHead? hk h
  | _ => exact exists_opening_of_keywordHead? h

lemma exists_marks (h : testCall? style f p = some call) (hsep : p.Separated) :
    ∃ leaf, Marks style f p leaf := by
  obtain ⟨parts, head, hparts, -, hhead, -⟩ := testCall?_eq_some h
  have hcallee : Place.Calls p parts.callee := ⟨parts, hparts, rfl⟩
  rcases headOf?_cases hhead with
    ⟨inner, hstem, hinner⟩ | ⟨nav, _, receiver, selector, _, hstem, hnav, hconfig, -⟩ |
      ⟨_, _, -, -, hself⟩
  · have hcalls : TransGen Place.Calls p inner := .head' hcallee (calls_of_stem? hstem)
    obtain ⟨opening, hopening, hword⟩ := exists_opening_of_head? (kind_of_stem? hstem) hinner
    exact ⟨opening, .opening (hcalls.tail hopening) hword⟩
  · have hcalls : TransGen Place.Calls p nav := .head' hcallee (calls_of_stem? hstem)
    have hkind := Place.kind_of_navigationParts? hnav
    obtain ⟨leaf, hleaf⟩ := List.exists_mem_of_ne_nil _
      (hsep nav (Place.mem_preorder_of_calls hcalls) hkind)
    exact ⟨leaf, .separator hcalls hnav hconfig hleaf⟩
  · obtain ⟨opening, hopening, hword⟩ := exists_opening_of_head? (testCall?_kind h) hself
    exact ⟨opening, .opening (.single hopening) hword⟩

end Spec

namespace Test

def Native (p : Place) : Prop := isForeign p.kind = false ∧ p.isClass = false

lemma native_of_mem {p : Place} {kinds : List String} (h : p.kind ∈ kinds)
    (hk : ∀ k ∈ kinds, isForeign k = false ∧ k ∉ ["class_declaration", "object_declaration"] := by
      decide) : Native p := by
  simpa [Native, Place.isClass] using hk _ h

lemma inForeignContext_eq_false {leaf cls : Place} {front : List Place}
    (he : leaf.lineage = front ++ cls.lineage) (hfront : ∀ a ∈ front, Native a)
    (hcls : cls.isClass = true) : inForeignContext leaf = false := by
  have hnone : front.find? (fun p => isForeign p.kind || p.isClass) = none := by
    refine List.find?_eq_none.mpr fun a ha => ?_
    obtain ⟨hforeign, hclass⟩ := hfront a ha
    simp [hforeign, hclass]
  have hown : isForeign cls.kind = false := by
    have hk : cls.kind = "class_declaration" ∨ cls.kind = "object_declaration" := by
      simpa [Place.isClass] using hcls
    rcases hk with hk | hk <;> rw [hk] <;> decide
  have hfirst : cls.lineage.find? (fun p => isForeign p.kind || p.isClass) = some cls :=
    List.find?_cons_of_pos (by simp [hcls])
  -- the equation of the definition would be slow to state
  delta inForeignContext
  rw [he, List.find?_append, hnone, Option.none_or, hfirst]
  exact hown

lemma kind_of_isOpening {style : Style} {f : File} {p : Place} (h : Spec.IsOpening style f p) :
    p.kind ∈ ["string_literal", "identifier", "simple_identifier", "type_identifier"] := by
  cases style with
  | string => simp [show p.kind = "string_literal" from h]
  | _ => simpa [Place.isIdentifier, or_assoc] using Or.inr h.1

variable {style : Style} {f : File} {p leaf : Place}

lemma candidateOf?_of_marks (h : Spec.Marks style f p leaf) (hp : p.isCallee = false) :
    candidateOf? leaf = some p := by
  cases h with
  | opening hcalls hopening =>
    have houter := Place.outermostCall?_of_calls hcalls hp
    have hk := kind_of_isOpening hopening
    simp only [List.mem_cons, List.not_mem_nil, or_false] at hk
    rcases hk with hk | hk | hk | hk <;>
      simp [candidateOf?, Place.isSeparator, Place.isIdentifier, hk, houter]
  | separator hcalls hnav _ hleaf =>
    have hkind := Place.kind_of_navigationParts? hnav
    rw [candidateOf?, if_pos (Place.isSeparator_of_mem hleaf),
      Place.navigationOfSeparator?_of_mem hleaf hkind, Option.bind_some,
      Place.outermostCall?_of_calls hcalls hp]

lemma mem_preorder_of_marks (h : Spec.Marks style f p leaf) : leaf ∈ p.preorder := by
  cases h with
  | opening hcalls _ => exact Place.mem_preorder_of_calls hcalls
  | separator hcalls _ _ hleaf =>
    exact Place.mem_preorder_trans (Place.mem_preorder_of_calls hcalls)
      (Place.mem_preorder_of_mem_separators hleaf)

lemma lineage_of_calls {c : Place} (hcalls : TransGen Place.Calls p c) (hc : Native c) :
    ∃ front, c.lineage = front ++ p.lineage ∧ ∀ a ∈ front, Native a := by
  obtain ⟨between, he, hbetween⟩ := Place.ancestors_of_calls hcalls
  refine ⟨c :: between, by rw [Place.lineage, he, List.cons_append], ?_⟩
  exact List.forall_mem_cons.mpr
    ⟨hc, fun a ha => native_of_mem (List.mem_singleton.mpr (hbetween a ha))⟩

lemma lineage_of_separator {nav : Place} (h : leaf ∈ nav.separators) :
    ∃ front, leaf.lineage = front ++ nav.lineage ∧ ∀ a ∈ front, Native a := by
  have hk : leaf.kind ∈ [".", "?."] := by
    simpa [Place.isSeparator] using Place.isSeparator_of_mem h
  have hleaf : Native leaf := native_of_mem hk
  rcases Place.mem_separators_cases h with hchild | ⟨suffix, hsuffix, hsk, hchild⟩
  · refine ⟨[leaf], ?_, List.forall_mem_singleton.mpr hleaf⟩
    rw [Place.lineage, Place.ancestors_of_mem_children hchild, List.singleton_append]
  · have hsuffixNative : Native suffix := native_of_mem (List.mem_singleton.mpr hsk)
    refine ⟨[leaf, suffix], ?_, by simp [hleaf, hsuffixNative]⟩
    rw [Place.lineage, Place.ancestors_of_mem_children hchild, Place.lineage,
      Place.ancestors_of_mem_children hsuffix]
    rfl

lemma lineage_of_marks (h : Spec.Marks style f p leaf) :
    ∃ front, leaf.lineage = front ++ p.lineage ∧ ∀ a ∈ front, Native a := by
  cases h with
  | opening hcalls hopening =>
    exact lineage_of_calls hcalls (native_of_mem (kind_of_isOpening hopening))
  | @separator nav _ _ _ hcalls hnav _ hleaf =>
    have hnative : Native nav :=
      native_of_mem (List.mem_singleton.mpr (Place.kind_of_navigationParts? hnav))
    obtain ⟨front, he, hfront⟩ := lineage_of_separator hleaf
    obtain ⟨between, hb, hbetween⟩ := lineage_of_calls hcalls hnative
    refine ⟨front ++ between, by rw [he, hb, List.append_assoc], ?_⟩
    exact List.forall_mem_append.mpr ⟨hfront, hbetween⟩

lemma Declared.inForeignContext {cls : Place} {call : Spec.TestCall}
    (hd : Declared style f cls call) (hcls : cls.isClass = true)
    (h : Spec.Marks style f call.node leaf) : inForeignContext leaf = false := by
  obtain ⟨front, he, hfront⟩ := lineage_of_marks h
  obtain ⟨between, hb, hbetween⟩ := hd.lineage_eq
  have hlineage : leaf.lineage = (front ++ between) ++ cls.lineage := by
    rw [he, hb, List.append_assoc]
  refine inForeignContext_eq_false hlineage
    (List.forall_mem_append.mpr ⟨hfront, fun a ha => ?_⟩) hcls
  have hk : a.kind ∈ "call_expression" :: Place.scaffoldKinds := List.mem_cons.mpr (hbetween a ha)
  exact native_of_mem hk

/-- Every test of a spec is marked at some node, and from each node at which it is marked the marker
finds the test as the outline has it. -/
theorem markers_lead_to_tests (f : File) (cls : Place) (spec : Spec)
    (hspec : Spec.ofClass? f cls = some spec) (hsep : cls.Separated) (hide : Hiding) (t : Test)
    (ht : t ∈ flattenAll (Outline.ofSpec f hide spec).tests) :
    (∃ leaf, Spec.Marks spec.style f t.node leaf) ∧
      ∀ leaf, Spec.Marks spec.style f t.node leaf →
        leaf ∈ t.node.preorder ∧ atLeaf? f leaf = some t := by
  obtain ⟨hcls, hstyle⟩ := Spec.ofClass?_eq_some hspec
  have hclass := Spec.isClass_of_classify? hstyle
  obtain ⟨call, hd, rfl⟩ := exists_declared_of_mem ht
  rw [hcls] at hd
  have hcall := hd.testCall?
  have hown : call.node.Separated := fun nav hnav =>
    hsep nav (Place.mem_preorder_trans hd.mem_preorder hnav)
  refine ⟨Spec.exists_marks hcall hown, fun leaf hleaf => ⟨mem_preorder_of_marks hleaf, ?_⟩⟩
  have hcandidate : candidateOf? leaf = some call.node :=
    candidateOf?_of_marks hleaf (Spec.isCallee_of_testCall? hcall)
  simp [atLeaf?, hcandidate, hd.inForeignContext hclass hleaf, hd.enclosingClass? hclass, hstyle,
    hcall]

theorem markers_lead_to_tests_specimen :
    specimenClass.Separated ∧
      ∃ t ∈ flattenAll (Outline.ofSpec specimen {} specimenSpec).tests, t.path = "outer slow" ∧
        ∃ leaf ∈ t.node.preorder, Spec.Marks specimenSpec.style specimen t.node leaf ∧
          atLeaf? specimen leaf = some t := by
  have hsep : specimenClass.Separated := by decide +kernel
  have hsecond : (flattenAll (Outline.ofSpec specimen {} specimenSpec).tests)[1]?.map path =
      some "outer slow" := by decide +kernel
  obtain ⟨t, ht, hpath⟩ := Option.map_eq_some_iff.mp hsecond
  have hmem := List.mem_of_getElem? ht
  obtain ⟨⟨leaf, hleaf⟩, hall⟩ :=
    markers_lead_to_tests specimen specimenClass specimenSpec specimenSpec_eq hsep {} t hmem
  exact ⟨hsep, t, hmem, hpath, leaf, (hall leaf hleaf).1, hleaf, (hall leaf hleaf).2⟩

end Test

end SpecAtlas
