import Mathlib.Data.List.TakeWhile
import SpecAtlas.Proofs.Source.Edit
import SpecAtlas.Proofs.Source.WellFormed
import SpecAtlas.Proofs.Spec.Construct
import SpecAtlas.Proofs.Spec.DisplayPath

/-! Bodies around a call. The names above a call are read by comparing byte ranges. In a well-formed
tree a body covers the bytes of a call below its test exactly if it lies above the call: between a
test and its body there are no calls, and what the test holds beside its body lies apart from it. -/

namespace SpecAtlas

open Source

namespace Source.Place

variable {root : Node} {p q a l : Place} {parts : CallParts}

def isAbove (p q : Place) : Bool := q.ancestors.any p.same

def withinClassOf (p a : Place) : Bool := p.enclosingClass?.all (·.isAbove a)

lemma isAbove_iff (hp : p ∈ (ofRoot root).preorder) (hq : q ∈ (ofRoot root).preorder) :
    p.isAbove q = true ↔ p ∈ q.ancestors := by
  rw [isAbove, List.any_eq_true]
  constructor
  · rintro ⟨x, hx, hsame⟩
    have hroot := (mem_preorder_of_mem_lineage hq (List.mem_cons_of_mem _ hx)).1
    rwa [← eq_of_route_eq hp hroot (by simpa [same] using hsame)]
  · exact fun h => ⟨p, h, same_self p⟩

lemma notMem_ancestors_of_mem (h : q ∈ p.ancestors) : p ∉ q.ancestors := by
  intro hp
  have hup := length_above_lt_of_mem_ancestors h
  have hdown := length_above_lt_of_mem_ancestors hp
  omega

lemma withinClassOf_iff {cls : Place} (hp : p ∈ (ofRoot root).preorder)
    (hcls : p.enclosingClass? = some cls) (ha : a ∈ p.ancestors) :
    p.withinClassOf a = true ↔ cls ∈ a.ancestors := by
  have hroot := (mem_preorder_of_mem_lineage hp (List.mem_of_find?_eq_some hcls)).1
  have haRoot := (mem_preorder_of_mem_lineage hp (List.mem_cons_of_mem _ ha)).1
  rw [withinClassOf, hcls, Option.all_some, isAbove_iff hroot haRoot]

lemma takeWhile_ancestors_eq (hp : p ∈ (ofRoot root).preorder) (hclass : p.isClass = false) :
    p.ancestors.takeWhile (!·.isClass) = p.ancestors.filter p.withinClassOf := by
  have hfind : p.enclosingClass? = p.ancestors.find? isClass := by
    rw [enclosingClass?, lineage, List.find?_cons_of_neg (by simp [hclass])]
  cases hcls : p.ancestors.find? isClass with
  | none =>
    have hnone : ∀ a ∈ p.ancestors, a.isClass = false := by simpa using hcls
    rw [List.takeWhile_eq_self_iff.mpr (by simpa using hnone),
      List.filter_eq_self.mpr fun a _ => by simp [withinClassOf, hfind, hcls]]
  | some cls =>
    obtain ⟨hc, front, rest, he, hfront⟩ := List.find?_eq_some_iff_append.mp hcls
    have hbelow {a : Place} := withinClassOf_iff (a := a) hp (hfind.trans hcls)
    have hpair := pairwise_ancestors p
    rw [he, List.pairwise_append, List.pairwise_cons] at hpair
    rw [he] at hbelow ⊢
    rw [List.takeWhile_append_of_pos hfront, List.takeWhile_cons_of_neg (by simp [hc]),
      List.append_nil, List.filter_append, List.filter_eq_self.mpr, List.filter_eq_nil_iff.mpr,
      List.append_nil]
    · intro a ha
      rw [hbelow (List.mem_append_right _ ha)]
      rcases List.mem_cons.mp ha with rfl | ha
      · exact fun h => notMem_ancestors_of_mem h h
      · exact notMem_ancestors_of_mem (hpair.2.1.1 a ha)
    · intro a ha
      rw [hbelow (List.mem_append_left _ ha)]
      exact hpair.2.2 a ha cls (List.mem_cons_self ..)

lemma notMem_lambda_of_mem_callee (hparts : a.callParts? = some parts)
    (hl : parts.lambda = some l) (hp : p ∈ parts.callee.preorder) : p ∉ l.preorder := by
  intro hpl
  obtain ⟨callee, rest, hc, he⟩ := callParts?_eq_some hparts
  obtain ⟨c, hcr, hlc⟩ := exists_piece_of_lambda hparts hc hl
  have hpair := (pairwise_number_children a).sublist (List.filter_sublist (p := Place.named))
  rw [← namedChildren, hc, List.pairwise_cons] at hpair
  rw [he, CallParts.callee_foldl_absorb] at hp
  exact lt_irrefl _ (hpair.1 c hcr p hp p (mem_preorder_trans hlc hpl))

lemma exists_list_of_mem_arguments {callee x : Place} {pieces : List Place}
    (h : x ∈ (pieces.foldl CallParts.absorb { callee }).arguments) :
    ∃ list ∈ pieces, list.kind = "value_arguments" ∧ x ∈ list.children := by
  rw [CallParts.arguments_foldl_absorb] at h
  cases hlast : (pieces.filter isArgumentList).getLast? with
  | none => simp [hlast] at h
  | some list =>
    obtain ⟨hmem, hkind⟩ := List.mem_filter.mp (List.mem_of_getLast? hlast)
    rw [hlast, Option.map_some, Option.getD_some] at h
    refine ⟨list, hmem, by simpa [isArgumentList] using hkind, ?_⟩
    exact mem_children_of_mem_namedChildren (List.mem_filter.mp h).1

lemma notMem_lambda_of_mem_argument (hparts : a.callParts? = some parts)
    (hl : parts.lambda = some l) {x : Place} (hx : x ∈ parts.arguments) (hp : p ∈ x.preorder) :
    p ∉ l.preorder := by
  intro hpl
  obtain ⟨callee, rest, hc, rfl⟩ := callParts?_eq_some hparts
  obtain ⟨list, hlist, hk, hchild⟩ := exists_list_of_mem_arguments hx
  obtain ⟨piece, hpiece, hlambda⟩ := (CallParts.lambda_foldl_absorb hl).resolve_left (by simp)
  have hne : list ≠ piece := by
    rintro rfl
    simp [lambdaLiteral?, hk] at hlambda
  exact (pairwise_disjoint_suffixPieces hc).forall hlist hpiece hne
    (mem_preorder_trans (mem_preorder_of_mem_children hchild) hp)
    (mem_preorder_trans (mem_preorder_of_lambdaLiteral? hlambda) hpl)

end Source.Place

namespace Test

variable {style : Style} {f : File} {p a : Place} {call : Spec.TestCall}

def enclosingCalls (style : Style) (f : File) (p : Place) : List Spec.TestCall :=
  ((p.ancestors.filter p.withinClassOf).filterMap (Spec.testCall? style f)).filter
    (·.body.isAbove p)

lemma mem_ancestors_of_mem_body (h : Spec.testCall? style f a = some call)
    (hk : p.kind = "call_expression") (hp : p ∈ call.body.lineage) : p ∈ a.lineage := by
  obtain ⟨hbelow, hbody⟩ := Spec.below_body h
  obtain ⟨between, he, hscaffold⟩ := hbelow.ancestors_eq
  rw [Place.lineage, he, List.mem_cons, List.mem_append] at hp
  rcases hp with rfl | hp | hp
  · rw [hbody] at hk
    exact absurd hk (by decide)
  · exact absurd hk (hscaffold p hp).plain.1
  · exact hp

lemma covers_body_iff (hn : f.rootPlace.Nested) (ho : f.rootPlace.Ordered)
    (hp : p ∈ f.rootPlace.preorder) (hk : p.kind = "call_expression") (hfilled : p.start < p.stop)
    (ha : a ∈ p.ancestors) (h : Spec.testCall? style f a = some call) :
    call.body.covers p = true ↔ call.body ∈ p.ancestors := by
  obtain ⟨hroot, -⟩ := Place.mem_preorder_of_mem_lineage hp (List.mem_cons_of_mem _ ha)
  obtain ⟨hbelow, hbody⟩ := Spec.below_body h
  have hbodyRoot := Place.mem_preorder_trans hroot hbelow.mem_preorder
  constructor
  · intro hcovers
    have hbytes := Place.covers_iff.mp hcovers
    rcases Place.nested_or_apart hn ho hbodyRoot hp with hin | hover | hapart | hapart
    · rcases List.mem_cons.mp (Place.mem_lineage_of_mem_preorder hin) with heq | hmem
      · rw [← heq, hbody] at hk
        exact absurd hk (by decide)
      · exact hmem
    · -- a call around the body would lie above the test, which lies above the call
      have hup := mem_ancestors_of_mem_body h hk (Place.mem_lineage_of_mem_preorder hover)
      rcases List.mem_cons.mp hup with rfl | hup
      · exact absurd ha (Place.notMem_ancestors_of_mem ha)
      · exact absurd ha (Place.notMem_ancestors_of_mem hup)
    · omega
    · omega
  · intro hmem
    have hin := (Place.mem_preorder_of_mem_lineage hp (List.mem_cons_of_mem _ hmem)).2
    exact (hn.of_mem hbodyRoot).covers hin

lemma notMem_body_of_beside {parts : CallParts} (h : Spec.testCall? style f a = some call)
    (hparts : a.callParts? = some parts)
    (hbeside : p ∈ parts.callee.preorder ∨ ∃ x ∈ parts.arguments, p ∈ x.preorder) :
    p ∉ call.body.preorder := by
  obtain ⟨parts', _, hparts', hl, -⟩ := Spec.testCall?_eq_some h
  obtain rfl := Option.some.inj (hparts'.symm.trans hparts)
  rcases hbeside with hcallee | ⟨x, hx, hpx⟩
  · exact Place.notMem_lambda_of_mem_callee hparts hl hcallee
  · exact Place.notMem_lambda_of_mem_argument hparts hl hx hpx

lemma enclosingNames_eq_calls (hp : p ∈ f.rootPlace.preorder) (hclass : p.isClass = false)
    (hcovers : ∀ a ∈ p.ancestors, ∀ call, Spec.testCall? style f a = some call →
      (call.body.covers p = true ↔ call.body ∈ p.ancestors)) :
    enclosingNames style f p = (enclosingCalls style f p).reverse.map Spec.TestCall.name := by
  rw [enclosingNames, Place.takeWhile_ancestors_eq hp hclass, enclosingCalls, List.filter_filterMap,
    List.map_reverse, List.map_filterMap]
  congr 1
  refine List.filterMap_congr fun a ha => ?_
  have ha := (List.mem_filter.mp ha).1
  cases h : Spec.testCall? style f a with
  | none => rfl
  | some call =>
    have hroot := (Place.mem_preorder_of_mem_lineage hp (List.mem_cons_of_mem _ ha)).1
    have hbody := Place.mem_preorder_trans hroot (Spec.below_body h).1.mem_preorder
    have hsame : call.body.covers p = call.body.isAbove p :=
      Bool.eq_iff_iff.mpr ((hcovers a ha call h).trans (Place.isAbove_iff hbody hp).symm)
    cases habove : call.body.isAbove p <;> simp [hsame, habove, guard]

/-- The names above a call are those of the tests, below the nearest class, whose bodies lie above
it: the bytes of a body decide on what lies below it, and a call in the head or in a configuring
argument of a test is not covered by its body. -/
theorem enclosingNames_eq_of_bodies (style : Style) (f : File) (hn : f.rootPlace.Nested)
    (ho : f.rootPlace.Ordered) (p : Place) (hp : p ∈ f.rootPlace.preorder)
    (hk : p.kind = "call_expression") (hfilled : p.start < p.stop) :
    enclosingNames style f p = (enclosingCalls style f p).reverse.map Spec.TestCall.name ∧
    ∀ a ∈ p.ancestors, ∀ call, Spec.testCall? style f a = some call →
      (call.body.covers p = true ↔ call.body ∈ p.ancestors) ∧
      ∀ parts, a.callParts? = some parts →
        (p ∈ parts.callee.preorder ∨ ∃ x ∈ parts.arguments, p ∈ x.preorder) →
        call.body.covers p = false := by
  have hclass : p.isClass = false := by simp [Place.isClass, hk]
  have hcovers : ∀ a ∈ p.ancestors, ∀ call, Spec.testCall? style f a = some call →
      (call.body.covers p = true ↔ call.body ∈ p.ancestors) :=
    fun a ha call h => covers_body_iff hn ho hp hk hfilled ha h
  refine ⟨enclosingNames_eq_calls hp hclass hcovers, fun a ha call h => ?_⟩
  refine ⟨hcovers a ha call h, fun parts hparts hbeside => ?_⟩
  rw [Bool.eq_false_iff, ne_eq, hcovers a ha call h]
  intro hmem
  exact notMem_body_of_beside h hparts hbeside
    (Place.mem_preorder_of_mem_lineage hp (List.mem_cons_of_mem _ hmem)).2

def specimenHead : Place := (specimen.rootPlace.preorder[21]?).getD default

lemma specimenHead_mem : specimenHead ∈ specimen.rootPlace.preorder := by
  have hsome : (specimen.rootPlace.preorder[21]?).isSome = true := by decide +kernel
  obtain ⟨p, hp⟩ := Option.isSome_iff_exists.mp hsome
  rw [specimenHead, hp]
  exact List.mem_of_getElem? hp

theorem enclosingNames_eq_of_bodies_specimen :
    specimen.textOf specimenHead = "test(\"slow\")" ∧
      (specimenHead.ancestors.filterMap (Spec.testCall? .function specimen)).map (·.name) =
        ["slow", "outer"] ∧
      enclosingNames .function specimen specimenHead = ["outer"] ∧
      (enclosingCalls .function specimen specimenHead).reverse.map Spec.TestCall.name =
        ["outer"] := by
  obtain ⟨hnames, -⟩ := enclosingNames_eq_of_bodies .function specimen (by decide +kernel)
    (by decide +kernel) specimenHead specimenHead_mem (by decide +kernel) (by decide +kernel)
  have houter : enclosingNames .function specimen specimenHead = ["outer"] := by decide +kernel
  exact ⟨by decide +kernel, by decide +kernel, houter, hnames ▸ houter⟩

end Test

end SpecAtlas
