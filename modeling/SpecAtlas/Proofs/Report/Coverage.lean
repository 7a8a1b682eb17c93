import SpecAtlas.Proofs.Report.Position

/-! Positions inside tests. The descent to the smallest node at a position enters every node whose
shown range contains the position, so the walk back to the root from there meets a test no larger
than any test around the position. -/

namespace SpecAtlas

open Source

namespace Source

lemma Point.before_eq_false_iff {p q : Point} :
    p.before q = false ↔ q.row < p.row ∨ q.row = p.row ∧ q.column ≤ p.column := by
  rw [Bool.eq_false_iff, ne_eq, before_iff]
  omega

def TextRange.Within (r s : TextRange) : Prop :=
  (s.startLine < r.startLine ∨ s.startLine = r.startLine ∧ s.startColumn ≤ r.startColumn) ∧
    (r.endLine < s.endLine ∨ r.endLine = s.endLine ∧ r.endColumn ≤ s.endColumn)

namespace File

def Filled (f : File) : Prop := ∀ p ∈ f.rootPlace.preorder, p.start < p.stop

instance (f : File) : Decidable f.Filled :=
  inferInstanceAs (Decidable (∀ p ∈ f.rootPlace.preorder, p.start < p.stop))

def Holds (f : File) (p : Place) (target : Point) : Prop :=
  target.before (f.pointAt p.start) = false ∧ target.before (f.pointAt p.stop) = true

variable {f : File} {target : Point} {p q : Place}

lemma pointAt_mono (f : File) {m n : Nat} (h : m ≤ n) :
    (f.pointAt m).row < (f.pointAt n).row ∨
      (f.pointAt m).row = (f.pointAt n).row ∧ (f.pointAt m).column ≤ (f.pointAt n).column := by
  rcases Nat.lt_or_eq_of_le h with hlt | rfl
  · have hbefore : (f.pointAt m).before (f.pointAt n) = true := Point.before_ofOffset _ hlt
    rw [Point.before_iff] at hbefore
    omega
  · exact .inr ⟨rfl, le_rfl⟩

lemma Holds.mono (h : f.Holds q target) (hstart : p.start ≤ q.start) (hstop : q.stop ≤ p.stop) :
    f.Holds p target := by
  have hfirst := f.pointAt_mono hstart
  have hlast := f.pointAt_mono hstop
  simp only [Holds, Point.before_eq_false_iff, Point.before_iff] at *
  omega

lemma Holds.of_mem_preorder (h : f.Holds q target) (hn : p.Nested) (hq : q ∈ p.preorder) :
    f.Holds p target :=
  h.mono (hn.bounds hq).1 (hn.bounds hq).2

lemma reaches_eq_before (hf : p.start < p.stop) :
    f.reaches target p = target.before (f.pointAt p.stop) := by
  have hne : (p.start == p.stop) = false := by simpa using hf.ne
  rw [reaches, hne, Bool.false_and, Bool.or_false]

lemma reaches_of_stop_le (hf : p.start < p.stop) (hle : p.stop ≤ q.start) (h : f.Holds q target) :
    f.reaches target p = false := by
  have hlast := f.pointAt_mono hle
  rw [reaches_eq_before hf]
  simp only [Holds, Point.before_eq_false_iff] at *
  omega

lemma childAt?_of_holds (ho : p.Ordered) (hf : ∀ d ∈ p.children, d.start < d.stop) {c : Place}
    (hc : c ∈ p.children) (h : f.Holds c target) : f.childAt? target p = some c := by
  obtain ⟨front, back, he⟩ := List.append_of_mem hc
  have hpair := ho p (Place.self_mem_preorder p)
  rw [he, List.pairwise_append] at hpair
  have hreach : f.reaches target c = true := (reaches_eq_before (hf c hc)).trans h.2
  -- the children before end where this one starts or earlier, so none of them is found first
  have hfront : ∀ d ∈ front, f.reaches target d = false := fun d hd => by
    have hd' : d ∈ p.children := he ▸ List.mem_append_left _ hd
    exact reaches_of_stop_le (hf d hd') (hpair.2.2 d hd c (List.mem_cons_self ..)) h
  have hfind : p.children.find? (f.reaches target) = some c :=
    List.find?_eq_some_iff_append.mpr
      ⟨hreach, front, back, he, fun d hd => by simp [hfront d hd]⟩
  rw [childAt?, hfind, Option.filter_some, h.1]
  rfl

lemma mem_children_of_childAt? {c : Place} (h : f.childAt? target p = some c) :
    c ∈ p.children :=
  List.mem_of_find?_eq_some (Option.filter_eq_some_iff.mp h).1

lemma descend_mem_of_holds (hwf : f.WellFormed) (hfilled : f.Filled)
    (hp : p ∈ f.rootPlace.preorder) (hq : q ∈ p.preorder) (h : f.Holds q target) :
    f.descend target p ∈ q.preorder := by
  have hchild {p c : Place} (hp : p ∈ f.rootPlace.preorder) (hc : c ∈ p.children) :
      c ∈ f.rootPlace.preorder :=
    Place.mem_preorder_trans hp (Place.mem_preorder_of_mem_children hc)
  have hstep {p c : Place} (hp : p ∈ f.rootPlace.preorder) (hc : c ∈ p.children)
      (hq : q ∈ c.preorder) : f.childAt? target p = some c :=
    childAt?_of_holds (hwf.ordered.of_mem hp) (fun d hd => hfilled d (hchild hp hd)) hc
      (h.of_mem_preorder (hwf.nested.of_mem (hchild hp hc)) hq)
  fun_induction f.descend target p with
  | case1 p c hc ih =>
    rcases Place.mem_preorder.mp hq with rfl | ⟨d, hd, hqd⟩
    · have hcp := Place.mem_preorder_of_mem_children (mem_children_of_childAt? hc)
      exact Place.mem_preorder_trans hcp (f.descend_mem_preorder target c)
    · obtain rfl := Option.some.inj (hc.symm.trans (hstep hp hd hqd))
      exact ih (hchild hp hd) hqd
  | case2 p hnone =>
    rcases Place.mem_preorder.mp hq with rfl | ⟨d, hd, hqd⟩
    · exact Place.self_mem_preorder q
    · cases hnone.symm.trans (hstep hp hd hqd)

lemma holds_descend (hfilled : f.Filled) (hp : p ∈ f.rootPlace.preorder) (h : f.Holds p target) :
    f.Holds (f.descend target p) target := by
  fun_induction f.descend target p with
  | case1 p c hc ih =>
    obtain ⟨hfind, hstart⟩ := Option.filter_eq_some_iff.mp hc
    have hcp := Place.mem_preorder_of_mem_children (mem_children_of_childAt? hc)
    have hmem := Place.mem_preorder_trans hp hcp
    have hreach := List.find?_some hfind
    rw [reaches_eq_before (hfilled c hmem)] at hreach
    exact ih hmem ⟨by simpa using hstart, hreach⟩
  | case2 p => exact h

lemma toNat_ofNat_pointAt (hwf : f.WellFormed) {n : Nat} (h : n ≤ f.text.utf8ByteSize) :
    (UInt32.ofNat ((f.pointAt n).row + 1)).toNat = (f.pointAt n).row + 1 ∧
      (UInt32.ofNat ((f.pointAt n).column + 1)).toNat = (f.pointAt n).column + 1 := by
  have hb : (f.pointAt n).row ≤ n ∧ (f.pointAt n).column ≤ n := Point.bounds_ofOffset _ n
  have hs := hwf.short
  have hsize : UInt32.size = 2 ^ 32 := rfl
  constructor
  · apply UInt32.toNat_ofNat_of_lt'
    omega
  · apply UInt32.toNat_ofNat_of_lt'
    omega

-- no line and no column of a node wraps around
lemma toNat_rangeOf (hwf : f.WellFormed) (hfilled : f.Filled) (hp : p ∈ f.rootPlace.preorder) :
    ((f.rangeOf p).startLine.toNat = (f.pointAt p.start).row + 1 ∧
      (f.rangeOf p).startColumn.toNat = (f.pointAt p.start).column + 1) ∧
    (f.rangeOf p).endLine.toNat = (f.pointAt p.stop).row + 1 ∧
      (f.rangeOf p).endColumn.toNat = (f.pointAt p.stop).column + 1 := by
  have hstop := hwf.stop_le hp
  exact ⟨toNat_ofNat_pointAt hwf ((hfilled p hp).le.trans hstop), toNat_ofNat_pointAt hwf hstop⟩

lemma contains_rangeOf_iff (hwf : f.WellFormed) (hfilled : f.Filled)
    (hp : p ∈ f.rootPlace.preorder) {line column : UInt32} (hl : 1 ≤ line) (hc : 1 ≤ column) :
    (f.rangeOf p).contains line column = true ↔
      f.Holds p ⟨line.toNat - 1, column.toNat - 1⟩ := by
  obtain ⟨⟨hsl, hsc⟩, hel, hec⟩ := toNat_rangeOf hwf hfilled hp
  have hl' : 1 ≤ line.toNat := UInt32.le_iff_toNat_le.mp hl
  have hc' : 1 ≤ column.toNat := UInt32.le_iff_toNat_le.mp hc
  simp only [TextRange.contains, Holds, Point.before_eq_false_iff, Point.before_iff,
    Bool.and_eq_true, Bool.or_eq_true, decide_eq_true_eq, beq_iff_eq, UInt32.lt_iff_toNat_lt,
    UInt32.le_iff_toNat_le, ← UInt32.toNat_inj, hsl, hsc, hel, hec]
  omega

lemma placeAt_of_contains (hwf : f.WellFormed) (hfilled : f.Filled) (hp : p ∈ f.rootPlace.preorder)
    {line column : UInt32} (hl : 1 ≤ line) (hc : 1 ≤ column)
    (h : (f.rangeOf p).contains line column = true) :
    f.placeAt line column ∈ p.preorder ∧ ∀ x ∈ f.rootPlace.preorder,
      f.placeAt line column ∈ x.preorder → (f.rangeOf x).contains line column = true := by
  have hpoint := (contains_rangeOf_iff hwf hfilled hp hl hc).mp h
  have hroot := Place.self_mem_preorder f.rootPlace
  have hplace : f.Holds (f.placeAt line column) ⟨line.toNat - 1, column.toNat - 1⟩ :=
    holds_descend hfilled hroot (hpoint.of_mem_preorder hwf.nested hp)
  refine ⟨descend_mem_of_holds hwf hfilled hroot hp hpoint, fun x hx hq => ?_⟩
  exact (contains_rangeOf_iff hwf hfilled hx hl hc).mpr
    (hplace.of_mem_preorder (hwf.nested.of_mem hx) hq)

lemma within_rangeOf (hwf : f.WellFormed) (hfilled : f.Filled) (hp : p ∈ f.rootPlace.preorder)
    (hq : q ∈ p.preorder) : (f.rangeOf q).Within (f.rangeOf p) := by
  obtain ⟨⟨hpsl, hpsc⟩, hpel, hpec⟩ := toNat_rangeOf hwf hfilled hp
  obtain ⟨⟨hqsl, hqsc⟩, hqel, hqec⟩ :=
    toNat_rangeOf hwf hfilled (Place.mem_preorder_trans hp hq)
  obtain ⟨hstart, hstop⟩ := (hwf.nested.of_mem hp).bounds hq
  have hfirst := f.pointAt_mono hstart
  have hlast := f.pointAt_mono hstop
  simp only [TextRange.Within, UInt32.lt_iff_toNat_lt, UInt32.le_iff_toNat_le, ← UInt32.toNat_inj,
    hpsl, hpsc, hpel, hpec, hqsl, hqsc, hqel, hqec]
  omega

end File

end Source

lemma TestReport.range_inOutline (f : File) (spec : Spec) (t : Test) :
    (inOutline f spec t).range = f.rangeOf t.node := by
  rw [inOutline]
  cases hfind : findRangeAll? (f.rangeOf t.node) (ofTests f (Outline.testsOf f spec)) with
  | none => exact IsOf.range_eq ⟨[t], List.mem_singleton_self t, rfl⟩
  | some r =>
    rw [findRangeAll?_eq_find?] at hfind
    simpa using List.find?_some hfind

namespace Test

variable {f : File}

lemma exists_around?_of_lineage {n q cls : Place} {front : List Place} {style : Style}
    {call : Spec.TestCall} (hl : q.lineage = front ++ n.lineage)
    (hfront : ∀ x ∈ front, x.isClass = false) (hcls : n.enclosingClass? = some cls)
    (hstyle : Spec.classify? f cls = some style) (hcall : Spec.testCall? style f n = some call) :
    ∃ u, around? f q = some u ∧ (u.node ∈ front ∨ u.node = n) := by
  have hup := Place.enclosingClass?_of_lineage_eq hl hfront
  have hscope : q.lineage.takeWhile (!·.isClass) =
      front ++ n :: n.ancestors.takeWhile (!·.isClass) := by
    rw [hl, List.takeWhile_append_of_pos fun x hx => by simp [hfront x hx], Place.lineage,
      List.takeWhile_cons_of_pos (by simp [Spec.isClass_of_testCall? hcall])]
  cases hfound : front.findSome? (Spec.testCall? style f) with
  | none =>
    refine ⟨ofCall style f call, ?_, .inr (Spec.testCall?_node hcall)⟩
    simp [around?, hup, hcls, hstyle, hscope, List.findSome?_append, hfound, hcall]
  | some inner =>
    obtain ⟨x, hx, hinner⟩ := List.exists_of_findSome?_eq_some hfound
    refine ⟨ofCall style f inner, ?_, .inl ?_⟩
    · simp [around?, hup, hcls, hstyle, hscope, List.findSome?_append, hfound]
    · have hnode : (ofCall style f inner).node = x := Spec.testCall?_node hinner
      rw [hnode]
      exact hx

end Test

lemma Spec.ofClass?_of_mem_topLevel {f : File} {spec : Spec} (h : spec ∈ topLevel f) :
    spec.node ∈ f.rootPlace.preorder ∧ ofClass? f spec.node = some spec := by
  obtain ⟨cls, hcls, hspec⟩ := List.mem_filterMap.mp h
  obtain ⟨rfl, -⟩ := ofClass?_eq_some hspec
  have hchild := Place.mem_children_of_mem_namedChildren (List.mem_filter.mp hcls).1
  exact ⟨Place.mem_preorder_of_mem_children hchild, hspec⟩

/-- At every position inside a test, outside the classes declared in it, the spec of the test and a
test around the position that is no larger are found. -/
theorem testAt_covers_tests (frontend : Frontend) (fs : Files) (path : String) (f : File)
    (hload : frontend.load fs path = .ok f) (hwf : f.WellFormed) (hfilled : f.Filled)
    (spec : Spec) (hspec : spec ∈ Spec.topLevel f)
    (t : Test) (ht : t ∈ Test.flattenAll (Outline.testsOf f spec))
    (line column : UInt32) (hline : 1 ≤ line) (hcolumn : 1 ≤ column)
    (hin : (f.rangeOf t.node).contains line column = true)
    (hout : ∀ k ∈ t.node.preorder, k.isClass = true →
      (f.rangeOf k).contains line column = false) :
    ∃ r report, testAt frontend fs { path, line, column, leaf := false } = .ok r ∧
      r.spec = some spec.qualifiedName ∧ r.style = some spec.style.id ∧ r.test = some report ∧
      report.range.contains line column = true ∧ report.range.Within (f.rangeOf t.node) := by
  obtain ⟨hmem, hofClass⟩ := Spec.ofClass?_of_mem_topLevel hspec
  obtain ⟨_, hstyle⟩ := Spec.ofClass?_eq_some hofClass
  obtain ⟨call, hd, rfl⟩ := Test.exists_declared_of_mem ht
  have hcls := hd.enclosingClass? (Spec.isClass_of_classify? hstyle)
  have hnode := Place.mem_preorder_trans hmem hd.mem_preorder
  have hroot {x : Place} (hx : x ∈ call.node.preorder) : x ∈ f.rootPlace.preorder :=
    Place.mem_preorder_trans hnode hx
  obtain ⟨hbelow, hcontains⟩ := File.placeAt_of_contains hwf hfilled hnode hline hcolumn hin
  obtain ⟨front, hl, hfront⟩ := Place.exists_lineage_of_mem_preorder hbelow
  -- a class on the way up to the call would be nested in it and contain the position
  have hclass : ∀ x ∈ front, x.isClass = false := fun x hx => by
    by_contra hx'
    obtain ⟨hxn, hqx⟩ := hfront x hx
    exact absurd (hcontains x (hroot hxn) hqx) (by simp [hout x hxn (by simpa using hx')])
  obtain ⟨u, hu, hunode⟩ := Test.exists_around?_of_lineage hl hclass hcls hstyle hd.testCall?
  have hbetween : u.node ∈ call.node.preorder ∧ f.placeAt line column ∈ u.node.preorder := by
    rcases hunode with hx | he
    · exact hfront _ hx
    · rw [he]
      exact ⟨Place.self_mem_preorder _, hbelow⟩
  have hspecAt : Spec.around? f (f.placeAt line column) = some spec := by
    rw [Spec.around?, Place.enclosingClass?_of_lineage_eq hl hclass, hcls, Option.bind_some,
      hofClass]
  refine ⟨_, TestReport.inOutline f spec u, testAt_eq_ofFile hload, ?_, ?_, ?_, ?_, ?_⟩
  · simp [TestAtResult.ofFile, hspecAt]
  · simp [TestAtResult.ofFile, hspecAt]
  · simp [TestAtResult.ofFile, TestAtResult.testAt?, hspecAt, hu]
  · rw [TestReport.range_inOutline]
    exact hcontains u.node (hroot hbetween.1) hbetween.2
  · rw [TestReport.range_inOutline]
    exact File.within_rangeOf hwf hfilled hnode hbetween.1

theorem testAt_covers_tests_specimen :
    ∃ t ∈ Test.flattenAll (Outline.testsOf Test.specimen Test.specimenSpec), t.path = "outer" ∧
      ∃ r report, testAt specimenFrontend specimenFiles
          { path := "A.kt", line := 1, column := 60, leaf := false } = .ok r ∧
        r.spec = some "A" ∧ r.style = some "fun" ∧ r.test = some report ∧
        report.range.contains 1 60 = true ∧
        report.range.Within (Test.specimen.rangeOf t.node) := by
  have hfirst : (Test.flattenAll (Outline.testsOf Test.specimen Test.specimenSpec))[0]?.map
      Test.path = some "outer" := by decide +kernel
  obtain ⟨t, ht, hpath⟩ := Option.map_eq_some_iff.mp hfirst
  have hmem := List.mem_of_getElem? ht
  have hspec : Test.specimenSpec ∈ Spec.topLevel Test.specimen :=
    List.mem_filterMap.mpr ⟨Test.specimenClass, List.mem_of_head? (by rfl), Test.specimenSpec_eq⟩
  have hin : ∀ t ∈ Test.flattenAll (Outline.testsOf Test.specimen Test.specimenSpec),
      (Test.specimen.rangeOf t.node).contains 1 60 = true := by decide +kernel
  have hout : ∀ t ∈ Test.flattenAll (Outline.testsOf Test.specimen Test.specimenSpec),
      ∀ k ∈ t.node.preorder, k.isClass = true →
        (Test.specimen.rangeOf k).contains 1 60 = false := by decide +kernel
  obtain ⟨r, report, hr, hname, hstyle, htest, hcontains, hwithin⟩ :=
    testAt_covers_tests specimenFrontend specimenFiles "A.kt" Test.specimen (by rfl)
      (by decide +kernel) (by decide +kernel) Test.specimenSpec hspec t hmem 1 60 (by decide)
      (by decide) (hin t hmem) (hout t hmem)
  have hA : Test.specimenSpec.qualifiedName = "A" := by decide +kernel
  have hfun : Test.specimenSpec.style.id = "fun" := by decide +kernel
  exact ⟨t, hmem, hpath, r, report, hr, hA ▸ hname, hfun ▸ hstyle, htest, hcontains, hwithin⟩

end SpecAtlas
