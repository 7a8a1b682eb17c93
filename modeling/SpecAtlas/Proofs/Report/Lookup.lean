import Mathlib.Data.List.Forall2
import SpecAtlas.Proofs.Spec.TestRange
import SpecAtlas.Report.Build

/-! Looking up tests by place and by range. The walk from a test towards the root finds the test
itself, and the look-up of its range among the reports of the spec finds its own report. -/

namespace SpecAtlas

open Source

namespace Source.Place

lemma enclosingClass?_of_lineage_eq {p a : Place} {front : List Place}
    (he : p.lineage = front ++ a.lineage) (hfront : ∀ x ∈ front, x.isClass = false) :
    p.enclosingClass? = a.enclosingClass? := by
  have hnone : front.find? isClass = none :=
    List.find?_eq_none.mpr fun x hx => by simp [hfront x hx]
  rw [enclosingClass?, he, List.find?_append, hnone, Option.none_or, enclosingClass?]

end Source.Place

namespace Test

variable {f : File} {p : Place} {t : Test}

lemma around?_eq_some (h : around? f p = some t) :
    t.node ∈ p.lineage ∧
      ∃ cls style call, t.node.enclosingClass? = some cls ∧ p.enclosingClass? = some cls ∧
        Spec.classify? f cls = some style ∧ Spec.testCall? style f t.node = some call ∧
        ofCall style f call = t := by
  simp only [around?, Option.bind_eq_bind, Option.bind_eq_some_iff] at h
  obtain ⟨cls, hcls, style, hstyle, call, hfound, he⟩ := h
  obtain rfl := Option.some.inj he
  obtain ⟨a, ha, hcall⟩ := List.exists_of_findSome?_eq_some hfound
  obtain ⟨front, hl, hfront⟩ := Place.exists_lineage_eq_append ha
  have hnode : (ofCall style f call).node = a := Spec.testCall?_node hcall
  have hup := Place.enclosingClass?_of_lineage_eq hl fun x hx => by simpa using hfront x hx
  refine ⟨?_, cls, style, call, by rw [hnode, ← hup, hcls], hcls, hstyle, by rw [hnode, hcall], rfl⟩
  rw [hnode]
  exact (List.takeWhile_sublist _).subset ha

lemma around?_self {cls : Place} {style : Style} {call : Spec.TestCall}
    (hcls : p.enclosingClass? = some cls) (hstyle : Spec.classify? f cls = some style)
    (hcall : Spec.testCall? style f p = some call) : around? f p = some (ofCall style f call) := by
  have hfound : (p.lineage.takeWhile (!·.isClass)).findSome? (Spec.testCall? style f) =
      some call := by
    rw [Place.lineage, List.takeWhile_cons_of_pos (by simp [Spec.isClass_of_testCall? hcall]),
      List.findSome?_cons, hcall]
  simp [around?, hcls, hstyle, hfound]

end Test

lemma Spec.node_mem_of_around? {f : File} {p : Place} {spec : Spec}
    (hp : p ∈ f.rootPlace.preorder) (h : Spec.around? f p = some spec) :
    spec.node ∈ f.rootPlace.preorder := by
  obtain ⟨cls, hcls, hspec⟩ := Option.bind_eq_some_iff.mp h
  rw [(Spec.ofClass?_eq_some hspec).1]
  exact (Place.mem_preorder_of_mem_lineage hp (List.mem_of_find?_eq_some hcls)).1

namespace TestReport

mutual

theorem findRange?_eq_find? (range : TextRange) :
    (t : TestReport) → t.findRange? range = t.flatten.find? (·.range = range)
  | ⟨_, _, _, _, r, children⟩ => by
    rw [findRange?, flatten, List.find?_cons, findRangeAll?_eq_find? range children]
    by_cases h : r = range <;> simp [h]

theorem findRangeAll?_eq_find? (range : TextRange) :
    (ts : List TestReport) → findRangeAll? range ts = (flattenAll ts).find? (·.range = range)
  | [] => rfl
  | t :: ts => by
    rw [findRangeAll?, flattenAll, List.find?_append, findRange?_eq_find? range t,
      findRangeAll?_eq_find? range ts]

end

def IsOf (f : File) (t : Test) (r : TestReport) : Prop :=
  ∃ siblings, t ∈ siblings ∧ ofTest f siblings t = r

lemma IsOf.range_eq {f : File} {t : Test} {r : TestReport} (h : IsOf f t r) :
    r.range = f.rangeOf t.node := by
  obtain ⟨siblings, _, rfl⟩ := h
  cases t
  rw [ofTest]

lemma IsOf.path_eq {f : File} {t : Test} {r : TestReport} (h : IsOf f t r) : r.path = t.path := by
  obtain ⟨siblings, _, rfl⟩ := h
  cases t
  rw [ofTest]

mutual

theorem isOf_flatten (f : File) {siblings : List Test} :
    (t : Test) → t ∈ siblings →
      List.Forall₂ (IsOf f) t.flatten (ofTest f siblings t).flatten
  | ⟨name, path, enabled, node, children⟩, h => by
    have hchildren := isOf_flattenAll f children fun c hc => hc
    have hself : IsOf f ⟨name, path, enabled, node, children⟩ (ofTest f siblings _) :=
      ⟨siblings, h, rfl⟩
    rw [ofTest] at hself ⊢
    rw [Test.flatten, flatten]
    exact .cons hself hchildren

theorem isOf_flattenAll (f : File) {siblings : List Test} :
    (ts : List Test) → ts ⊆ siblings →
      List.Forall₂ (IsOf f) (Test.flattenAll ts) (flattenAll (ofTestsAmong f siblings ts))
  | [], _ => by
    rw [Test.flattenAll, ofTestsAmong, flattenAll]
    exact .nil
  | t :: ts, h => by
    obtain ⟨ht, hts⟩ := List.cons_subset.mp h
    rw [Test.flattenAll, ofTestsAmong, flattenAll]
    exact List.rel_append (isOf_flatten f t ht) (isOf_flattenAll f ts hts)

end

theorem isOf_ofTests (f : File) (ts : List Test) :
    List.Forall₂ (IsOf f) (Test.flattenAll ts) (flattenAll (ofTests f ts)) :=
  isOf_flattenAll f ts (List.Subset.refl ts)

variable {f : File} {ts : List Test} {rs : List TestReport}

lemma ranges_eq (h : List.Forall₂ (IsOf f) ts rs) :
    rs.map range = (ts.map Test.node).map f.rangeOf := by
  induction h with
  | nil => rfl
  | cons hr _ ih => rw [List.map_cons, List.map_cons, List.map_cons, hr.range_eq, ih]

lemma exists_test_of_mem (h : List.Forall₂ (IsOf f) ts rs) {r : TestReport} (hr : r ∈ rs) :
    ∃ t ∈ ts, IsOf f t r := by
  induction h with
  | nil => cases hr
  | @cons t r' ts rs ht _ ih =>
    rcases List.mem_cons.mp hr with rfl | hr
    · exact ⟨t, List.mem_cons_self .., ht⟩
    · obtain ⟨u, hu, hur⟩ := ih hr
      exact ⟨u, List.mem_cons_of_mem _ hu, hur⟩

lemma exists_report_at (h : List.Forall₂ (IsOf f) ts rs) {i : Nat} {t : Test}
    (ht : ts[i]? = some t) : ∃ r, rs[i]? = some r ∧ IsOf f t r := by
  induction h generalizing i with
  | nil => cases ht
  | @cons u r ts rs hu _ ih =>
    cases i with
    | zero =>
      obtain rfl := Option.some.inj ht
      exact ⟨r, rfl, hu⟩
    | succ i => exact ih ht

lemma nodup_ranges {spec : Spec} (hwf : f.WellFormed)
    (hmem : spec.node ∈ f.rootPlace.preorder) :
    ((flattenAll (ofTests f (Outline.testsOf f spec))).map range).Nodup := by
  rw [ranges_eq (isOf_ofTests f _)]
  refine List.Nodup.map_on ?_ (Test.nodup_nodes f spec)
  intro p hp q hq he
  obtain ⟨t, ht, rfl⟩ := List.mem_map.mp hp
  obtain ⟨u, hu, rfl⟩ := List.mem_map.mp hq
  obtain ⟨c, hc, rfl⟩ := Test.exists_declared_of_mem ht
  obtain ⟨d, hd, rfl⟩ := Test.exists_declared_of_mem hu
  exact Spec.eq_of_rangeOf_eq hwf (Place.mem_preorder_trans hmem hc.mem_preorder)
    (Place.mem_preorder_trans hmem hd.mem_preorder) hc.testCall? hd.testCall? he

lemma findRangeAll?_of_mem {spec : Spec} (hwf : f.WellFormed)
    (hmem : spec.node ∈ f.rootPlace.preorder) {r : TestReport}
    (hr : r ∈ flattenAll (ofTests f (Outline.testsOf f spec))) :
    findRangeAll? r.range (ofTests f (Outline.testsOf f spec)) = some r := by
  rw [findRangeAll?_eq_find?]
  cases hfind : (flattenAll (ofTests f (Outline.testsOf f spec))).find? (·.range = r.range) with
  | none => simpa using List.find?_eq_none.mp hfind r hr
  | some r' =>
    have hrange : r'.range = r.range := by simpa using List.find?_some hfind
    have hr' := List.mem_of_find?_eq_some hfind
    rw [List.inj_on_of_nodup_map (nodup_ranges hwf hmem) hr' hr hrange]

end TestReport

namespace Test

lemma eq_of_around? {f : File} {cls : Place} {spec : Spec} (hspec : Spec.ofClass? f cls = some spec)
    {call : Spec.TestCall} (hd : Declared spec.style f cls call) {p : Place} {u : Test}
    (hu : around? f p = some u) (hnode : u.node = call.node) :
    Spec.around? f p = some spec ∧ u = ofCall spec.style f call := by
  obtain ⟨hcls, hstyle⟩ := Spec.ofClass?_eq_some hspec
  have hclass := hd.enclosingClass? (Spec.isClass_of_classify? hstyle)
  obtain ⟨-, cls', style, call', hup, hpup, hstyle', hcall', rfl⟩ := around?_eq_some hu
  rw [hnode] at hup hcall'
  obtain rfl := Option.some.inj (hup.symm.trans hclass)
  obtain rfl := Option.some.inj (hstyle'.symm.trans hstyle)
  obtain rfl := Option.some.inj (hcall'.symm.trans hd.testCall?)
  exact ⟨by rw [Spec.around?, hpup, Option.bind_some, hspec], rfl⟩

/-- A test is found again from its own call, and its report from every place that leads to it. -/
theorem around?_and_report (f : File) (hwf : f.WellFormed) (cls : Place)
    (hmem : cls ∈ f.rootPlace.preorder) (spec : Spec) (hspec : Spec.ofClass? f cls = some spec)
    (i : Nat) (t : Test) (ht : (flattenAll (Outline.testsOf f spec))[i]? = some t) :
    around? f t.node = some t ∧
      ∃ r, (TestReport.flattenAll (TestReport.ofTests f (Outline.testsOf f spec)))[i]? = some r ∧
        ∀ n u, around? f n = some u → u.node = t.node →
          Spec.around? f n = some spec ∧ TestReport.inOutline f spec u = r := by
  obtain ⟨hcls, hstyle⟩ := Spec.ofClass?_eq_some hspec
  obtain ⟨call, hd, rfl⟩ := exists_declared_of_mem (List.mem_of_getElem? ht)
  rw [hcls] at hd
  have hclass := hd.enclosingClass? (Spec.isClass_of_classify? hstyle)
  refine ⟨around?_self hclass hstyle hd.testCall?, ?_⟩
  obtain ⟨r, hr, hof⟩ := TestReport.exists_report_at (TestReport.isOf_ofTests f _) ht
  refine ⟨r, hr, fun n u hu hnode => ?_⟩
  obtain ⟨hspecAt, rfl⟩ := eq_of_around? hspec hd hu hnode
  refine ⟨hspecAt, ?_⟩
  rw [TestReport.inOutline, ← hof.range_eq,
    TestReport.findRangeAll?_of_mem hwf (hcls ▸ hmem) (List.mem_of_getElem? hr), Option.getD_some]

theorem around?_and_report_specimen :
    ∃ t, (flattenAll (Outline.testsOf specimen specimenSpec))[1]? = some t ∧
      t.path = "outer slow" ∧ around? specimen t.node = some t ∧
      ∃ r, (TestReport.flattenAll
          (TestReport.ofTests specimen (Outline.testsOf specimen specimenSpec)))[1]? = some r ∧
        TestReport.inOutline specimen specimenSpec t = r := by
  have hsecond : (flattenAll (Outline.testsOf specimen specimenSpec))[1]?.map path =
      some "outer slow" := by decide +kernel
  obtain ⟨t, ht, hpath⟩ := Option.map_eq_some_iff.mp hsecond
  obtain ⟨hself, r, hr, hreport⟩ := around?_and_report specimen (by decide +kernel) specimenClass
    specimenClass_mem specimenSpec specimenSpec_eq 1 t ht
  exact ⟨t, ht, hpath, hself, r, hr, (hreport t.node t hself rfl).2⟩

end Test

end SpecAtlas
