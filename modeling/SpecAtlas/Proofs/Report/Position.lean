import SpecAtlas.Proofs.Report.Lookup
import SpecAtlas.Scan.Query

/-! Questions about a position. The walk from a leaf to the call that it introduces passes no other
test and no class, so the marker at a leaf, the innermost test around it and the command that runs
it speak of the same test. -/

namespace SpecAtlas

open Source

namespace Source

namespace Place

lemma ancestors_of_parent? {p q : Place} (h : p.parent? = some q) : p.ancestors = q.lineage := by
  obtain ⟨node, above⟩ := p
  cases above with
  | nil => cases h
  | cons s rest =>
    obtain rfl := Option.some.inj h
    rfl

lemma outermostCall?_of_parent? {p q : Place} (h : p.parent? = some q) :
    p.outermostCall? = if q.invokes p then some (q.outermostCall?.getD q) else none := by
  simp only [outermostCall?]
  rw [lineage, ancestors_of_parent? h, lineage, List.zip_cons_cons, List.takeWhile_cons]
  cases q.invokes p with
  | false => rfl
  | true =>
    simp only [if_true, List.getLast?_cons, Option.map_some]
    cases (((q :: q.ancestors).zip q.ancestors).takeWhile fun x => x.2.invokes x.1).getLast? <;>
      rfl

lemma isClass_of_invokes {p q : Place} (h : q.invokes p = true) : q.isClass = false := by
  rw [invokes] at h
  split at h
  · rename_i parts hparts
    simp [isClass, callParts?_kind hparts]
  · cases h

lemma isCallee_of_invokes {p q : Place} (hq : p.parent? = some q) (h : q.invokes p = true) :
    p.isCallee = true := by
  rw [isCallee, hq]
  exact h

lemma lineage_of_parent? {p q : Place} (h : p.parent? = some q) : p.lineage = p :: q.lineage := by
  rw [lineage, ancestors_of_parent? h]

lemma lineage_of_outermostCall? {p cand : Place} (hp : p.isClass = false)
    (h : p.outermostCall? = some cand) :
    ∃ front, p.lineage = front ++ cand.lineage ∧
      ∀ x ∈ front, x.isClass = false ∧ x.isCallee = true := by
  obtain ⟨node, above⟩ := p
  induction above generalizing node with
  | nil => cases h
  | cons s rest ih =>
    have hparent : (⟨node, s :: rest⟩ : Place).parent? = some ⟨s.parent, rest⟩ := rfl
    rw [outermostCall?_of_parent? hparent] at h
    split at h
    · rename_i hinv
      have hcallee := isCallee_of_invokes hparent hinv
      cases hup : (⟨s.parent, rest⟩ : Place).outermostCall? with
      | none =>
        rw [hup] at h
        obtain rfl := Option.some.inj h
        refine ⟨[⟨node, s :: rest⟩], lineage_of_parent? hparent, ?_⟩
        exact List.forall_mem_singleton.mpr ⟨hp, hcallee⟩
      | some c =>
        rw [hup] at h
        obtain rfl := Option.some.inj h
        obtain ⟨front, he, hfront⟩ := ih s.parent (isClass_of_invokes hinv) hup
        refine ⟨⟨node, s :: rest⟩ :: front, ?_, List.forall_mem_cons.mpr ⟨⟨hp, hcallee⟩, hfront⟩⟩
        rw [lineage_of_parent? hparent, he, Option.getD_some, List.cons_append]
    · cases h

lemma lineage_of_navigationOfSeparator? {leaf nav : Place}
    (h : leaf.navigationOfSeparator? = some nav) :
    nav.Plain ∧ ∃ front, leaf.lineage = front ++ nav.lineage ∧ ∀ x ∈ front, x.Plain := by
  simp only [navigationOfSeparator?, Option.bind_eq_bind, Option.bind_eq_some_iff] at h
  obtain ⟨_, hsep, parent, hparent, h⟩ := h
  have hleaf : leaf.Plain := by
    by_cases hs : leaf.isSeparator = true
    · exact plain_of_isSeparator hs
    · simp [guard, hs] at hsep
  split at h
  · rename_i hk
    obtain rfl := Option.some.inj h
    refine ⟨plain_of_kind (by simpa using hk), [leaf], lineage_of_parent? hparent, ?_⟩
    exact List.forall_mem_singleton.mpr hleaf
  · obtain ⟨_, hsuffix, h⟩ := Option.bind_eq_some_iff.mp h
    obtain ⟨hnav, hk⟩ := Option.filter_eq_some_iff.mp h
    have hplain : parent.Plain := by
      by_cases hs : (parent.kind == "navigation_suffix") = true
      · exact plain_of_kind (by simpa using hs)
      · simp [guard, hs] at hsuffix
    refine ⟨plain_of_kind (by simpa using hk), [leaf, parent], ?_, ?_⟩
    · rw [lineage_of_parent? hparent, lineage_of_parent? hnav]
      rfl
    · exact List.forall_mem_cons.mpr ⟨hleaf, List.forall_mem_singleton.mpr hplain⟩

end Place

lemma File.descend_mem_preorder (f : File) (target : Point) (p : Place) :
    f.descend target p ∈ p.preorder := by
  fun_induction f.descend target p with
  | case1 p c hc ih =>
    obtain ⟨hfind, _⟩ := Option.filter_eq_some_iff.mp hc
    have hchild := List.mem_of_find?_eq_some hfind
    exact Place.mem_preorder_trans (Place.mem_preorder_of_mem_children hchild) ih
  | case2 p => exact Place.self_mem_preorder p

end Source

namespace Test

variable {f : File} {p : Place} {t : Test}

lemma passed_of_plain (h : p.Plain) :
    p.isClass = false ∧ ∀ style, Spec.testCall? style f p = none :=
  ⟨h.2, fun _ => Spec.testCall?_of_plain h⟩

lemma passed_of_outermostCall? {cand : Place} (hp : p.Plain) (h : p.outermostCall? = some cand) :
    ∃ front, p.lineage = front ++ cand.lineage ∧
      ∀ x ∈ front, x.isClass = false ∧ ∀ style, Spec.testCall? style f x = none := by
  obtain ⟨front, he, hfront⟩ := Place.lineage_of_outermostCall? hp.2 h
  refine ⟨front, he, fun x hx => ?_⟩
  obtain ⟨hclass, hcallee⟩ := hfront x hx
  exact ⟨hclass, fun _ => Spec.testCall?_of_isCallee hcallee⟩

lemma lineage_of_candidateOf? {leaf cand : Place} (h : candidateOf? leaf = some cand) :
    ∃ front, leaf.lineage = front ++ cand.lineage ∧
      ∀ x ∈ front, x.isClass = false ∧ ∀ style, Spec.testCall? style f x = none := by
  rw [candidateOf?] at h
  split at h
  · obtain ⟨nav, hnav, hcall⟩ := Option.bind_eq_some_iff.mp h
    obtain ⟨hplain, front, he, hfront⟩ := Place.lineage_of_navigationOfSeparator? hnav
    obtain ⟨callees, hc, hcallees⟩ := passed_of_outermostCall? (f := f) hplain hcall
    refine ⟨front ++ callees, by rw [he, hc, List.append_assoc], ?_⟩
    exact List.forall_mem_append.mpr ⟨fun x hx => passed_of_plain (hfront x hx), hcallees⟩
  split at h
  · rename_i hk
    exact passed_of_outermostCall? (Place.plain_of_kind (by simpa using hk)) h
  split at h
  · rename_i hk
    obtain ⟨literal, hliteral, hcall⟩ := Option.bind_eq_some_iff.mp h
    obtain ⟨hparent, hlk⟩ := Option.filter_eq_some_iff.mp hliteral
    have hplain : literal.Plain := Place.plain_of_kind (by simpa using hlk)
    obtain ⟨callees, hc, hcallees⟩ := passed_of_outermostCall? (f := f) hplain hcall
    refine ⟨leaf :: callees, by rw [Place.lineage_of_parent? hparent, hc, List.cons_append], ?_⟩
    have hquote : leaf.kind ∈ ["\"", "\"\"\"", "string_content"] := by
      simpa [or_assoc] using hk
    exact List.forall_mem_cons.mpr ⟨passed_of_plain (Place.plain_of_mem hquote), hcallees⟩
  split at h
  · rename_i hk
    exact passed_of_outermostCall? (Place.plain_of_isIdentifier hk) h
  · cases h

lemma around?_of_atLeaf? (h : atLeaf? f p = some t) : around? f p = some t := by
  simp only [atLeaf?, Option.bind_eq_bind, Option.bind_eq_some_iff] at h
  obtain ⟨cand, hcand, _, _, cls, hcls, style, hstyle, call, hcall, he⟩ := h
  obtain rfl := Option.some.inj he
  obtain ⟨front, hl, hfront⟩ := lineage_of_candidateOf? (f := f) hcand
  have hup := Place.enclosingClass?_of_lineage_eq hl fun x hx => (hfront x hx).1
  have hfound : (p.lineage.takeWhile (!·.isClass)).findSome? (Spec.testCall? style f) =
      some call := by
    rw [hl, List.takeWhile_append_of_pos fun x hx => by simp [(hfront x hx).1],
      List.findSome?_append, List.findSome?_eq_none_iff.mpr fun x hx => (hfront x hx).2 style,
      Option.none_or, Place.lineage,
      List.takeWhile_cons_of_pos (by simp [Spec.isClass_of_testCall? hcall]), List.findSome?_cons,
      hcall]
  simp [around?, hup, hcls, hstyle, hfound]

lemma exists_spec_of_around? (h : around? f p = some t) :
    ∃ spec call, Spec.around? f p = some spec ∧ Spec.testCall? spec.style f t.node = some call ∧
      ofCall spec.style f call = t := by
  obtain ⟨-, cls, style, call, -, hup, hstyle, hcall, he⟩ := around?_eq_some h
  obtain ⟨spec, hspec, rfl⟩ := Spec.exists_ofClass? hstyle
  exact ⟨spec, call, by rw [Spec.around?, hup, Option.bind_some, hspec], hcall, he⟩

lemma node_mem_of_around? (hp : p ∈ f.rootPlace.preorder) (h : around? f p = some t) :
    t.node ∈ f.rootPlace.preorder :=
  (Place.mem_preorder_of_mem_lineage hp (around?_eq_some h).1).1

end Test

namespace TestReport

lemma path_inOutline {f : File} {spec : Spec} {t : Test} {call : Spec.TestCall}
    (hwf : f.WellFormed) (hmem : spec.node ∈ f.rootPlace.preorder)
    (ht : t.node ∈ f.rootPlace.preorder)
    (hcall : Spec.testCall? spec.style f t.node = some call)
    (he : Test.ofCall spec.style f call = t) : (inOutline f spec t).path = t.path := by
  rw [inOutline]
  cases hfind : findRangeAll? (f.rangeOf t.node) (ofTests f (Outline.testsOf f spec)) with
  | none => exact IsOf.path_eq ⟨[t], List.mem_singleton_self t, rfl⟩
  | some r =>
    rw [findRangeAll?_eq_find?] at hfind
    have hrange : r.range = f.rangeOf t.node := by simpa using List.find?_some hfind
    obtain ⟨u, hu, hof⟩ := exists_test_of_mem (isOf_ofTests f _) (List.mem_of_find?_eq_some hfind)
    obtain ⟨c, hc, rfl⟩ := Test.exists_declared_of_mem hu
    have hnode : c.node = t.node :=
      Spec.eq_of_rangeOf_eq hwf (Place.mem_preorder_trans hmem hc.mem_preorder) ht hc.testCall?
        hcall (hof.range_eq.symm.trans hrange)
    have hsame : c = call := by
      have hcc := hc.testCall?
      rw [hnode] at hcc
      exact Option.some.inj (hcc.symm.trans hcall)
    rw [Option.getD_some, hof.path_eq, hsame, he]

end TestReport

namespace TestAtResult

variable {f : File} {path : String} {line column : UInt32}

lemma around?_of_testAt? {leaf : Bool} {p : Place} {t : Test} (h : testAt? f leaf p = some t) :
    Test.around? f p = some t := by
  cases leaf with
  | true => exact Test.around?_of_atLeaf? h
  | false => exact h

lemma testAt?_of_test {leaf : Bool}
    (h : (ofFile f { path, line, column, leaf }).test.isSome) :
    ∃ t, testAt? f leaf (f.placeAt line column) = some t := by
  obtain ⟨r, hr⟩ := Option.isSome_iff_exists.mp h
  simp only [ofFile, Option.bind_eq_bind, Option.bind_eq_some_iff] at hr
  obtain ⟨_, _, t, ht, _⟩ := hr
  exact ⟨t, ht⟩

lemma ofFile_leaf_eq (h : (ofFile f { path, line, column, leaf := true }).test.isSome) :
    ofFile f { path, line, column, leaf := false } =
      ofFile f { path, line, column, leaf := true } := by
  obtain ⟨t, ht⟩ := testAt?_of_test h
  have hleaf : testAt? f true (f.placeAt line column) = testAt? f false (f.placeAt line column) :=
    ht.trans (around?_of_testAt? ht).symm
  simp only [ofFile, hleaf]

lemma ofFile_of_testAt? {leaf : Bool} {t : Test}
    (h : testAt? f leaf (f.placeAt line column) = some t) :
    (ofFile f { path, line, column, leaf }).spec.isSome ∧
      (ofFile f { path, line, column, leaf }).test.isSome := by
  obtain ⟨spec, _, hspec, _, _⟩ := Test.exists_spec_of_around? (around?_of_testAt? h)
  simp [ofFile, hspec, h]

lemma path_of_test (hwf : f.WellFormed) {spec : Spec}
    (hspec : Spec.around? f (f.placeAt line column) = some spec) :
    (ofFile f { path, line, column, leaf := false }).test.map (·.path) =
      (Test.around? f (f.placeAt line column)).map Test.path := by
  have hplace : f.placeAt line column ∈ f.rootPlace.preorder := f.descend_mem_preorder ..
  cases ht : Test.around? f (f.placeAt line column) with
  | none => simp [ofFile, testAt?, ht]
  | some t =>
    obtain ⟨spec', call, hspec', hcall, he⟩ := Test.exists_spec_of_around? ht
    obtain rfl := Option.some.inj (hspec.symm.trans hspec')
    have hnode := Test.node_mem_of_around? hplace ht
    have hpath := TestReport.path_inOutline hwf (Spec.node_mem_of_around? hplace hspec) hnode hcall
      he
    simp [ofFile, testAt?, ht, hspec, hpath]

end TestAtResult

lemma launch_eq_ofPosition {frontend : Frontend} {fs : Files} {path : String} {f : File}
    (hload : frontend.load fs path = .ok f) (line column : UInt32) (package : Option String) :
    launch frontend fs (some path) (some (line, column)) package =
      LaunchCommand.ofPosition f path line column := by
  simp only [launch, hload]
  rfl

lemma testAt_eq_ofFile {frontend : Frontend} {fs : Files} {f : File} {request : TestAtRequest}
    (hload : frontend.load fs request.path = .ok f) :
    testAt frontend fs request = .ok (TestAtResult.ofFile f request) := by
  simp only [testAt, hload]
  rfl

/-- The marker at a leaf, the innermost test and the launch command agree at every position. -/
theorem position_queries_agree (frontend : Frontend) (fs : Files) (path : String)
    (line column : UInt32) (f : File) (hload : frontend.load fs path = .ok f)
    (hwf : f.WellFormed) :
    (∀ r, testAt frontend fs { path, line, column, leaf := true } = .ok r → r.test.isSome →
      testAt frontend fs { path, line, column, leaf := false } = .ok r) ∧
    (∀ leaf t, TestAtResult.testAt? f leaf (f.placeAt line column) = some t →
      ∃ r, testAt frontend fs { path, line, column, leaf } = .ok r ∧ r.spec.isSome ∧
        r.test.isSome) ∧
    ∃ r, testAt frontend fs { path, line, column, leaf := false } = .ok r ∧
      ((∃ cmd, launch frontend fs (some path) (some (line, column)) none = .ok cmd) ↔
        r.spec.isSome) ∧
      ∀ cmd, launch frontend fs (some path) (some (line, column)) none = .ok cmd →
        cmd = { mainClass := launcherMainClass
                args := LaunchSelectors.programArgs
                  { package := none, spec := r.spec, testPath := r.test.map (·.path) } } := by
  refine ⟨?_, ?_, _, testAt_eq_ofFile hload, ?_⟩
  · intro r hr htest
    rw [testAt_eq_ofFile hload] at hr ⊢
    obtain rfl := Except.ok.inj hr
    rw [TestAtResult.ofFile_leaf_eq htest]
  · intro leaf t ht
    exact ⟨_, testAt_eq_ofFile hload, TestAtResult.ofFile_of_testAt? ht⟩
  · rw [launch_eq_ofPosition hload, LaunchCommand.ofPosition]
    cases hspec : Spec.around? f (f.placeAt line column) with
    | none => simp [TestAtResult.ofFile, hspec]
    | some spec =>
      refine ⟨by simp [TestAtResult.ofFile, hspec], fun cmd hcmd => ?_⟩
      obtain rfl := Except.ok.inj hcmd
      rw [TestAtResult.path_of_test hwf hspec]
      simp [TestAtResult.ofFile, hspec, LaunchCommand.ofSpec, LaunchSelectors.command]

def specimenFiles : Files where
  kind? _ := some .file
  canonical? path := some path
  stamp _ := .ok default
  read _ := .ok Test.specimen.text
  walk roots := roots

def specimenFrontend : Frontend := fun _ => Test.specimen.root

-- the position is that of the separator before `config`
def specimenRequest (leaf : Bool) : TestAtRequest :=
  { path := "A.kt", line := 1, column := 52, leaf }

theorem position_queries_agree_specimen :
    ∃ r, testAt specimenFrontend specimenFiles (specimenRequest true) = .ok r ∧
      r.test.map (·.path) = some "outer slow" ∧
      testAt specimenFrontend specimenFiles (specimenRequest false) = .ok r ∧
      ∃ cmd, launch specimenFrontend specimenFiles (some "A.kt") (some (1, 52)) none = .ok cmd ∧
        cmd.args = ["--spec", "A", "--testpath", "outer slow"] := by
  have hload : specimenFrontend.load specimenFiles "A.kt" = .ok Test.specimen := by rfl
  have htrue : testAt specimenFrontend specimenFiles (specimenRequest true) =
      .ok (TestAtResult.ofFile Test.specimen (specimenRequest true)) := testAt_eq_ofFile hload
  have hpath : (TestAtResult.ofFile Test.specimen (specimenRequest true)).test.map (·.path) =
      some "outer slow" := by decide +kernel
  have hspec : (TestAtResult.ofFile Test.specimen (specimenRequest true)).spec = some "A" := by
    decide +kernel
  have hsome : (TestAtResult.ofFile Test.specimen (specimenRequest true)).test.isSome := by
    obtain ⟨_, ht, _⟩ := Option.map_eq_some_iff.mp hpath
    rw [ht, Option.isSome_some]
  obtain ⟨hleaf, _, r, hr, hlaunch, hargs⟩ :=
    position_queries_agree specimenFrontend specimenFiles "A.kt" 1 52 Test.specimen hload
      (by decide +kernel)
  have hfalse := hleaf _ htrue hsome
  obtain rfl := Except.ok.inj (hr.symm.trans hfalse)
  obtain ⟨cmd, hcmd⟩ := hlaunch.mpr (by rw [hspec, Option.isSome_some])
  refine ⟨_, htrue, hpath, hfalse, cmd, hcmd, ?_⟩
  rw [hargs cmd hcmd, hspec, hpath]
  decide +kernel

end SpecAtlas
