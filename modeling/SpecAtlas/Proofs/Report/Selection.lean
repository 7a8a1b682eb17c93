import SpecAtlas.Proofs.Report.Coverage
import SpecAtlas.Proofs.Report.Siblings
import SpecAtlas.Proofs.Spec.DisplayPath

/-! Selecting tests by their paths. Where every test on the way has a name of its own among its
siblings, the names from the top lead to one place of the tree. Their texts, joined by blanks, are
the same for two places only if, where the ways part, one name goes on with a blank where the other
ends. -/

namespace SpecAtlas

open Source

lemma exists_more_of_append_eq {x y s t : String} (hne : x ≠ y)
    (h : x ++ " " ++ s = y ++ " " ++ t) :
    ∃ more, y = x ++ " " ++ more ∨ x = y ++ " " ++ more := by
  have hlists : x.toList ++ ' ' :: s.toList = y.toList ++ ' ' :: t.toList := by
    simpa using congrArg String.toList h
  rcases List.append_eq_append_iff.mp hlists with ⟨between, hy, hs⟩ | ⟨between, hx, ht⟩
  · cases between with
    | nil => exact absurd (String.toList_inj.mp (by simpa using hy.symm)) hne
    | cons c more =>
      obtain ⟨rfl, -⟩ := List.cons.inj hs
      exact ⟨String.ofList more, .inl (String.toList_inj.mp (by simp [hy]))⟩
  · cases between with
    | nil => exact absurd (String.toList_inj.mp (by simpa using hx)) hne
    | cons c more =>
      obtain ⟨rfl, -⟩ := List.cons.inj ht
      exact ⟨String.ofList more, .inr (String.toList_inj.mp (by simp [hx]))⟩

lemma ne_append_blank (x s : String) : x ≠ x ++ " " ++ s := by
  intro h
  have hlength := congrArg String.length h
  simp only [String.length_append] at hlength
  have hblank : " ".length = 1 := rfl
  omega

lemma exists_more_of_intercalate_eq {x y : String} {rest rest' : List String} (hne : x ≠ y)
    (h : " ".intercalate (x :: rest) = " ".intercalate (y :: rest')) :
    ∃ more, y = x ++ " " ++ more ∨ x = y ++ " " ++ more := by
  by_cases hrest : rest = []
  · subst hrest
    by_cases hrest' : rest' = []
    · subst hrest'
      simp only [String.intercalate_singleton] at h
      exact absurd h hne
    · rw [String.intercalate_singleton, String.intercalate_cons_of_ne_nil hrest'] at h
      exact ⟨_, .inr h⟩
  · rw [String.intercalate_cons_of_ne_nil hrest] at h
    by_cases hrest' : rest' = []
    · subst hrest'
      rw [String.intercalate_singleton] at h
      exact ⟨_, .inl h.symm⟩
    · rw [String.intercalate_cons_of_ne_nil hrest'] at h
      exact exists_more_of_append_eq hne h

lemma intercalate_cons_inj {x : String} {rest rest' : List String} (hne : rest ≠ rest')
    (h : " ".intercalate (x :: rest) = " ".intercalate (x :: rest')) :
    rest ≠ [] ∧ rest' ≠ [] ∧ " ".intercalate rest = " ".intercalate rest' := by
  have hrest : rest ≠ [] := by
    rintro rfl
    rw [String.intercalate_singleton, String.intercalate_cons_of_ne_nil hne.symm] at h
    exact ne_append_blank x _ h
  have hrest' : rest' ≠ [] := by
    rintro rfl
    rw [String.intercalate_singleton, String.intercalate_cons_of_ne_nil hne] at h
    exact ne_append_blank x _ h.symm
  rw [String.intercalate_cons_of_ne_nil hrest, String.intercalate_cons_of_ne_nil hrest'] at h
  refine ⟨hrest, hrest', String.toList_inj.mp ?_⟩
  simpa using congrArg String.toList h

lemma exists_parting_of_intercalate_eq {l l' : List String} (hl : l ≠ []) (hl' : l' ≠ [])
    (hne : l ≠ l') (h : " ".intercalate l = " ".intercalate l') :
    ∃ common x y rest rest' more, l = common ++ x :: rest ∧ l' = common ++ y :: rest' ∧
      (y = x ++ " " ++ more ∨ x = y ++ " " ++ more) := by
  induction l generalizing l' with
  | nil => exact absurd rfl hl
  | cons x rest ih =>
    cases l' with
    | nil => exact absurd rfl hl'
    | cons y rest' =>
      by_cases hxy : x = y
      · subst hxy
        have hrests : rest ≠ rest' := fun he => hne (congrArg (x :: ·) he)
        obtain ⟨hrest, hrest', htail⟩ := intercalate_cons_inj hrests h
        obtain ⟨common, u, v, r, r', more, rfl, rfl, hmore⟩ := ih hrest hrest' hrests htail
        exact ⟨x :: common, u, v, r, r', more, rfl, rfl, hmore⟩
      · obtain ⟨more, hmore⟩ := exists_more_of_intercalate_eq hxy h
        exact ⟨[], x, y, rest, rest', more, rfl, rfl, hmore⟩

namespace Test

variable {style : Style} {f : File} {cls : Place} {front : List String} {ts : List Test}

def Under (style : Style) (f : File) (cls : Place) (front : List String) (ts : List Test) : Prop :=
  ∀ t ∈ ts, ∃ call, Declared style f cls call ∧ t = ofCall style f call ∧
    (namesAbove style f call.node).reverse = front

lemma under_testsOf (f : File) {spec : Spec} (hcls : spec.node.isClass = true) :
    Under spec.style f spec.node [] (Outline.testsOf f spec) := by
  intro t ht
  obtain ⟨block, hb, ht⟩ := List.mem_flatMap.mp ht
  obtain ⟨s, hs, call, hcall, rfl⟩ := mem_inBlock.mp ht
  refine ⟨call, .top hb hs hcall, rfl, ?_⟩
  rw [Spec.testCall?_node hcall, Declared.namesAbove_of_top hcls hb hs, List.reverse_nil]

lemma Under.children (h : Under style f cls front ts) {t : Test} (ht : t ∈ ts) :
    Under style f cls (front ++ [t.name]) t.children := by
  obtain ⟨outer, hd, rfl, hfront⟩ := h t ht
  intro u hu
  obtain ⟨s, hs, call, hcall, rfl⟩ := mem_inBlock.mp hu
  refine ⟨call, hd.nested hs hcall, rfl, ?_⟩
  rw [Spec.testCall?_node hcall, Declared.namesAbove_of_nested hd hs, List.reverse_cons, hfront]
  rfl

lemma Under.path (h : Under style f cls front ts) (hn : f.rootPlace.Nested)
    (hmem : cls ∈ f.rootPlace.preorder) (hcls : cls.isClass = true) {t : Test} (ht : t ∈ ts) :
    t.path = " ".intercalate (front ++ [t.name]) := by
  obtain ⟨call, hd, rfl, hfront⟩ := h t ht
  rw [ofCall, pathOf, hd.enclosingNames_eq hn hmem hcls, hfront]

end Test

namespace TestReport

variable {f : File} {ts : List Test} {address : List Nat} {way : List TestReport}

def along : List TestReport → List Nat → Option (List TestReport)
  | _, [] => some []
  | reports, n :: rest =>
    (reports[n]?).bind fun r => (along r.children rest).map (r :: ·)

lemma along_ofTests_cons {n : Nat} (h : along (ofTests f ts) (n :: address) = some way) :
    ∃ t rest, ts[n]? = some t ∧ along (ofTests f t.children) address = some rest ∧
      way = ofTest f ts t :: rest := by
  rw [along] at h
  obtain ⟨r, hr, hway⟩ := Option.bind_eq_some_iff.mp h
  obtain ⟨rest, hrest, rfl⟩ := Option.map_eq_some_iff.mp hway
  rw [ofTests_eq_map, List.getElem?_map] at hr
  obtain ⟨t, ht, rfl⟩ := Option.map_eq_some_iff.mp hr
  rw [children_ofTest] at hrest
  exact ⟨t, rest, ht, hrest, rfl⟩

lemma path_of_along {style : Style} {cls : Place} {front : List String} {r : TestReport}
    (hn : f.rootPlace.Nested) (hmem : cls ∈ f.rootPlace.preorder) (hcls : cls.isClass = true)
    (hts : Test.Under style f cls front ts)
    (h : along (ofTests f ts) address = some (way ++ [r])) :
    r.path = " ".intercalate (front ++ (way ++ [r]).map name) := by
  induction address generalizing ts front way with
  | nil => simp [along] at h
  | cons n address ih =>
    obtain ⟨t, rest, ht, hrest, hway⟩ := along_ofTests_cons h
    have hmember := List.mem_of_getElem? ht
    have hname : (ofTest f ts t).name = t.name := name_ofTest f ts t
    cases way with
    | nil =>
      obtain ⟨rfl, rfl⟩ := List.cons.inj hway
      rw [List.nil_append, List.map_singleton, hname, ofTest_eq]
      exact hts.path hn hmem hcls hmember
    | cons first way =>
      obtain ⟨rfl, rfl⟩ := List.cons.inj hway
      rw [ih (hts.children hmember) hrest, List.cons_append, List.map_cons, hname,
        List.append_assoc]
      rfl

lemma names_ne_of_along {address' : List Nat} {way' : List TestReport} (hne : address ≠ address')
    (h : along (ofTests f ts) address = some way) (h' : along (ofTests f ts) address' = some way')
    (hu : ∀ r ∈ way, r.unique = true) : way.map name ≠ way'.map name := by
  induction address generalizing ts address' way way' with
  | nil =>
    obtain rfl := Option.some.inj h
    cases address' with
    | nil => exact absurd rfl hne
    | cons m address' =>
      obtain ⟨u, rest', -, -, rfl⟩ := along_ofTests_cons h'
      exact (List.cons_ne_nil _ _).symm
  | cons n address ih =>
    obtain ⟨t, rest, ht, hrest, rfl⟩ := along_ofTests_cons h
    cases address' with
    | nil =>
      obtain rfl := Option.some.inj h'
      exact List.cons_ne_nil _ _
    | cons m address' =>
      obtain ⟨u, rest', hu', hrest', rfl⟩ := along_ofTests_cons h'
      intro hnames
      obtain ⟨hfirst, hothers⟩ := List.cons.inj hnames
      rw [name_ofTest, name_ofTest] at hfirst
      have hunique : uniqueIn ts t.name = true := by
        have hself := hu _ List.mem_cons_self
        rwa [ofTest_eq] at hself
      have hnm : n = m := ((uniqueIn_iff ht).mp hunique m u hu' hfirst.symm).symm
      subst hnm
      obtain rfl := Option.some.inj (ht.symm.trans hu')
      refine ih (fun he => hne (congrArg (n :: ·) he)) hrest hrest' ?_ hothers
      exact fun r hr => hu r (List.mem_cons_of_mem _ hr)

end TestReport

/-- Two tests of a spec at different places, with names that are unique among their siblings all the
way down, have different names on their ways. Their paths are these names joined by blanks, and they
are the same only if, where the ways part, one name is the other with a blank and more behind it. -/
theorem paths_of_unique_tests (f : File) (hn : f.rootPlace.Nested) (path : String) (hide : Hiding)
    (s : SpecReport) (hs : s ∈ (FileReport.ofFile path f hide).specs) (address address' : List Nat)
    (hne : address ≠ address') (way way' : List TestReport) (t t' : TestReport)
    (h : TestReport.along s.tests address = some (way ++ [t]))
    (h' : TestReport.along s.tests address' = some (way' ++ [t']))
    (hu : ∀ r ∈ way ++ [t], r.unique = true) :
    t.path = " ".intercalate ((way ++ [t]).map TestReport.name) ∧
      t'.path = " ".intercalate ((way' ++ [t']).map TestReport.name) ∧
      (way ++ [t]).map TestReport.name ≠ (way' ++ [t']).map TestReport.name ∧
      (t.path = t'.path → ∃ common x y rest rest' more,
        (way ++ [t]).map TestReport.name = common ++ x :: rest ∧
        (way' ++ [t']).map TestReport.name = common ++ y :: rest' ∧
        (y = x ++ " " ++ more ∨ x = y ++ " " ++ more)) := by
  obtain ⟨o, ho, rfl⟩ := List.mem_map.mp hs
  obtain ⟨spec, hspec, rfl⟩ := List.mem_map.mp ho
  obtain ⟨hmem, hclass⟩ := Spec.ofClass?_of_mem_topLevel hspec
  have hcls := Spec.isClass_of_classify? (Spec.ofClass?_eq_some hclass).2
  have htop := Test.under_testsOf f hcls
  have hpath := TestReport.path_of_along hn hmem hcls htop h
  have hpath' := TestReport.path_of_along hn hmem hcls htop h'
  have hnames := TestReport.names_ne_of_along hne h h' hu
  refine ⟨hpath, hpath', hnames, fun he => ?_⟩
  rw [hpath, hpath'] at he
  exact exists_parting_of_intercalate_eq (by simp) (by simp) hnames he

def overlapping : File where
  text := "class ASpec : FunSpec(\x7b\n" ++
    "    context(\"a b\") \x7b\n" ++
    "        test(\"c\") \x7b \x7d\n" ++
    "    \x7d\n" ++
    "    context(\"a\") \x7b\n" ++
    "        test(\"b c\") \x7b \x7d\n" ++
    "    \x7d\n" ++
    "\x7d)\n"
  root := (Node.ofPreorder
    [(⟨"source_file", 0, 125, true, false, false⟩, 1),
      (⟨"class_declaration", 0, 124, true, false, false⟩, 2),
      (⟨"identifier", 6, 11, true, true, false⟩, 0),
      (⟨"delegation_specifiers", 14, 124, true, false, false⟩, 1),
      (⟨"delegation_specifier", 14, 124, true, false, false⟩, 1),
      (⟨"constructor_invocation", 14, 124, true, false, false⟩, 2),
      (⟨"user_type", 14, 21, true, false, false⟩, 1),
      (⟨"identifier", 14, 21, true, false, false⟩, 0),
      (⟨"value_arguments", 21, 124, true, false, false⟩, 1),
      (⟨"value_argument", 22, 123, true, false, false⟩, 1),
      (⟨"lambda_literal", 22, 123, true, false, false⟩, 2),
      (⟨"call_expression", 28, 72, true, false, false⟩, 2),
      (⟨"call_expression", 28, 42, true, false, false⟩, 2),
      (⟨"identifier", 28, 35, true, false, false⟩, 0),
      (⟨"value_arguments", 35, 42, true, false, false⟩, 1),
      (⟨"value_argument", 36, 41, true, false, false⟩, 1),
      (⟨"string_literal", 36, 41, true, false, false⟩, 0),
      (⟨"annotated_lambda", 43, 72, true, false, false⟩, 1),
      (⟨"lambda_literal", 43, 72, true, false, false⟩, 1),
      (⟨"call_expression", 53, 66, true, false, false⟩, 2),
      (⟨"call_expression", 53, 62, true, false, false⟩, 2),
      (⟨"identifier", 53, 57, true, false, false⟩, 0),
      (⟨"value_arguments", 57, 62, true, false, false⟩, 1),
      (⟨"value_argument", 58, 61, true, false, false⟩, 1),
      (⟨"string_literal", 58, 61, true, false, false⟩, 0),
      (⟨"annotated_lambda", 63, 66, true, false, false⟩, 1),
      (⟨"lambda_literal", 63, 66, true, false, false⟩, 0),
      (⟨"call_expression", 77, 121, true, false, false⟩, 2),
      (⟨"call_expression", 77, 89, true, false, false⟩, 2),
      (⟨"identifier", 77, 84, true, false, false⟩, 0),
      (⟨"value_arguments", 84, 89, true, false, false⟩, 1),
      (⟨"value_argument", 85, 88, true, false, false⟩, 1),
      (⟨"string_literal", 85, 88, true, false, false⟩, 0),
      (⟨"annotated_lambda", 90, 121, true, false, false⟩, 1),
      (⟨"lambda_literal", 90, 121, true, false, false⟩, 1),
      (⟨"call_expression", 100, 115, true, false, false⟩, 2),
      (⟨"call_expression", 100, 111, true, false, false⟩, 2),
      (⟨"identifier", 100, 104, true, false, false⟩, 0),
      (⟨"value_arguments", 104, 111, true, false, false⟩, 1),
      (⟨"value_argument", 105, 110, true, false, false⟩, 1),
      (⟨"string_literal", 105, 110, true, false, false⟩, 0),
      (⟨"annotated_lambda", 112, 115, true, false, false⟩, 1),
      (⟨"lambda_literal", 112, 115, true, false, false⟩, 0)]).headD default

def overlappingSpec : SpecReport :=
  (FileReport.ofFile "A.kt" overlapping {}).specs.head (by decide +kernel)

lemma overlappingSpec_mem : overlappingSpec ∈ (FileReport.ofFile "A.kt" overlapping {}).specs :=
  List.head_mem _

lemma exists_way_overlapping (address : List Nat) (outer : String)
    (h : (TestReport.along overlappingSpec.tests address).map
      (List.map fun r => (r.path, r.unique)) = some [(outer, true), ("a b c", true)]) :
    ∃ above t, TestReport.along overlappingSpec.tests address = some ([above] ++ [t]) ∧
      (∀ r ∈ [above] ++ [t], r.unique = true) ∧ t.path = "a b c" := by
  obtain ⟨way, hway, hviews⟩ := Option.map_eq_some_iff.mp h
  rcases way with _ | ⟨above, _ | ⟨t, _ | ⟨u, way⟩⟩⟩ <;> simp at hviews
  obtain ⟨⟨-, habove⟩, ht, hunique⟩ := hviews
  refine ⟨above, t, hway, ?_, ht⟩
  simp [habove, hunique]

theorem paths_of_unique_tests_overlapping :
    overlapping.rootPlace.Nested ∧
    ∃ s ∈ (FileReport.ofFile "A.kt" overlapping {}).specs, ∃ way way' t t',
      TestReport.along s.tests [0, 0] = some (way ++ [t]) ∧
      TestReport.along s.tests [1, 0] = some (way' ++ [t']) ∧
      (∀ r ∈ way ++ [t], r.unique = true) ∧
      (way ++ [t]).map TestReport.name ≠ (way' ++ [t']).map TestReport.name ∧
      (t.path = t'.path → ∃ common x y rest rest' more,
        (way ++ [t]).map TestReport.name = common ++ x :: rest ∧
        (way' ++ [t']).map TestReport.name = common ++ y :: rest' ∧
        (y = x ++ " " ++ more ∨ x = y ++ " " ++ more)) := by
  have hn : overlapping.rootPlace.Nested := by decide +kernel
  obtain ⟨above, t, hway, hunique, -⟩ := exists_way_overlapping [0, 0] "a b" (by decide +kernel)
  obtain ⟨above', t', hway', -, -⟩ := exists_way_overlapping [1, 0] "a" (by decide +kernel)
  obtain ⟨-, -, hnames, hpaths⟩ := paths_of_unique_tests overlapping hn "A.kt" {} overlappingSpec
    overlappingSpec_mem [0, 0] [1, 0] (by decide) [above] [above'] t t' hway hway' hunique
  exact ⟨hn, overlappingSpec, overlappingSpec_mem, [above], [above'], t, t', hway, hway', hunique,
    hnames, hpaths⟩

/-- Not every path selects one test: `a b` above `c` and `a` above `b c` make the same text. -/
theorem overlapping_paths_eq :
    ∃ s ∈ (FileReport.ofFile "A.kt" overlapping {}).specs, ∃ address address' way way' t t',
      address ≠ address' ∧
      TestReport.along s.tests address = some (way ++ [t]) ∧
      TestReport.along s.tests address' = some (way' ++ [t']) ∧
      (∀ r ∈ way ++ [t], r.unique = true) ∧ (∀ r ∈ way' ++ [t'], r.unique = true) ∧
      t.path = t'.path := by
  obtain ⟨above, t, hway, hunique, ht⟩ :=
    exists_way_overlapping [0, 0] "a b" (by decide +kernel)
  obtain ⟨above', t', hway', hunique', ht'⟩ :=
    exists_way_overlapping [1, 0] "a" (by decide +kernel)
  exact ⟨overlappingSpec, overlappingSpec_mem, [0, 0], [1, 0], [above], [above'], t, t',
    by decide, hway, hway', hunique, hunique', ht.trans ht'.symm⟩

end SpecAtlas
