import Mathlib.Data.List.Forall2
import SpecAtlas.Proofs.Spec.Layout

/-! Reports of siblings. The reports of a forest have its shape, and a report is marked unique
exactly if no other report of its list has the same name. The top-level tests of a spec form one
list, whatever blocks of the class they come from. -/

namespace SpecAtlas

open Source

lemma countP_eq_one_iff {α : Type} {p : α → Bool} {l : List α} {i : Nat} {a : α}
    (hi : l[i]? = some a) (ha : p a = true) :
    l.countP p = 1 ↔ ∀ j b, l[j]? = some b → p b = true → j = i := by
  obtain ⟨front, back, rfl, rfl⟩ : ∃ front back, l = front ++ a :: back ∧ front.length = i := by
    obtain ⟨hlt, rfl⟩ := List.getElem?_eq_some_iff.mp hi
    exact ⟨l.take i, l.drop (i + 1), by simp, List.length_take_of_le hlt.le⟩
  have hcount : (front ++ a :: back).countP p = front.countP p + back.countP p + 1 := by
    rw [List.countP_append, List.countP_cons_of_pos ha, Nat.add_assoc]
  rw [hcount]
  constructor
  · intro h j b hj hb
    have hfront : front.countP p = 0 := by omega
    have hback : back.countP p = 0 := by omega
    rcases lt_trichotomy j front.length with hlt | heq | hgt
    · rw [List.getElem?_append_left hlt] at hj
      exact absurd hb (List.countP_eq_zero.mp hfront b (List.mem_of_getElem? hj))
    · exact heq
    · obtain ⟨k, rfl⟩ := Nat.exists_eq_add_of_lt hgt
      rw [List.getElem?_append_right (by omega), Nat.add_assoc, Nat.add_sub_cancel_left,
        List.getElem?_cons_succ] at hj
      exact absurd hb (List.countP_eq_zero.mp hback b (List.mem_of_getElem? hj))
  · intro h
    have hfront : front.countP p = 0 := by
      refine List.countP_eq_zero.mpr fun b hb hpb => ?_
      obtain ⟨j, hj, rfl⟩ := List.mem_iff_getElem.mp hb
      have hat : (front ++ a :: back)[j]? = some front[j] := by
        rw [List.getElem?_append_left hj, List.getElem?_eq_getElem hj]
      have := h j _ hat hpb
      omega
    have hback : back.countP p = 0 := by
      refine List.countP_eq_zero.mpr fun b hb hpb => ?_
      obtain ⟨j, hj, rfl⟩ := List.mem_iff_getElem.mp hb
      have hat : (front ++ a :: back)[front.length + (j + 1)]? = some back[j] := by
        rw [List.getElem?_append_right (by omega), Nat.add_sub_cancel_left,
          List.getElem?_cons_succ, List.getElem?_eq_getElem hj]
      have := h _ _ hat hpb
      omega
    omega

namespace TestReport

structure Takes (t : Test) (r : TestReport) : Prop where
  name : r.name = t.name
  path : r.path = t.path
  enabled : r.enabled = t.enabled

def Flagged (reports : List TestReport) : Prop :=
  ∀ (i : Nat) (r : TestReport), reports[i]? = some r →
    (r.unique = true ↔
      ∀ (j : Nat) (s : TestReport), reports[j]? = some s → s.name = r.name → j = i)

/-- The reports show a forest: there is one for each test, in the same order and with what the test
says, at every level the flags tell which names are unique, and the children are shown likewise. -/
inductive Shows : List Test → List TestReport → Prop
  | intro {tests : List Test} {reports : List TestReport}
      (htakes : List.Forall₂ Takes tests reports) (hflagged : Flagged reports)
      (hchildren : ∀ (i : Nat) (t : Test) (r : TestReport), tests[i]? = some t →
        reports[i]? = some r → Shows t.children r.children) : Shows tests reports

lemma takes_ofTest (f : File) (siblings : List Test) (t : Test) :
    Takes t (ofTest f siblings t) := by
  rw [ofTest_eq]
  exact ⟨rfl, rfl, rfl⟩

lemma ofTests_eq_map (f : File) (tests : List Test) :
    ofTests f tests = tests.map (ofTest f tests) :=
  ofTestsAmong_eq_map f tests tests

lemma uniqueIn_iff {tests : List Test} {i : Nat} {t : Test} (ht : tests[i]? = some t) :
    uniqueIn tests t.name = true ↔
      ∀ (j : Nat) (u : Test), tests[j]? = some u → u.name = t.name → j = i := by
  have hself : (t.name == t.name) = true := beq_self_eq_true t.name
  rw [uniqueIn, beq_iff_eq, countP_eq_one_iff (p := fun u : Test => u.name == t.name) ht hself]
  simp only [beq_iff_eq]

lemma flagged_ofTests (f : File) (tests : List Test) : Flagged (ofTests f tests) := by
  rw [ofTests_eq_map]
  intro i r hr
  rw [List.getElem?_map] at hr
  obtain ⟨t, ht, rfl⟩ := Option.map_eq_some_iff.mp hr
  have hunique : (ofTest f tests t).unique = uniqueIn tests t.name := by rw [ofTest_eq]
  rw [hunique, uniqueIn_iff ht, name_ofTest]
  simp only [List.getElem?_map, Option.map_eq_some_iff]
  constructor
  · rintro h j s ⟨u, hu, rfl⟩ hname
    rw [name_ofTest] at hname
    exact h j u hu hname
  · intro h j u hu hname
    exact h j _ ⟨u, hu, rfl⟩ (by rw [name_ofTest, hname])

lemma children_ofTest (f : File) (siblings : List Test) (t : Test) :
    (ofTest f siblings t).children = ofTests f t.children := by
  rw [ofTest_eq, ofTests_eq_map]

lemma shows_of_children {f : File} {tests : List Test}
    (h : ∀ t ∈ tests, Shows t.children (ofTests f t.children)) : Shows tests (ofTests f tests) := by
  refine .intro ?_ (flagged_ofTests f tests) fun i t r ht hr => ?_
  · rw [ofTests_eq_map, List.forall₂_map_right_iff, List.forall₂_same]
    exact fun t _ => takes_ofTest f tests t
  · rw [ofTests_eq_map, List.getElem?_map, ht, Option.map_some] at hr
    obtain rfl := Option.some.inj hr
    rw [children_ofTest]
    exact h t (List.mem_of_getElem? ht)

mutual

theorem shows_children (f : File) : (t : Test) → Shows t.children (ofTests f t.children)
  | ⟨_, _, _, _, children⟩ => shows_of_children (shows_children_of_mem f children)

theorem shows_children_of_mem (f : File) :
    (tests : List Test) → ∀ t ∈ tests, Shows t.children (ofTests f t.children)
  | [] => by simp
  | t :: tests => List.forall_mem_cons.mpr ⟨shows_children f t, shows_children_of_mem f tests⟩

end

theorem shows_ofTests (f : File) (tests : List Test) : Shows tests (ofTests f tests) :=
  shows_of_children (shows_children_of_mem f tests)

end TestReport

/-- The reports of a spec show its tests, where the tests of the constructor lambda and those of all
`init` blocks are siblings of one another. -/
theorem SpecReport.tests_shown (f : File) (hide : Hiding) (spec : Spec) :
    TestReport.Shows
      (((spec.node.supertypeCall?.bind Place.constructorLambda?).toList ++
        (spec.node.classBody?.map Place.initializerBlocks).getD []).flatMap
          (Test.inBlock spec.style f))
      (SpecReport.ofOutline f (Outline.ofSpec f hide spec)).tests := by
  have htests : (SpecReport.ofOutline f (Outline.ofSpec f hide spec)).tests =
      TestReport.ofTests f (spec.node.containers.flatMap (Test.inBlock spec.style f)) := rfl
  rw [htests, Place.containers]
  exact TestReport.shows_ofTests f _

end SpecAtlas
