import SpecAtlas.Proofs.Source.WellFormed
import SpecAtlas.Proofs.Spec.Forest

/-! Ranges of test calls. The callee of a test call and its body are both not empty, so nothing
below the call covers the same bytes, and the text range that is shown for a test call determines
it. -/

namespace SpecAtlas

open Source

namespace Source

lemma File.slice_of_le (f : File) {start stop : Nat} (h : stop ≤ start) :
    f.slice start stop = "" := by
  simp only [slice]
  split
  · rename_i hb
    obtain rfl : start = stop := by
      simp only [Bool.and_eq_true, decide_eq_true_eq] at hb
      omega
    have he : f.text.toByteArray.extract start start = ByteArray.empty := by
      simp
    rw [he]
    rfl
  · rfl

lemma File.start_lt_stop_of_textOf {f : File} {p : Place} (h : f.textOf p ≠ "") :
    p.start < p.stop := by
  by_contra hle
  exact h (f.slice_of_le (Nat.le_of_not_lt hle))

end Source

lemma Style.keyword?_empty (s : Style) : s.keyword? "" = none := by
  cases s <;> decide

namespace Spec

variable {style : Style} {f : File} {p q : Place} {call : TestCall}

def Stem.place : Stem → Place
  | head call => call
  | base callee _ => callee

lemma mem_preorder_of_stem? {callee : Place} {arguments : List Place} {s : Stem}
    (h : stem? callee arguments = some s) : s.place ∈ callee.preorder := by
  fun_induction stem? callee arguments with
  | case1 => cases h
  | case2 callee _ _ inner _ _ =>
    obtain rfl := Option.some.inj h
    exact Place.self_mem_preorder callee
  | case3 callee _ _ inner hc _ ih =>
    have hcallee := Place.mem_children_of_mem_namedChildren (Place.callee_mem_namedChildren hc)
    exact Place.mem_preorder_trans (Place.mem_preorder_of_mem_children hcallee) (ih h)
  | case4 callee =>
    obtain rfl := Option.some.inj h
    exact Place.self_mem_preorder callee

lemma filled_of_keywordHead? {head : Head} (h : keywordHead? style f p = some head) :
    ∃ parts, p.callParts? = some parts ∧ parts.callee.start < parts.callee.stop := by
  simp only [keywordHead?, Option.bind_eq_bind, Option.bind_eq_some_iff] at h
  obtain ⟨parts, hparts, _, _, found, hk, _⟩ := h
  have htext : f.textOf parts.callee ≠ "" := by
    intro he
    have hblank : Text.stripBackticks "" = "" := by decide
    rw [he, hblank, Style.keyword?_empty] at hk
    cases hk
  exact ⟨parts, hparts, File.start_lt_stop_of_textOf htext⟩

lemma filled_of_stringHead? (hwf : f.WellFormed) (hp : p ∈ f.rootPlace.preorder) {head : Head}
    (h : stringHead? f p = some head) :
    p.kind = "string_literal" ∨
      ∃ parts, p.callParts? = some parts ∧ parts.callee.start < parts.callee.stop := by
  obtain ⟨literal, hl, -⟩ := Option.map_eq_some_iff.mp h
  rw [headLiteral?] at hl
  split at hl
  · rename_i hk
    exact .inl (by simpa using hk)
  · simp only [Option.bind_eq_bind, Option.bind_eq_some_iff] at hl
    obtain ⟨parts, hparts, _, hg, _⟩ := hl
    refine .inr ⟨parts, hparts, hwf.filled _ ?_ (.inr ?_)⟩
    · have hchild := Place.mem_children_of_mem_namedChildren (Place.callee_mem_namedChildren hparts)
      exact Place.mem_preorder_trans hp (Place.mem_preorder_of_mem_children hchild)
    · simp_all [guard]

lemma filled_of_head? (hwf : f.WellFormed) (hp : p ∈ f.rootPlace.preorder) {head : Head}
    (h : head? style f p = some head) :
    p.kind = "string_literal" ∨
      ∃ parts, p.callParts? = some parts ∧ parts.callee.start < parts.callee.stop := by
  cases style with
  | string => exact filled_of_stringHead? hwf hp h
  | _ => exact .inr (filled_of_keywordHead? h)

lemma start_lt_stop_of_mem (hwf : f.WellFormed) (hp : p ∈ f.rootPlace.preorder)
    (hq : q ∈ p.preorder) (hf : q.start < q.stop) : p.start < p.stop := by
  have hb := (hwf.nested.of_mem hp).bounds hq
  omega

lemma start_lt_stop_of_head? (hwf : f.WellFormed) (hp : p ∈ f.rootPlace.preorder) {head : Head}
    (h : head? style f p = some head) : p.start < p.stop := by
  rcases filled_of_head? hwf hp h with hk | ⟨parts, hparts, hf⟩
  · exact hwf.filled p hp (.inr hk)
  · have hchild := Place.mem_children_of_mem_namedChildren (Place.callee_mem_namedChildren hparts)
    exact start_lt_stop_of_mem hwf hp (Place.mem_preorder_of_mem_children hchild) hf

lemma callee_filled (hwf : f.WellFormed) (hp : p ∈ f.rootPlace.preorder) {parts : CallParts}
    (hparts : p.callParts? = some parts) {head : Head} (h : headOf? style f p parts = some head) :
    parts.callee.start < parts.callee.stop := by
  have hchild := Place.mem_children_of_mem_namedChildren (Place.callee_mem_namedChildren hparts)
  have hcallee := Place.mem_preorder_trans hp (Place.mem_preorder_of_mem_children hchild)
  rcases headOf?_cases h with ⟨inner, hs, hh⟩ | ⟨nav, _, receiver, _, _, hs, hnav, -, hh, -⟩ |
    ⟨_, _, -, -, hh⟩
  · have hplace : inner ∈ parts.callee.preorder := mem_preorder_of_stem? hs
    have hroot := Place.mem_preorder_trans hcallee hplace
    exact start_lt_stop_of_mem hwf hcallee hplace (start_lt_stop_of_head? hwf hroot hh)
  · have hplace : nav ∈ parts.callee.preorder := mem_preorder_of_stem? hs
    have hreceiver := Place.mem_preorder_trans hplace (Place.mem_preorder_of_navigationParts? hnav)
    have hroot := Place.mem_preorder_trans hcallee hreceiver
    exact start_lt_stop_of_mem hwf hcallee hreceiver (start_lt_stop_of_head? hwf hroot hh)
  · rcases filled_of_head? hwf hp hh with hk | ⟨parts', hparts', hf⟩
    · rw [Place.callParts?_kind hparts] at hk
      exact absurd hk (by decide)
    · obtain rfl := Option.some.inj (hparts.symm.trans hparts')
      exact hf

lemma body_filled (hwf : f.WellFormed) (hp : p ∈ f.rootPlace.preorder)
    (h : testCall? style f p = some call) : call.body.start < call.body.stop := by
  obtain ⟨hbelow, hk⟩ := below_body h
  exact hwf.filled _ (Place.mem_preorder_trans hp hbelow.mem_preorder) (.inl hk)

lemma start_lt_stop_of_testCall? (hwf : f.WellFormed) (hp : p ∈ f.rootPlace.preorder)
    (h : testCall? style f p = some call) : p.start < p.stop :=
  start_lt_stop_of_mem hwf hp (below_body h).1.mem_preorder (body_filled hwf hp h)

lemma callee_stop_le_body (hwf : f.WellFormed) (hp : p ∈ f.rootPlace.preorder)
    {parts : CallParts} (hparts : p.callParts? = some parts) {body : Place}
    (hbody : parts.lambda = some body) : parts.callee.stop ≤ body.start := by
  obtain ⟨callee, rest, hc, he⟩ := Place.callParts?_eq_some hparts
  obtain ⟨c, hcr, hl⟩ := Place.exists_piece_of_lambda hparts hc hbody
  have hchild : c ∈ p.children :=
    Place.mem_children_of_mem_namedChildren (hc ▸ List.mem_cons_of_mem _ hcr)
  have hroot := Place.mem_preorder_trans hp (Place.mem_preorder_of_mem_children hchild)
  have hpair : p.namedChildren.Pairwise fun c d => c.stop ≤ d.start :=
    (hwf.ordered p hp).sublist List.filter_sublist
  rw [hc, List.pairwise_cons] at hpair
  rw [he, CallParts.callee_foldl_absorb]
  exact (hpair.1 c hcr).trans ((hwf.nested.of_mem hroot).bounds hl).1

lemma bytes_ne_of_below (hwf : f.WellFormed) (hp : p ∈ f.rootPlace.preorder)
    (h : testCall? style f p = some call) {c : Place} (hc : c ∈ p.children) (hq : q ∈ c.preorder) :
    p.start < q.start ∨ q.stop < p.stop := by
  obtain ⟨parts, head, hparts, hbody, hhead, _⟩ := testCall?_eq_some h
  have hnested := hwf.nested.of_mem hp
  have hcallee := Place.mem_children_of_mem_namedChildren (Place.callee_mem_namedChildren hparts)
  have hfilled := callee_filled hwf hp hparts hhead
  have hcalleeb := hnested.bounds (Place.mem_preorder_of_mem_children hcallee)
  have hqb := (hnested.of_mem (Place.mem_preorder_of_mem_children hc)).bounds hq
  rcases (hwf.ordered.of_mem hp).children_cases hc hcallee with rfl | hle | hle
  · have hbodyb := hnested.bounds (below_body h).1.mem_preorder
    have hbodyf := body_filled hwf hp h
    have hle := callee_stop_le_body hwf hp hparts hbody
    omega
  · omega
  · omega

theorem eq_of_rangeOf_eq (hwf : f.WellFormed) {style' : Style} {call' : TestCall}
    (hp : p ∈ f.rootPlace.preorder) (hq : q ∈ f.rootPlace.preorder)
    (hpc : testCall? style f p = some call) (hqc : testCall? style' f q = some call')
    (he : f.rangeOf p = f.rangeOf q) : p = q := by
  have hpf := start_lt_stop_of_testCall? hwf hp hpc
  have hqf := start_lt_stop_of_testCall? hwf hq hqc
  obtain ⟨hstart, hstop⟩ := hwf.bytes_of_rangeOf_eq hp hq hpf hqf he
  rcases Place.nested_or_apart hwf.nested hwf.ordered hp hq with h | h | h | h
  · rcases Place.mem_preorder.mp h with rfl | ⟨c, hc, hqc⟩
    · rfl
    · have := bytes_ne_of_below hwf hp hpc hc hqc
      omega
  · rcases Place.mem_preorder.mp h with rfl | ⟨c, hc, hpc⟩
    · rfl
    · have := bytes_ne_of_below hwf hq hqc hc hpc
      omega
  · omega
  · omega

end Spec

end SpecAtlas
