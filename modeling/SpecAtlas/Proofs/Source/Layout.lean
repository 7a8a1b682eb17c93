import Mathlib.Logic.Relation
import SpecAtlas.Proofs.Source.Alike

/-! Layouts of a syntax tree. Grammars differ in which children they put into a node of their own.
For one such difference the places of the two trees are related, and the readers of calls,
navigations and blocks, which open the wrappers up, find related places. -/

namespace SpecAtlas.Source

namespace Node

/-- The wrappers that may be put around a run of children, given the label of their parent and the
children in front of them: around what follows the callee of a call, around the separator and the
name of a navigation, and around statements of a block. -/
inductive Wraps (parent wrapper : Label) (front : List Node) : List Node → Prop
  | suffix {run : List Node} : parent.kind = "call_expression" → wrapper.kind = "call_suffix" →
      front.any named = true → Wraps parent wrapper front run
  | selector {separator name : Node} : parent.kind = "navigation_expression" →
      wrapper.kind = "navigation_suffix" → front.any named = true → name.named = true →
      name.kind ≠ "navigation_suffix" → Wraps parent wrapper front [separator, name]
  | statements {run : List Node} : parent.kind ∈ ["lambda_literal", "block"] →
      wrapper.kind = "statements" → Wraps parent wrapper front run

/-- One difference in layout, anywhere in a tree. -/
inductive Reshape : Node → Node → Prop
  | wrap {parent wrapper : Label} {front run rest : List Node} :
      Wraps parent wrapper front run → wrapper.named = true →
      Reshape (mk parent (front ++ run ++ rest)) (mk parent (front ++ mk wrapper run :: rest))
  | rename {label : Label} : label.kind = "identifier" →
      Reshape (mk label []) (mk { label with kind := "simple_identifier" } [])
  | inside {parent : Label} {front rest : List Node} {c c' : Node} : Reshape c c' →
      Reshape (mk parent (front ++ c :: rest)) (mk parent (front ++ c' :: rest))

def Like (n n' : Node) : Prop := n = n' ∨ Reshape n n'

lemma Like.refl (n : Node) : n.Like n := .inl rfl

lemma Like.label_cases {n n' : Node} (h : n.Like n') :
    n'.label = n.label ∨
      n.label.kind = "identifier" ∧ n'.label = { n.label with kind := "simple_identifier" } := by
  rcases h with rfl | h
  · exact .inl rfl
  · cases h with
    | wrap _ _ => exact .inl rfl
    | rename hk => exact .inr ⟨hk, rfl⟩
    | inside _ => exact .inl rfl

lemma forall₂_like_refl (ns : List Node) : List.Forall₂ Like ns ns :=
  List.forall₂_same.mpr fun n _ => .refl n

lemma Like.named_eq {n n' : Node} (h : n.Like n') : n.named = n'.named := by
  rcases h.label_cases with hl | ⟨-, hl⟩ <;> rw [named, named, hl]

def firstNamed (n : Node) : Nat := n.children.findIdx named

lemma findIdx_named_eq {ns ns' : List Node} (h : List.Forall₂ Like ns ns') :
    ns.findIdx named = ns'.findIdx named := by
  induction h with
  | nil => rfl
  | cons hn _ ih => rw [List.findIdx_cons, List.findIdx_cons, hn.named_eq, ih]

def wrapped : List String :=
  ["call_expression", "navigation_expression", "lambda_literal", "block"]

lemma Wraps.parent_mem {parent wrapper : Label} {front run : List Node}
    (h : Wraps parent wrapper front run) : parent.kind ∈ wrapped := by
  cases h with
  | suffix hp _ _ => simp [hp, wrapped]
  | selector hp _ _ _ _ => simp [hp, wrapped]
  | statements hp _ =>
    have hsub : ["lambda_literal", "block"] ⊆ wrapped := by simp [wrapped]
    exact hsub hp

lemma Wraps.kind_mem {parent wrapper : Label} {front run : List Node}
    (h : Wraps parent wrapper front run) :
    wrapper.kind ∈ ["call_suffix", "navigation_suffix", "statements"] := by
  cases h with
  | suffix _ hw _ => simp [hw]
  | selector _ hw _ _ _ => simp [hw]
  | statements _ hw => simp [hw]

lemma Wraps.of_call {parent wrapper : Label} {front run : List Node}
    (h : Wraps parent wrapper front run) (hk : parent.kind = "call_expression") :
    wrapper.kind = "call_suffix" ∧ front.any named = true := by
  cases h with
  | suffix _ hw hany => exact ⟨hw, hany⟩
  | selector hp => exact absurd (hp.symm.trans hk) (by simp)
  | statements hp =>
    rw [hk] at hp
    exact absurd hp (by simp)

lemma Wraps.of_navigation {parent wrapper : Label} {front run : List Node}
    (h : Wraps parent wrapper front run) (hk : parent.kind = "navigation_expression") :
    wrapper.kind = "navigation_suffix" ∧ front.any named = true ∧
      ∃ separator name, run = [separator, name] ∧ name.named = true ∧
        name.kind ≠ "navigation_suffix" := by
  cases h with
  | suffix hp => exact absurd (hp.symm.trans hk) (by simp)
  | selector _ hw hany hn hne => exact ⟨hw, hany, _, _, rfl, hn, hne⟩
  | statements hp =>
    rw [hk] at hp
    exact absurd hp (by simp)

lemma Wraps.of_block {parent wrapper : Label} {front run : List Node}
    (h : Wraps parent wrapper front run)
    (hk : parent.kind ∉ ["call_expression", "navigation_expression"]) :
    wrapper.kind = "statements" := by
  cases h with
  | suffix hp => simp [hp] at hk
  | selector hp => simp [hp] at hk
  | statements _ hw => exact hw

lemma Wraps.findIdx_named {parent wrapper : Label} {front run : List Node}
    (h : Wraps parent wrapper front run) (hk : parent.kind = "call_expression") :
    front.findIdx named < front.length ∧
      ∀ rest, (front ++ rest).findIdx named = front.findIdx named := by
  have hlt : front.findIdx named < front.length := by
    simpa [List.findIdx_lt_length] using (h.of_call hk).2
  exact ⟨hlt, fun rest => by rw [List.findIdx_append, if_pos hlt]⟩

end Node

namespace Place

variable {r r' : Node} {p p' : Place}

inductive Wrapping (R : Place → Place → Prop) (p p' : Place) : Prop
  | intro {front run rest front' rest' : List Place} {w : Place} :
      p.children = front ++ run ++ rest → p'.children = front' ++ w :: rest' →
      List.Forall₂ R front front' → List.Forall₂ R run w.children → List.Forall₂ R rest rest' →
      Node.Wraps p.node.label w.node.label (front.map node) (run.map node) → w.named = true →
      Wrapping R p p'

lemma map_node_mapIdx {place : Nat → Node → Place} (cs : List Node)
    (h : ∀ i c, (place i c).node = c := by intro _ _; rfl) : (cs.mapIdx place).map node = cs := by
  refine List.ext_getElem? fun i => ?_
  rw [List.getElem?_map, List.getElem?_mapIdx]
  cases cs[i]? with
  | none => rfl
  | some c => exact congrArg some (h i c)

lemma map_node_children (p : Place) : p.children.map node = p.node.children :=
  map_node_mapIdx p.node.children

lemma head?_namedChildren (p : Place) : p.namedChildren.head? = p.children[p.node.firstNamed]? := by
  have hindex : p.children.findIdx named = p.node.firstNamed := by
    rw [Node.firstNamed, ← map_node_children, List.findIdx_map]
    rfl
  rw [namedChildren, List.head?_filter, List.find?_eq_getElem?_findIdx, hindex]

lemma isCallee_child {i : Nat} (hi : i < p.node.children.length) (c : Node) :
    (p.child i c).isCallee = (p.kind == "call_expression" && p.node.firstNamed == i) := by
  have hhead := p.head?_namedChildren
  rw [isCallee, parent?_child]
  dsimp only
  rw [invokes, callParts?]
  cases hk : p.kind == "call_expression" with
  | false => simp
  | true =>
    rw [if_pos rfl, Bool.true_and]
    cases hc : p.namedChildren with
    | nil =>
      rw [hc, List.head?_nil] at hhead
      have hlength := List.getElem?_eq_none_iff.mp hhead.symm
      rw [length_children] at hlength
      symm
      rw [beq_eq_false_iff_ne]
      omega
    | cons callee rest =>
      rw [hc, List.head?_cons, children, List.getElem?_mapIdx] at hhead
      obtain ⟨d, -, hd⟩ := Option.map_eq_some_iff.mp hhead.symm
      dsimp only
      rw [CallParts.callee_foldl_absorb, ← hd, same]
      simp [route, child]

lemma isCallee_child_of_kind (h : p.kind ≠ "call_expression") (i : Nat) (c : Node) :
    (p.child i c).isCallee = false := by
  rw [isCallee, parent?_child]
  dsimp only
  rw [invokes, callParts?, if_neg (by simpa using h)]

lemma isCallee_child_eq_false {i : Nat} (hi : i < p.node.children.length)
    (h : p.kind = "call_expression" → p.node.firstNamed ≠ i) (c : Node) :
    (p.child i c).isCallee = false := by
  rw [isCallee_child hi]
  by_cases hk : p.kind = "call_expression"
  · simp [hk, h hk]
  · simp [hk]

/-- The places of two trees with one difference in layout. A place inside of the wrapper lies one
step deeper in the second tree, and the wrapper itself has no counterpart. -/
inductive Moved (r r' : Node) : Place → Place → Prop
  | root : r.Like r' → Moved r r' (ofRoot r) (ofRoot r')
  | child {p p' : Place} {c c' : Node} {i j : Nat} : Moved r r' p p' → c.Like c' →
      (p.child i c).isCallee = (p'.child j c').isCallee → Moved r r' (p.child i c) (p'.child j c')
  | wrapped {p p' : Place} {c c' w : Node} {i j k : Nat} : Moved r r' p p' → c.Like c' →
      w.kind ∈ ["call_suffix", "navigation_suffix", "statements"] → (p.child i c).isCallee = false →
      Moved r r' (p.child i c) ((p'.child j w).child k c')

namespace Moved

lemma like (h : Moved r r' p p') : p.node.Like p'.node := by
  cases h with
  | root h => exact h
  | child _ h _ => exact h
  | wrapped _ h _ _ => exact h

lemma sameKind (h : Moved r r' p p') : SameKind p p' := by
  rcases h.like.label_cases with hl | ⟨hk, hl⟩
  · exact .inl (by rw [kind, kind, Node.kind, Node.kind, hl])
  · refine .inr ⟨isIdentifier_iff.mpr ?_, isIdentifier_iff.mpr ?_⟩
    · rw [kind, Node.kind, hk]
      decide
    · rw [kind, Node.kind, hl]
      simp

lemma isCallee_eq (h : Moved r r' p p') : p.isCallee = p'.isCallee := by
  cases h with
  | root _ => rfl
  | child _ _ hcallee => exact hcallee
  | @wrapped p p' c c' w i j k _ _ hw hcallee =>
    rw [hcallee, isCallee_child_of_kind]
    rintro hk
    have hk : w.kind = "call_expression" := hk
    rw [hk] at hw
    exact absurd hw (by simp)

variable (h : Moved r r' p p')

include h

lemma segment (m n : Nat) {cs ds : List Node} (hlike : List.Forall₂ Node.Like cs ds)
    (hcallee : ∀ i < cs.length, ∀ c d,
      (p.child (i + m) c).isCallee = (p'.child (i + n) d).isCallee) :
    List.Forall₂ (Moved r r') (cs.mapIdx fun i => p.child (i + m))
      (ds.mapIdx fun i => p'.child (i + n)) := by
  refine List.forall₂_iff_get.mpr ⟨by simp [hlike.length_eq], fun i hi hi' => ?_⟩
  simp only [List.length_mapIdx] at hi hi'
  simp only [List.get_eq_getElem, List.getElem_mapIdx]
  exact h.child (hlike.get hi hi') (hcallee i hi _ _)

lemma children_of_like (hlike : List.Forall₂ Node.Like p.node.children p'.node.children) :
    List.Forall₂ (Moved r r') p.children p'.children := by
  refine h.segment 0 0 hlike fun i hi c d => ?_
  have hi' : i < p'.node.children.length := hlike.length_eq ▸ hi
  rw [Nat.add_zero, isCallee_child hi, isCallee_child hi', Node.firstNamed, Node.firstNamed,
    Node.findIdx_named_eq hlike, h.sameKind.beq_eq "call_expression"]

lemma wrapping {parent wrapper : Label} {front run rest : List Node}
    (hp : p.node = .mk parent (front ++ run ++ rest))
    (hp' : p'.node = .mk parent (front ++ .mk wrapper run :: rest))
    (hwraps : Node.Wraps parent wrapper front run) (hnamed : wrapper.named = true) :
    Wrapping (Moved r r') p p' := by
  have hk : p'.kind = p.kind := by rw [kind, kind, hp, hp']; rfl
  have hchildren : p.node.children = front ++ (run ++ rest) := by
    rw [hp, Node.children_mk, List.append_assoc]
  have hchildren' : p'.node.children = front ++ .mk wrapper run :: rest := by
    rw [hp', Node.children_mk]
  -- the callee of a call stays in front of the wrapper, so nothing behind that is a callee
  have hfirst (hcall : p.kind = "call_expression") :
      p.node.firstNamed < front.length ∧ p'.node.firstNamed = p.node.firstNamed := by
    have hparent : parent.kind = "call_expression" := by
      rw [← hcall, kind, hp]
      rfl
    obtain ⟨hlt, heq⟩ := hwraps.findIdx_named hparent
    rw [Node.firstNamed, Node.firstNamed, hchildren, hchildren', heq, heq]
    exact ⟨hlt, rfl⟩
  have hbehind {i : Nat} (hi : i < p.node.children.length) (hle : front.length ≤ i) (c : Node) :
      (p.child i c).isCallee = false := by
    refine isCallee_child_eq_false hi (fun hcall => ?_) c
    have := (hfirst hcall).1
    omega
  have hbehind' {i : Nat} (hi : i < p'.node.children.length) (hle : front.length ≤ i) (c : Node) :
      (p'.child i c).isCallee = false := by
    refine isCallee_child_eq_false hi (fun hcall => ?_) c
    have := hfirst (hk ▸ hcall)
    omega
  have hlength : p.node.children.length = front.length + (run.length + rest.length) := by
    rw [hchildren, List.length_append, List.length_append]
  have hlength' : p'.node.children.length = front.length + (rest.length + 1) := by
    rw [hchildren', List.length_append, List.length_cons]
  have hfront : List.Forall₂ (Moved r r') (front.mapIdx p.child) (front.mapIdx p'.child) := by
    refine h.segment 0 0 (Node.forall₂_like_refl front) fun i hi c d => ?_
    rw [Nat.add_zero, isCallee_child (by omega), isCallee_child (by omega), hk]
    by_cases hcall : p.kind = "call_expression"
    · rw [(hfirst hcall).2]
    · rw [beq_eq_false_iff_ne.mpr hcall, Bool.false_and, Bool.false_and]
  have hrun : List.Forall₂ (Moved r r') (run.mapIdx fun i => p.child (i + front.length))
      (p'.child front.length (.mk wrapper run)).children := by
    refine List.forall₂_iff_get.mpr
      ⟨by rw [List.length_mapIdx, length_children]; rfl, fun i hi hi' => ?_⟩
    simp only [List.length_mapIdx] at hi
    simp only [List.get_eq_getElem, List.getElem_mapIdx, children]
    exact h.wrapped (.refl _) hwraps.kind_mem (hbehind (by omega) (Nat.le_add_left ..) _)
  have hrest : List.Forall₂ (Moved r r')
      (rest.mapIdx fun i => p.child (i + (front.length + run.length)))
      (rest.mapIdx fun i => p'.child (i + (front.length + 1))) := by
    refine h.segment _ _ (Node.forall₂_like_refl rest) fun i hi c d => ?_
    rw [hbehind (by omega) (by omega), hbehind' (by omega) (by omega)]
  refine .intro ?_ ?_ hfront hrun hrest ?_ hnamed
  · rw [children, hchildren, List.mapIdx_append, List.mapIdx_append, List.append_assoc]
    simp only [Nat.add_assoc, Nat.add_comm run.length]
  · rw [children, hchildren', List.mapIdx_append, List.mapIdx_cons, Nat.zero_add]
    simp only [Nat.add_assoc, Nat.add_comm 1]
  · rw [map_node_mapIdx, map_node_mapIdx, hp]
    exact hwraps

lemma children_cases :
    List.Forall₂ (Moved r r') p.children p'.children ∨ Wrapping (Moved r r') p p' := by
  have hlike := h.like
  generalize hn : p.node = n at hlike
  generalize hn' : p'.node = n' at hlike
  rcases hlike with rfl | hreshape
  · left
    refine h.children_of_like ?_
    rw [hn, hn']
    exact Node.forall₂_like_refl _
  · cases hreshape with
    | wrap hwraps hnamed => exact .inr (h.wrapping hn hn' hwraps hnamed)
    | rename _ =>
      left
      refine h.children_of_like ?_
      rw [hn, hn']
      exact .nil
    | inside hc =>
      left
      refine h.children_of_like ?_
      rw [hn, hn', Node.children_mk, Node.children_mk]
      exact List.rel_append (Node.forall₂_like_refl _) (.cons (.inr hc) (Node.forall₂_like_refl _))

lemma children_of_kind (hk : p.kind ∉ Node.wrapped) :
    List.Forall₂ (Moved r r') p.children p'.children := by
  rcases h.children_cases with hc | ⟨-, -, -, -, -, hwraps, -⟩
  · exact hc
  · exact absurd hwraps.parent_mem hk

omit h

lemma alike (r r' : Node) : Alike (Moved r r') where
  kind h := h.sameKind
  named h := h.like.named_eq
  nameField {p p'} h := by
    rcases h.like.label_cases with hl | ⟨-, hl⟩ <;> rw [hl]
  children {p p'} h hk := by
    have hframes : ∀ k ∈ frames, k ∉ Node.wrapped := by simp [frames, Node.wrapped]
    exact h.children_of_kind (hframes _ hk)

structure Opens (R : Place → Place → Prop) (p p' : Place) (front run rest front' rest' : List Place)
    (w : Place) : Prop where
  namedChildren : p.namedChildren = front ++ (run ++ rest)
  namedChildren' : p'.namedChildren = front' ++ w :: rest'
  before : List.Forall₂ R front front'
  inside : List.Forall₂ R run w.namedChildren
  after : List.Forall₂ R rest rest'
  call : p.kind = "call_expression" → w.kind = "call_suffix" ∧ front ≠ []
  navigation : p.kind = "navigation_expression" → w.kind = "navigation_suffix" ∧ front ≠ [] ∧
    ∃ name, run.getLast? = some name ∧ name.kind ≠ "navigation_suffix"
  block : p.kind ∉ ["call_expression", "navigation_expression"] → w.kind = "statements"

lemma filter_named_ne_nil {ps : List Place} (h : (ps.map node).any Node.named = true) :
    ps.filter named ≠ [] := by
  rw [List.any_map, List.any_eq_true] at h
  obtain ⟨p, hp, hn⟩ := h
  exact List.ne_nil_of_mem (List.mem_filter.mpr ⟨hp, hn⟩)

lemma exists_opens {R : Place → Place → Prop} (hal : Alike R) (h : Wrapping R p p') :
    ∃ front run rest front' rest' w, Opens R p p' front run rest front' rest' w := by
  obtain ⟨hc, hc', hfront, hrun, hrest, hwraps, hw⟩ := h
  rename_i front run rest front' rest' w
  have hnamed {l m : List Place} (hlm : List.Forall₂ R l m) :
      List.Forall₂ R (l.filter named) (m.filter named) := rel_filter_of hlm fun _ _ => hal.named
  refine ⟨front.filter named, run.filter named, rest.filter named, front'.filter named,
    rest'.filter named, w, ?_, ?_, hnamed hfront, hnamed hrun, hnamed hrest, fun hk => ?_,
    fun hk => ?_, fun hk => hwraps.of_block hk⟩
  · rw [Place.namedChildren, hc, List.filter_append, List.filter_append, List.append_assoc]
  · rw [Place.namedChildren, hc', List.filter_append, List.filter_cons_of_pos hw]
  · obtain ⟨hwk, hany⟩ := hwraps.of_call hk
    exact ⟨hwk, filter_named_ne_nil hany⟩
  · obtain ⟨hwk, hany, separator, name, hmap, hname, hne⟩ := hwraps.of_navigation hk
    refine ⟨hwk, filter_named_ne_nil hany, ?_⟩
    obtain ⟨s, l, rfl, -, hl⟩ := List.map_eq_cons_iff.mp hmap
    obtain ⟨n, l, rfl, rfl, hnil⟩ := List.map_eq_cons_iff.mp hl
    obtain rfl := List.map_eq_nil_iff.mp hnil
    refine ⟨n, ?_, hne⟩
    have hn : n.named = true := hname
    rw [List.filter_cons, List.filter_cons_of_pos hn, List.filter_nil]
    split_ifs <;> rfl

lemma spread_call_suffix (w : Place) :
    w.spread (· == "call_suffix") = suffixPieces w.namedChildren := by
  rw [spread_eq, suffixPieces]

lemma suffixPieces_append (l m : List Place) :
    suffixPieces (l ++ m) = suffixPieces l ++ suffixPieces m := by
  rw [suffixPieces, List.flatMap_append, suffixPieces, suffixPieces]

lemma callParts?_rel (h : Moved r r' p p') :
    Option.Rel (CallParts.Alike (Moved r r') (Moved r r')) p.callParts? p'.callParts? := by
  have hal := alike r r'
  rcases h.children_cases with hc | hw
  · exact hal.callParts?_of_children h.sameKind fun _ => hc
  · rw [callParts?, callParts?, ← h.sameKind.beq_eq "call_expression"]
    split_ifs with hk
    · obtain ⟨front, run, rest, front', rest', w, ho⟩ := exists_opens hal hw
      obtain ⟨hwk, hne⟩ := ho.call (beq_iff_eq.mp hk)
      rw [ho.namedChildren, ho.namedChildren']
      have hfront := ho.before
      cases hfront with
      | nil => exact absurd rfl hne
      | cons hcallee hmore =>
        refine .some (hal.callParts_of_pieces hcallee ?_)
        -- Opening the wrapper up gives back the run.
        have hopen : suffixPieces (w :: rest') = suffixPieces (w.namedChildren ++ rest') := by
          rw [suffixPieces_append, ← spread_call_suffix, suffixPieces, List.flatMap_cons, hwk]
          rfl
        change List.Forall₂ (Moved r r') (suffixPieces (_ ++ (run ++ rest)))
          (suffixPieces (_ ++ (w :: rest')))
        rw [suffixPieces_append _ (w :: rest'), hopen, ← suffixPieces_append]
        exact hal.suffixPieces (List.rel_append hmore (List.rel_append ho.inside ho.after))
    · exact .none

lemma selected?_of_opens {R : Place → Place → Prop} (hal : Alike R)
    {front run rest front' rest' : List Place} {w : Place}
    (ho : Opens R p p' front run rest front' rest' w) (hk : p.kind = "navigation_expression") :
    Option.Rel R p.selected? p'.selected? := by
  obtain ⟨hwk, hne, name, hname, hnk⟩ := ho.navigation hk
  have hrun : run ≠ [] := by
    rintro rfl
    cases hname
  have hlength : (p.namedChildren.length == 1) = false := by
    rw [ho.namedChildren, List.length_append, List.length_append, beq_eq_false_iff_ne]
    have := List.length_pos_of_ne_nil hne
    have := List.length_pos_of_ne_nil hrun
    omega
  have hlength' : (p'.namedChildren.length == 1) = false := by
    rw [ho.namedChildren', List.length_append, List.length_cons, beq_eq_false_iff_ne,
      ← ho.before.length_eq]
    have := List.length_pos_of_ne_nil hne
    omega
  rw [selected?, selected?, hlength, hlength', ho.namedChildren, ho.namedChildren']
  have hafter := ho.after
  cases hafter with
  | nil =>
    -- The name is the last child here, and the last one of the wrapper there.
    rw [List.append_nil, List.getLast?_append_of_ne_nil _ hrun, hname, List.getLast?_concat]
    simp only [Option.bind_some, beq_eq_false_iff_ne.mpr hnk, beq_iff_eq.mpr hwk,
      Bool.false_eq_true,
      if_false, if_true]
    rw [← hname]
    exact rel_getLast? ho.inside
  | @cons c c' rest rest' hc hrest =>
    rw [← List.append_assoc, List.getLast?_append_of_ne_nil _ (List.cons_ne_nil c rest),
      List.getLast?_append_of_ne_nil _ (List.cons_ne_nil w _), List.getLast?_cons_cons]
    refine rel_option_bind (rel_getLast? (.cons hc hrest)) fun z z' hz => ?_
    rw [← (hal.kind hz).beq_eq "navigation_suffix", if_neg Bool.false_ne_true,
      if_neg Bool.false_ne_true]
    split_ifs with hsuffix
    · exact rel_getLast? (hal.namedChildren hz (mem_frames (beq_iff_eq.mp hsuffix)))
    · exact .some hz

lemma navigationParts?_rel (h : Moved r r' p p') :
    Option.Rel (fun a b => Moved r r' a.1 b.1 ∧ Moved r r' a.2 b.2)
      p.navigationParts? p'.navigationParts? := by
  have hal := alike r r'
  rcases h.children_cases with hc | hw
  · exact hal.navigationParts?_of_children h.sameKind hc
  · obtain ⟨front, run, rest, front', rest', w, ho⟩ := exists_opens hal hw
    by_cases hk : p.kind = "navigation_expression"
    · refine hal.navigationParts_of_selected h.sameKind ?_ (selected?_of_opens hal ho hk)
      have hne := (ho.navigation hk).2.1
      rw [ho.namedChildren, ho.namedChildren']
      have hfront := ho.before
      cases hfront with
      | nil => exact absurd rfl hne
      | cons hhead _ => exact .some hhead
    · rw [navigationParts?_eq, navigationParts?_eq, ← h.sameKind.beq_eq "navigation_expression",
        beq_eq_false_iff_ne.mpr hk]
      exact .none

lemma spread_statements_rel (h : Moved r r' p p')
    (hk : p.kind ∉ ["call_expression", "navigation_expression"]) :
    List.Forall₂ (Moved r r') (p.spread isStatementWrapper) (p'.spread isStatementWrapper) := by
  have hal := alike r r'
  induction p using preorder.induct generalizing p' with
  | case1 p ih =>
    have hopened {l m : List Place} (hsub : l ⊆ p.namedChildren)
        (hlm : List.Forall₂ (Moved r r') l m) :
        List.Forall₂ (Moved r r')
          (l.flatMap fun c =>
            if isStatementWrapper c.kind then c.spread isStatementWrapper else [c])
          (m.flatMap fun c =>
            if isStatementWrapper c.kind then c.spread isStatementWrapper else [c]) := by
      refine rel_flatMap_of (rel_mem hlm) fun c d hrel => ?_
      obtain ⟨hc, -, hcd⟩ := hrel
      rw [← hcd.sameKind.test_eq isStatementWrapper (by simp [isStatementWrapper])]
      split_ifs with hwrap
      · refine ih c (mem_children_of_mem_namedChildren (hsub hc)) hcd fun hmem => ?_
        rcases List.mem_pair.mp hmem with hck | hck <;> rw [hck] at hwrap <;>
          simp [isStatementWrapper] at hwrap
      · exact .cons hcd .nil
    rw [spread_eq, spread_eq]
    rcases h.children_cases with hc | hw
    · exact hopened (List.Subset.refl _) (hal.namedChildren_of hc)
    · obtain ⟨front, run, rest, front', rest', w, ho⟩ := exists_opens hal hw
      have hwk := ho.block hk
      rw [ho.namedChildren, ho.namedChildren', List.flatMap_append, List.flatMap_append,
        List.flatMap_append, List.flatMap_cons, hwk, if_pos (by simp [isStatementWrapper]),
        spread_eq]
      have hsub : front ++ (run ++ rest) ⊆ p.namedChildren := by rw [ho.namedChildren]; simp
      rw [List.append_subset, List.append_subset] at hsub
      exact List.rel_append (hopened hsub.1 ho.before)
        (List.rel_append (hopened hsub.2.1 ho.inside) (hopened hsub.2.2 ho.after))

lemma statements_rel (h : Moved r r' p p')
    (hk : p.kind ∉ ["call_expression", "navigation_expression"]) :
    List.Forall₂ (Moved r r') p.statements p'.statements := by
  refine rel_filter_of (h.spread_statements_rel hk) fun a b hab => ?_
  rw [hab.sameKind.isTrivia_eq]

lemma classes_rel (h : Moved r r' p p') :
    List.Forall₂ (Moved r r') (p.preorder.filter isClass) (p'.preorder.filter isClass) := by
  have hal := alike r r'
  induction p using preorder.induct generalizing p' with
  | case1 p ih =>
    have hbelow {l m : List Place} (hsub : l ⊆ p.children) (hlm : List.Forall₂ (Moved r r') l m) :
        List.Forall₂ (Moved r r') ((l.flatMap preorder).filter isClass)
          ((m.flatMap preorder).filter isClass) := by
      rw [List.filter_flatMap, List.filter_flatMap]
      exact rel_flatMap_of (rel_mem hlm) fun c d hrel => ih c (hsub hrel.1) hrel.2.2
    have hchildren : List.Forall₂ (Moved r r') ((p.children.flatMap preorder).filter isClass)
        ((p'.children.flatMap preorder).filter isClass) := by
      rcases h.children_cases with hc | hw
      · exact hbelow (List.Subset.refl _) hc
      · obtain ⟨hc, hc', hfront, hrun, hrest, hwraps, -⟩ := hw
        rename_i front run rest front' rest' w
        have hclass : w.isClass = false := by
          have hnone : ∀ k ∈ ["call_suffix", "navigation_suffix", "statements"],
              (k == "class_declaration" || k == "object_declaration") = false := by simp
          exact hnone _ hwraps.kind_mem
        rw [List.append_assoc] at hc
        have hsub : front ++ (run ++ rest) ⊆ p.children := by rw [hc]; exact List.Subset.refl _
        rw [List.append_subset, List.append_subset] at hsub
        rw [hc, hc', List.flatMap_append, List.flatMap_append, List.flatMap_append,
          List.flatMap_cons, preorder_eq w, List.cons_append, List.filter_append,
          List.filter_append,
          List.filter_append, List.filter_cons_of_neg (by simp [hclass]), List.filter_append]
        exact List.rel_append (hbelow hsub.1 hfront)
          (List.rel_append (hbelow hsub.2.1 hrun) (hbelow hsub.2.2 hrest))
    rw [preorder_eq, preorder_eq, List.filter_cons, List.filter_cons, ← hal.isClass h]
    split_ifs
    · exact .cons h hchildren
    · exact hchildren

end Moved

end Place

end SpecAtlas.Source
