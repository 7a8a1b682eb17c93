import Mathlib.Data.List.Flatten
import Mathlib.Data.List.Nodup
import Mathlib.Data.List.Pairwise
import SpecAtlas.Proofs.Source.Lineage

/-! Preorder numbers. They increase strictly along the preorder of a tree, so a place comes in it
only once, and the subtrees of places that are listed one after the other keep that order. -/

namespace SpecAtlas.Source

namespace Node

lemma sizeAll_append (ns ms : List Node) : sizeAll (ns ++ ms) = sizeAll ns + sizeAll ms := by
  induction ns with
  | nil => simp [sizeAll]
  | cons n ns ih => rw [List.cons_append, sizeAll, sizeAll, ih, Nat.add_assoc]

lemma sizeAll_take_succ {ns : List Node} {i : Nat} (h : i < ns.length) :
    sizeAll (ns.take (i + 1)) = sizeAll (ns.take i) + ns[i].size := by
  rw [List.take_succ_eq_append_getElem h, sizeAll_append, sizeAll, sizeAll, Nat.add_zero]

lemma sizeAll_take_le (ns : List Node) {i j : Nat} (h : i ≤ j) :
    sizeAll (ns.take i) ≤ sizeAll (ns.take j) := by
  obtain ⟨ms, hms⟩ := (List.take_prefix_take_left h : ns.take i <+: ns.take j)
  rw [← hms, sizeAll_append]
  exact Nat.le_add_right ..

end Node

namespace Place

lemma number_of_mem_preorder {p q : Place} (h : q ∈ p.preorder) :
    p.number ≤ q.number ∧ q.number < p.number + p.node.size := by
  induction p using preorder.induct with
  | case1 p ih =>
    rcases mem_preorder.mp h with rfl | ⟨c, hc, hq⟩
    · have := q.node.size_pos
      omega
    · have hbounds := ih c hc hq
      obtain ⟨i, hi, rfl⟩ := mem_children.mp hc
      have hle := Node.sizeAll_take_le p.node.children (Nat.succ_le_of_lt hi)
      rw [Node.sizeAll_take_succ hi, List.take_length] at hle
      rw [number_child] at hbounds
      have hsize := p.node.size_eq
      simp only [child] at hbounds
      omega

lemma number_lt_of_mem_children {p c q : Place} (hc : c ∈ p.children) (hq : q ∈ c.preorder) :
    p.number < q.number := by
  have hle := (number_of_mem_preorder hq).1
  obtain ⟨i, hi, rfl⟩ := mem_children.mp hc
  rw [number_child] at hle
  omega

lemma pairwise_number_children (p : Place) :
    p.children.Pairwise fun c d => ∀ x ∈ c.preorder, ∀ y ∈ d.preorder, x.number < y.number := by
  rw [List.pairwise_iff_getElem]
  intro i j hi hj hij x hx y hy
  simp only [children, List.getElem_mapIdx, List.length_mapIdx] at hi hj hx hy
  have hxb := (number_of_mem_preorder hx).2
  have hyb := (number_of_mem_preorder hy).1
  have hle := Node.sizeAll_take_le p.node.children (Nat.succ_le_of_lt hij)
  rw [Node.sizeAll_take_succ hi] at hle
  rw [number_child] at hxb hyb
  simp only [child] at hxb
  omega

theorem pairwise_number_preorder (p : Place) :
    p.preorder.Pairwise fun x y => x.number < y.number := by
  induction p using preorder.induct with
  | case1 p ih =>
    rw [preorder_eq, List.pairwise_cons, List.pairwise_flatMap]
    refine ⟨?_, ih, pairwise_number_children p⟩
    intro q hq
    obtain ⟨c, hc, hq⟩ := List.mem_flatMap.mp hq
    exact number_lt_of_mem_children hc hq

lemma nodup_preorder (p : Place) : p.preorder.Nodup :=
  (pairwise_number_preorder p).imp fun h he => by simp [he] at h

lemma disjoint_of_number_lt {c d : Place}
    (h : ∀ x ∈ c.preorder, ∀ y ∈ d.preorder, x.number < y.number) :
    c.preorder.Disjoint d.preorder :=
  fun x hx hy => lt_irrefl _ (h x hx x hy)

lemma disjoint_preorder_of_ne {p c d : Place} (hc : c ∈ p.children) (hd : d ∈ p.children)
    (hne : c ≠ d) : c.preorder.Disjoint d.preorder := by
  have hpair := List.pairwise_iff_getElem.mp (pairwise_number_children p)
  obtain ⟨i, hi, rfl⟩ := List.mem_iff_getElem.mp hc
  obtain ⟨j, hj, rfl⟩ := List.mem_iff_getElem.mp hd
  rcases lt_trichotomy i j with hij | rfl | hij
  · exact disjoint_of_number_lt (hpair i j hi hj hij)
  · exact absurd rfl hne
  · exact fun x hx hy => disjoint_of_number_lt (hpair j i hj hi hij) hy hx

lemma preorder_sublist_of_mem {p q : Place} (h : q ∈ p.preorder) :
    q.preorder.Sublist p.preorder := by
  induction p using preorder.induct with
  | case1 p ih =>
    rcases mem_preorder.mp h with rfl | ⟨c, hc, hq⟩
    · exact .refl _
    · rw [preorder_eq p]
      refine .cons _ ((ih c hc hq).trans ?_)
      exact List.sublist_flatten_of_mem (List.mem_map_of_mem hc)

lemma Below.preorder_sublist {ok : Place → Prop} {p q : Place} (h : Below ok p q) :
    (p :: q.preorder).Sublist p.preorder := by
  have hmem : ∃ c ∈ p.children, q ∈ c.preorder := by
    induction h with
    | child hc => exact ⟨_, hc, self_mem_preorder _⟩
    | step _ _ hd ih =>
      obtain ⟨c, hc, hq⟩ := ih
      exact ⟨c, hc, mem_preorder_trans hq (mem_preorder_of_mem_children hd)⟩
  obtain ⟨c, hc, hq⟩ := hmem
  rw [preorder_eq p]
  refine .cons_cons _ ((preorder_sublist_of_mem hq).trans ?_)
  exact List.sublist_flatten_of_mem (List.mem_map_of_mem hc)

lemma spread_preorder_sublist (wrapper : String → Bool) (p : Place) :
    ((p.spread wrapper).flatMap preorder).Sublist (p.children.flatMap preorder) := by
  induction p using preorder.induct with
  | case1 p ih =>
    rw [spread_eq, List.flatMap_assoc]
    refine (List.Sublist.flatMap_right _ fun c hc => ?_).trans
      (List.filter_sublist.flatMap preorder)
    split
    · rw [preorder_eq c]
      exact .cons _ (ih c (mem_children_of_mem_namedChildren hc))
    · rw [List.flatMap_singleton]

lemma statements_preorder_sublist (block : Place) :
    (block.statements.flatMap preorder).Sublist block.preorder := by
  refine (List.filter_sublist.flatMap preorder).trans ?_
  rw [preorder_eq]
  exact .cons _ (spread_preorder_sublist _ block)

lemma suffixPieces_preorder_sublist (rest : List Place) :
    ((suffixPieces rest).flatMap preorder).Sublist (rest.flatMap preorder) := by
  rw [suffixPieces, List.flatMap_assoc]
  refine List.Sublist.flatMap_right _ fun c _ => ?_
  split
  · rw [preorder_eq c]
    exact .cons _ (spread_preorder_sublist _ c)
  · rw [List.flatMap_singleton]

lemma pairwise_disjoint_suffixPieces {p callee : Place} {rest : List Place}
    (hc : p.namedChildren = callee :: rest) :
    (suffixPieces rest).Pairwise fun b c => b.preorder.Disjoint c.preorder := by
  have htail : rest.Sublist p.children := by
    refine List.Sublist.trans ?_ (List.filter_sublist (p := named))
    rw [← namedChildren, hc]
    exact List.sublist_cons_self ..
  have hsub : (rest.flatMap preorder).Sublist p.preorder := by
    rw [preorder_eq p]
    exact .cons _ (htail.flatMap preorder)
  have hnodup := (nodup_preorder p).sublist ((suffixPieces_preorder_sublist rest).trans hsub)
  exact (List.nodup_flatMap.mp hnodup).2

lemma pairwise_disjoint_initializerBlocks (body : Place) :
    body.initializerBlocks.Pairwise fun b c => b.preorder.Disjoint c.preorder := by
  refine (List.Pairwise.sublist ?_ (pairwise_number_children body)).imp disjoint_of_number_lt
  exact List.filter_sublist.trans List.filter_sublist

lemma exists_parts_of_containers {cls b c : Place}
    (hb : b ∈ cls.supertypeCall?.bind constructorLambda?)
    (hc : c ∈ (cls.classBody?.map initializerBlocks).getD []) :
    ∃ d ∈ cls.namedChildren, isDelegation d.kind ∧ b ∈ d.preorder ∧
      ∃ body, cls.classBody? = some body ∧ c ∈ body.preorder := by
  obtain ⟨call, hcall, hlambda⟩ := Option.bind_eq_some_iff.mp hb
  obtain ⟨d, hd, hdk, hbelow⟩ := exists_delegation_of_supertypeCall? hcall
  refine ⟨d, hd, hdk, mem_preorder_trans hbelow.mem_preorder
    (below_of_constructorLambda? hlambda).1.mem_preorder, ?_⟩
  cases hbody : cls.classBody? with
  | none => simp [hbody] at hc
  | some body =>
    rw [hbody, Option.map_some, Option.getD_some] at hc
    exact ⟨body, rfl,
      mem_preorder_of_mem_children (mem_children_of_mem_namedChildren (List.mem_filter.mp hc).1)⟩

theorem pairwise_disjoint_containers (cls : Place) :
    cls.containers.Pairwise fun b c => b.preorder.Disjoint c.preorder := by
  rw [containers, List.pairwise_append]
  refine ⟨?_, ?_, ?_⟩
  · cases cls.supertypeCall?.bind constructorLambda? <;> simp
  · cases cls.classBody? with
    | none => simp
    | some body => exact pairwise_disjoint_initializerBlocks body
  · intro b hb c hc
    obtain ⟨d, hd, hdk, hbd, body, hbody, hcb⟩ :=
      exists_parts_of_containers (Option.mem_toList.mp hb) hc
    have hne : d ≠ body := by
      rintro rfl
      rw [kind_of_firstOfKind? hbody] at hdk
      exact absurd hdk (by decide)
    have hdis := disjoint_preorder_of_ne (mem_children_of_mem_namedChildren hd)
      (mem_children_of_mem_namedChildren (mem_of_firstOfKind? hbody)) hne
    exact fun x hxb hxc => hdis (mem_preorder_trans hbd hxb) (mem_preorder_trans hcb hxc)

lemma map_number_children {p : Place} (ih : ∀ c ∈ p.children, c.preorder.map number =
      List.range' c.number c.node.size) (k : ℕ) (hk : k ≤ p.children.length) :
    ((p.children.take k).flatMap preorder).map number =
      List.range' (p.number + 1) (Node.sizeAll (p.node.children.take k)) := by
  induction k with
  | zero => simp [Node.sizeAll]
  | succ k hi =>
    have hlt : k < p.node.children.length := by simpa using Nat.lt_of_succ_le hk
    have hget : p.children[k] = p.child k p.node.children[k] := by simp [children]
    have hc := ih _ (List.getElem_mem (Nat.lt_of_succ_le hk))
    rw [hget, number_child] at hc
    rw [List.take_succ_eq_append_getElem (Nat.lt_of_succ_le hk), List.flatMap_append,
      List.flatMap_singleton, List.map_append, hi (Nat.le_of_succ_le hk), hget, hc,
      Node.sizeAll_take_succ hlt]
    exact List.range'_append_1

theorem map_number_preorder (p : Place) :
    p.preorder.map number = List.range' p.number p.node.size := by
  induction p using preorder.induct with
  | case1 p ih =>
    have hall := map_number_children ih _ le_rfl
    rw [List.take_length, length_children, List.take_length] at hall
    rw [preorder_eq, List.map_cons, hall, Node.size_eq, Nat.add_comm 1, List.range'_succ]

lemma getElem?_preorder_number {root : Node} {p : Place} (h : p ∈ (ofRoot root).preorder) :
    (ofRoot root).preorder[p.number]? = some p := by
  obtain ⟨i, hi, rfl⟩ := List.mem_iff_getElem.mp h
  have hmap := congrArg (fun numbers => numbers[i]?) (map_number_preorder (ofRoot root))
  simp only [List.getElem?_map, List.getElem?_eq_getElem hi, Option.map_some] at hmap
  obtain ⟨_, hnumber⟩ := List.getElem?_eq_some_iff.mp hmap.symm
  rw [List.getElem_range', number_ofRoot, Nat.zero_add, Nat.one_mul] at hnumber
  rw [← hnumber, List.getElem?_eq_getElem hi]

lemma statements_sublist (block : Place) : block.statements.Sublist block.preorder := by
  refine List.Sublist.trans ?_ (statements_preorder_sublist block)
  generalize block.statements = ss
  induction ss with
  | nil => exact .slnil
  | cons s ss ih =>
    rw [List.flatMap_cons, preorder_eq, List.cons_append]
    exact (ih.trans (List.sublist_append_right ..)).cons_cons s

instance : Std.Symm fun b c : Place => b.preorder.Disjoint c.preorder :=
  ⟨fun _ _ h _ hc hb => h hb hc⟩

lemma eq_of_mem_statements {block s c : Place} (hs : s ∈ block.statements)
    (hc : c ∈ block.statements) (h : c ∈ s.preorder) : s = c := by
  have hnodup := (nodup_preorder block).sublist (statements_preorder_sublist block)
  have hpair := (List.nodup_flatMap.mp hnodup).2
  by_contra hne
  exact hpair.forall hs hc hne h (self_mem_preorder c)

lemma eq_of_mem_containers {cls b c p : Place} (hb : b ∈ cls.containers)
    (hc : c ∈ cls.containers) (hpb : p ∈ b.preorder) (hpc : p ∈ c.preorder) : b = c := by
  by_contra hne
  exact (pairwise_disjoint_containers cls).forall hb hc hne hpb hpc

end Place

end SpecAtlas.Source
