import SpecAtlas.Proofs.Source.Alike

/-! Edits of a syntax tree. Two trees may differ in the subtree at the end of a way. The places
outside of it correspond by their routes, and what the readers of declarations, calls and blocks
find there corresponds again, as long as the way ends at a child of a block. -/

namespace SpecAtlas.Source

namespace Place

def isInside (way : List Nat) (p : Place) : Bool := way.isSuffixOf p.route

def holds (way : List Nat) (p : Place) : Bool := p.route.isSuffixOf way

structure Matches (f f' : File) (way : List Nat) (p q : Place) : Prop where
  kind : q.kind = p.kind
  named : p.named = q.named
  nameField : p.node.label.nameField = q.node.label.nameField
  length : p.node.children.length = q.node.children.length
  text : p.holds way = false → f.textOf p = f'.textOf q

instance (f f' : File) (way : List Nat) (p q : Place) : Decidable (Matches f f' way p q) :=
  decidable_of_iff
    (q.kind = p.kind ∧ p.named = q.named ∧ p.node.label.nameField = q.node.label.nameField ∧
      p.node.children.length = q.node.children.length ∧
      (p.holds way = false → f.textOf p = f'.textOf q))
    ⟨fun ⟨hk, hn, hf, hl, ht⟩ => ⟨hk, hn, hf, hl, ht⟩,
      fun h => ⟨h.kind, h.named, h.nameField, h.length, h.text⟩⟩

end Place

/-- The trees of the files are equal, node for node and text for text, but for the subtree at the
end of the way. -/
def File.Edited (f f' : File) (way : List Nat) : Prop :=
  ∀ p ∈ f.rootPlace.preorder, ∀ q ∈ f'.rootPlace.preorder, p.route = q.route →
    p.isInside way = false → p.Matches f f' way q

instance (f f' : File) (way : List Nat) : Decidable (f.Edited f' way) :=
  inferInstanceAs (Decidable (∀ p ∈ f.rootPlace.preorder, ∀ q ∈ f'.rootPlace.preorder,
    p.route = q.route → p.isInside way = false → p.Matches f f' way q))

namespace Place

def blocks : List String := ["lambda_literal", "anonymous_initializer", "statements", "block"]

/-- What readers need of an edit: the way ends at a child of a block, and no identifier has anything
below it. -/
structure EditedBlock (f f' : File) (way : List Nat) : Prop where
  edited : f.Edited f' way
  block {p c : Place} : p ∈ f.rootPlace.preorder → c ∈ p.children → c.route = way → p.kind ∈ blocks
  identifier {p : Place} : p ∈ f.rootPlace.preorder → p.isInside way = false →
    p.isIdentifier = true → p.holds way = false

/-- Places on the same route outside of the edited subtree; under the condition `E` the subtree does
not lie below them either. -/
structure Twins (f f' : File) (way : List Nat) (E : Prop) (p q : Place) : Prop where
  mem : p ∈ f.rootPlace.preorder
  mem' : q ∈ f'.rootPlace.preorder
  route : p.route = q.route
  outside : p.isInside way = false
  clear : E → p.holds way = false

section Routes

variable {p q r : Place} {way : List Nat}

lemma isInside_iff : p.isInside way = true ↔ way <:+ p.route := List.isSuffixOf_iff_suffix

lemma holds_iff : p.holds way = true ↔ p.route <:+ way := List.isSuffixOf_iff_suffix

lemma route_suffix_of_mem_preorder (h : q ∈ p.preorder) : p.route <:+ q.route := by
  induction p using preorder.induct with
  | case1 p ih =>
    rcases mem_preorder.mp h with rfl | ⟨c, hc, hq⟩
    · exact List.suffix_refl _
    · obtain ⟨i, hi⟩ := route_of_mem_children hc
      have hchild : p.route <:+ c.route := hi ▸ List.suffix_cons ..
      exact hchild.trans (ih c hc hq)

lemma isInside_of_mem_preorder (h : q ∈ p.preorder) (hp : p.isInside way = true) :
    q.isInside way = true :=
  isInside_iff.mpr ((isInside_iff.mp hp).trans (route_suffix_of_mem_preorder h))

lemma outside_of_mem_children {c : Place} (h : c ∈ p.children) (hc : c.isInside way = false) :
    p.isInside way = false := by
  rw [← Bool.not_eq_true] at hc ⊢
  exact fun hp => hc (isInside_of_mem_preorder (mem_preorder_of_mem_children h) hp)

lemma eq_or_mem_children_of_mem_preorder (h : q ∈ p.preorder) :
    q = p ∨ ∃ a ∈ p.preorder, q ∈ a.children := by
  induction p using preorder.induct with
  | case1 p ih =>
    rcases mem_preorder.mp h with rfl | ⟨c, hc, hq⟩
    · exact .inl rfl
    · right
      rcases ih c hc hq with rfl | ⟨a, ha, hqa⟩
      · exact ⟨p, self_mem_preorder p, hc⟩
      · exact ⟨a, mem_preorder_trans (mem_preorder_of_mem_children hc) ha, hqa⟩

lemma eq_of_mem_children_of_route {c d : Place} (hc : c ∈ p.children) (hd : d ∈ p.children)
    (h : c.route = d.route) : c = d := by
  obtain ⟨i, hi, rfl⟩ := mem_children.mp hc
  obtain ⟨j, hj, rfl⟩ := mem_children.mp hd
  obtain rfl : i = j := (List.cons.inj h).1
  rfl

lemma eq_of_mem_preorder_of_route (h : q ∈ p.preorder) (hroute : q.route = p.route) : q = p := by
  rcases mem_preorder.mp h with rfl | ⟨c, hc, hq⟩
  · rfl
  · obtain ⟨i, hi⟩ := route_of_mem_children hc
    have hle := (route_suffix_of_mem_preorder hq).length_le
    rw [hroute, hi, List.length_cons] at hle
    omega

lemma mem_preorder_of_route_suffix (hp : p ∈ r.preorder) (hq : q ∈ r.preorder)
    (h : p.route <:+ q.route) : q ∈ p.preorder := by
  induction r using preorder.induct with
  | case1 r ih =>
    rcases mem_preorder.mp hp with rfl | ⟨c, hc, hpc⟩
    · exact hq
    have hcp := route_suffix_of_mem_preorder hpc
    obtain ⟨i, hi⟩ := route_of_mem_children hc
    rcases mem_preorder.mp hq with rfl | ⟨d, hd, hqd⟩
    · have hle := (hcp.trans h).length_le
      rw [hi, List.length_cons] at hle
      omega
    · obtain ⟨j, hj⟩ := route_of_mem_children hd
      have hlength : c.route.length = d.route.length := by rw [hi, hj]; rfl
      have hroute := List.IsSuffix.eq_of_length
        (List.suffix_of_suffix_length_le (hcp.trans h) (route_suffix_of_mem_preorder hqd)
          hlength.le) hlength
      obtain rfl := eq_of_mem_children_of_route hc hd hroute
      exact ih c hc hpc hqd

lemma eq_of_route_eq (hp : p ∈ r.preorder) (hq : q ∈ r.preorder) (h : p.route = q.route) : q = p :=
  eq_of_mem_preorder_of_route (mem_preorder_of_route_suffix hp hq (h ▸ List.suffix_refl _)) h.symm

lemma flatMap_filter_of {α β : Type} {ok : α → Bool} {g : α → List β} {l : List α}
    (h : ∀ a ∈ l, ok a = false → g a = []) : (l.filter ok).flatMap g = l.flatMap g := by
  induction l with
  | nil => rfl
  | cons a l ih =>
    obtain ⟨ha, hl⟩ := List.forall_mem_cons.mp h
    cases hok : ok a with
    | true => rw [List.filter_cons_of_pos hok, List.flatMap_cons, List.flatMap_cons, ih hl]
    | false =>
      rw [List.filter_cons_of_neg (by simp [hok]), List.flatMap_cons, ha hok, List.nil_append,
        ih hl]

lemma filter_spread (wrapper : String → Bool) (p : Place) :
    (p.spread wrapper).filter (!·.isInside way) =
      (p.namedChildren.filter (!·.isInside way)).flatMap fun c =>
        (if wrapper c.kind then c.spread wrapper else [c]).filter (!·.isInside way) := by
  rw [spread_eq, List.filter_flatMap]
  refine (flatMap_filter_of fun c _ hc => List.filter_eq_nil_iff.mpr fun a ha => ?_).symm
  have hmem : a ∈ c.preorder := by
    split_ifs at ha
    · exact (below_of_mem_spread ha).mem_preorder
    · rw [List.mem_singleton.mp ha]
      exact self_mem_preorder c
  rw [isInside_of_mem_preorder hmem (by simpa using hc)]
  decide

end Routes

namespace Twins

variable {f f' : File} {way : List Nat} {E : Prop} {p q : Place}

lemma isInside_eq (h : Twins f f' way E p q) : p.isInside way = q.isInside way := by
  rw [isInside, isInside, h.route]

lemma holds_eq (h : Twins f f' way E p q) : p.holds way = q.holds way := by
  rw [holds, holds, h.route]

lemma strengthen {E' : Prop} (h : Twins f f' way E p q) (hclear : E' → p.holds way = false) :
    Twins f f' way E' p q :=
  { h with clear := hclear }

lemma child {c d : Place} (h : Twins f f' way E p q) (hc : c ∈ p.children) (hd : d ∈ q.children)
    (hroute : c.route = d.route) (hout : c.isInside way = false) : Twins f f' way E c d where
  mem := mem_preorder_trans h.mem (mem_preorder_of_mem_children hc)
  mem' := mem_preorder_trans h.mem' (mem_preorder_of_mem_children hd)
  route := hroute
  outside := hout
  clear he := by
    rw [← Bool.not_eq_true]
    intro hholds
    have hup := route_suffix_of_mem_preorder (mem_preorder_of_mem_children hc)
    have hp := holds_iff.mpr (hup.trans (holds_iff.mp hholds))
    rw [h.clear he] at hp
    cases hp

variable (hedit : EditedBlock f f' way) (h : Twins f f' way E p q)

include hedit h

lemma matches_at : p.Matches f f' way q := hedit.edited p h.mem q h.mem' h.route h.outside

lemma children_pairs :
    List.Forall₂ (fun c d => c ∈ p.children ∧ d ∈ q.children ∧ c.route = d.route)
      p.children q.children := by
  have hlength : p.children.length = q.children.length := by
    rw [length_children, length_children, (h.matches_at hedit).length]
  refine List.forall₂_iff_get.mpr ⟨hlength, fun i hi hi' => ?_⟩
  refine ⟨List.get_mem .., List.get_mem .., ?_⟩
  simp only [List.get_eq_getElem, children, List.getElem_mapIdx]
  exact congrArg (i :: ·) h.route

lemma children_outside :
    List.Forall₂ (Twins f f' way E) (p.children.filter (!·.isInside way))
      (q.children.filter (!·.isInside way)) := by
  have hpairs := rel_filter_of (h.children_pairs hedit) (p := (!·.isInside way))
    (q := (!·.isInside way)) fun c d ⟨_, _, hroute⟩ => by rw [isInside, isInside, hroute]
  refine (rel_mem hpairs).imp fun c d ⟨hc, _, hmem, hmem', hroute⟩ => ?_
  exact h.child hmem hmem' hroute (by simpa using (List.mem_filter.mp hc).2)

lemma children_rel (hk : p.kind ∉ blocks) :
    List.Forall₂ (Twins f f' way E) p.children q.children := by
  refine (h.children_pairs hedit).imp fun c d ⟨hc, hd, hroute⟩ => h.child hc hd hroute ?_
  rw [← Bool.not_eq_true]
  intro hinside
  obtain ⟨i, hi⟩ := route_of_mem_children hc
  rcases List.suffix_cons_iff.mp (hi ▸ isInside_iff.mp hinside) with he | hsuffix
  · exact hk (hedit.block h.mem hc (hi.trans he.symm))
  · have hp := isInside_iff.mpr hsuffix
    rw [h.outside] at hp
    cases hp

omit h

lemma alike : Alike (Twins f f' way E) where
  kind h := .inl (h.matches_at hedit).kind
  named h := (h.matches_at hedit).named
  nameField h := (h.matches_at hedit).nameField
  children h hk := by
    have hframes : ∀ k ∈ frames, k ∉ blocks := by simp [frames, blocks]
    exact h.children_rel hedit (hframes _ hk)

include h

lemma callParts?_rel :
    Option.Rel (CallParts.Alike (Twins f f' way E) (Twins f f' way E)) p.callParts?
      q.callParts? := by
  refine (alike hedit).callParts?_of_children ((alike hedit).kind h) fun hk => ?_
  exact h.children_rel hedit (by simp [hk, blocks])

lemma navigationParts?_rel :
    Option.Rel (fun a b => Twins f f' way E a.1 b.1 ∧ Twins f f' way E a.2 b.2)
      p.navigationParts? q.navigationParts? := by
  have hkind := (alike hedit).kind h
  by_cases hk : p.kind = "navigation_expression"
  · exact (alike hedit).navigationParts?_of_children hkind
      (h.children_rel hedit (by simp [hk, blocks]))
  · rw [navigationParts?_eq, navigationParts?_eq, ← hkind.beq_eq "navigation_expression",
      beq_eq_false_iff_ne.mpr hk]
    exact .none

lemma invokes_eq {c d : Place} (hroute : c.route = d.route) : p.invokes c = q.invokes d := by
  have hparts := h.callParts?_rel hedit
  rw [invokes, invokes]
  generalize p.callParts? = x at hparts ⊢
  generalize q.callParts? = y at hparts ⊢
  cases hparts with
  | none => rfl
  | some hpq =>
    dsimp only
    rw [same, same, hpq.callee.route, hroute]

lemma isCallee_eq : p.isCallee = q.isCallee := by
  have hroute := h.route
  rcases eq_or_mem_children_of_mem_preorder h.mem with rfl | ⟨a, ha, hp⟩ <;>
    rcases eq_or_mem_children_of_mem_preorder h.mem' with rfl | ⟨b, hb, hq⟩
  · rfl
  · obtain ⟨j, hj⟩ := route_of_mem_children hq
    rw [hj] at hroute
    cases hroute
  · obtain ⟨i, hi⟩ := route_of_mem_children hp
    rw [hi] at hroute
    cases hroute
  · obtain ⟨i, hi, rfl⟩ := mem_children.mp hp
    obtain ⟨j, hj, rfl⟩ := mem_children.mp hq
    have hparents : Twins f f' way False a b :=
      ⟨ha, hb, (List.cons.inj hroute).2, outside_of_mem_children hp h.outside, False.elim⟩
    exact hparents.invokes_eq hedit hroute

omit h

lemma exists_twin (hp : p ∈ f.rootPlace.preorder) (hout : p.isInside way = false) :
    ∃ q, Twins f f' way False p q := by
  induction hroute : p.route generalizing p with
  | nil =>
    rcases eq_or_mem_children_of_mem_preorder hp with rfl | ⟨a, ha, hc⟩
    · exact ⟨f'.rootPlace, self_mem_preorder _, self_mem_preorder _, rfl, hout, False.elim⟩
    · obtain ⟨i, hi⟩ := route_of_mem_children hc
      rw [hi] at hroute
      cases hroute
  | cons i route ih =>
    rcases eq_or_mem_children_of_mem_preorder hp with rfl | ⟨a, ha, hc⟩
    · cases hroute
    · obtain ⟨j, hj, rfl⟩ := mem_children.mp hc
      obtain ⟨b, hab⟩ := ih ha (outside_of_mem_children hc hout) (List.cons.inj hroute).2
      have hlength := (hab.matches_at hedit).length
      refine ⟨b.child j (b.node.children[j]), hab.child hc (mem_children.mpr ⟨j, _, rfl⟩) ?_ hout⟩
      exact congrArg (j :: ·) hab.route

lemma spread_outside_rel (wrapper : String → Bool)
    (hi : ∀ k ∈ ["identifier", "simple_identifier", "type_identifier"],
      wrapper k = wrapper "identifier") (h : Twins f f' way E p q) :
    List.Forall₂ (Twins f f' way E) ((p.spread wrapper).filter (!·.isInside way))
      ((q.spread wrapper).filter (!·.isInside way)) := by
  have hal : Alike (Twins f f' way E) := alike hedit
  induction p using preorder.induct generalizing q with
  | case1 p ih =>
    rw [filter_spread, filter_spread]
    have hnamed := rel_filter_of (h.children_outside hedit) fun _ _ => hal.named
    rw [List.filter_filter, List.filter_filter] at hnamed
    rw [namedChildren, namedChildren, List.filter_filter, List.filter_filter]
    simp only [Bool.and_comm] at hnamed ⊢
    refine rel_flatMap_of (rel_mem hnamed) fun c d hrel => ?_
    obtain ⟨hc, -, hcd⟩ := hrel
    rw [← (hal.kind hcd).test_eq wrapper hi]
    split_ifs
    · exact ih c (List.mem_filter.mp hc).1 hcd
    · rw [List.filter_singleton, List.filter_singleton, ← hcd.isInside_eq, hcd.outside]
      exact .cons hcd .nil

lemma statements_outside_rel (h : Twins f f' way E p q) :
    List.Forall₂ (Twins f f' way E) (p.statements.filter (!·.isInside way))
      (q.statements.filter (!·.isInside way)) := by
  have hspread := h.spread_outside_rel hedit isStatementWrapper (by simp [isStatementWrapper])
  rw [statements, statements, List.filter_filter, List.filter_filter]
  have hfiltered := rel_filter_of hspread (p := (!·.isTrivia)) (q := (!·.isTrivia)) fun c d hcd =>
    congrArg (!·) ((alike hedit).kind hcd).isTrivia_eq
  rw [List.filter_filter, List.filter_filter] at hfiltered
  simpa only [Bool.and_comm] using hfiltered

end Twins

end Place

end SpecAtlas.Source
