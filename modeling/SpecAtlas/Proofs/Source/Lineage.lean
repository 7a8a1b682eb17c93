import Mathlib.Data.List.Infix
import Mathlib.Data.Option.Basic
import SpecAtlas.Source.Declaration

/-! Ways down a syntax tree: which places lie below a place, and which places a way down to them
passes. The ancestors of a place can be read off such a way. -/

namespace SpecAtlas.Source.Place

lemma mem_preorder {p q : Place} :
    q ∈ p.preorder ↔ q = p ∨ ∃ c ∈ p.children, q ∈ c.preorder := by
  rw [preorder_eq, List.mem_cons, List.mem_flatMap]

lemma self_mem_preorder (p : Place) : p ∈ p.preorder := mem_preorder.mpr (.inl rfl)

lemma mem_preorder_of_mem_children {p c : Place} (h : c ∈ p.children) : c ∈ p.preorder :=
  mem_preorder.mpr (.inr ⟨c, h, self_mem_preorder c⟩)

lemma mem_preorder_trans {p q r : Place} (hq : q ∈ p.preorder) (hr : r ∈ q.preorder) :
    r ∈ p.preorder := by
  induction p using preorder.induct with
  | case1 p ih =>
    rcases mem_preorder.mp hq with rfl | ⟨c, hc, hqc⟩
    · exact hr
    · exact mem_preorder.mpr (.inr ⟨c, hc, ih c hc hqc⟩)

lemma ancestors_of_mem_children {p c : Place} (h : c ∈ p.children) : c.ancestors = p.lineage := by
  obtain ⟨i, hi, rfl⟩ := mem_children.mp h
  exact ancestors_child ..

lemma mem_children_of_mem_namedChildren {p c : Place} (h : c ∈ p.namedChildren) :
    c ∈ p.children :=
  (List.mem_filter.mp h).1

lemma exists_lineage_eq_append {p a : Place} {ok : Place → Bool} (h : a ∈ p.lineage.takeWhile ok) :
    ∃ front, p.lineage = front ++ a.lineage ∧ ∀ x ∈ front, ok x = true := by
  obtain ⟨node, above⟩ := p
  induction above generalizing node with
  | nil =>
    obtain rfl := List.mem_singleton.mp ((List.takeWhile_sublist ok).subset h)
    exact ⟨[], rfl, by simp⟩
  | cons s rest ih =>
    cases hok : ok ⟨node, s :: rest⟩ with
    | false => simp [lineage, hok] at h
    | true =>
      rw [lineage, List.takeWhile_cons_of_pos hok, List.mem_cons] at h
      rcases h with rfl | h
      · exact ⟨[], rfl, by simp⟩
      · obtain ⟨front, he, hfront⟩ := ih s.parent h
        refine ⟨⟨node, s :: rest⟩ :: front, ?_, List.forall_mem_cons.mpr ⟨hok, hfront⟩⟩
        rw [lineage, List.cons_append, ← he]
        rfl

lemma mem_lineage_cases {p q a : Place} (hq : q ∈ p.preorder) (ha : a ∈ q.lineage) :
    a ∈ p.ancestors ∨ a ∈ p.preorder ∧ q ∈ a.preorder := by
  induction p using preorder.induct with
  | case1 p ih =>
    rcases mem_preorder.mp hq with rfl | ⟨c, hc, hqc⟩
    · rcases List.mem_cons.mp ha with rfl | ha
      · exact .inr ⟨self_mem_preorder a, self_mem_preorder a⟩
      · exact .inl ha
    · rcases ih c hc hqc with ha | ⟨hac, hqa⟩
      · rw [ancestors_of_mem_children hc] at ha
        rcases List.mem_cons.mp ha with rfl | ha
        · exact .inr ⟨self_mem_preorder a, hq⟩
        · exact .inl ha
      · exact .inr ⟨mem_preorder.mpr (.inr ⟨c, hc, hac⟩), hqa⟩

lemma mem_preorder_of_mem_lineage {root : Node} {q a : Place} (hq : q ∈ (ofRoot root).preorder)
    (ha : a ∈ q.lineage) : a ∈ (ofRoot root).preorder ∧ q ∈ a.preorder := by
  rcases mem_lineage_cases hq ha with h | h
  · cases h
  · exact h

lemma exists_lineage_of_mem_preorder {p q : Place} (h : q ∈ p.preorder) :
    ∃ front, q.lineage = front ++ p.lineage ∧ ∀ x ∈ front, x ∈ p.preorder ∧ q ∈ x.preorder := by
  induction p using preorder.induct with
  | case1 p ih =>
    rcases mem_preorder.mp h with rfl | ⟨c, hc, hqc⟩
    · exact ⟨[], rfl, by simp⟩
    · obtain ⟨front, he, hfront⟩ := ih c hc hqc
      refine ⟨front ++ [c], ?_, fun x hx => ?_⟩
      · rw [he, lineage, ancestors_of_mem_children hc, List.append_assoc, List.singleton_append]
      · rcases List.mem_append.mp hx with hx | hx
        · obtain ⟨hxc, hqx⟩ := hfront x hx
          exact ⟨mem_preorder.mpr (.inr ⟨c, hc, hxc⟩), hqx⟩
        · rw [List.mem_singleton.mp hx]
          exact ⟨mem_preorder_of_mem_children hc, hqc⟩

lemma mem_lineage_of_mem_preorder {p q : Place} (h : q ∈ p.preorder) : p ∈ q.lineage := by
  obtain ⟨front, he, -⟩ := exists_lineage_of_mem_preorder h
  rw [he]
  exact List.mem_append_right _ (List.mem_cons_self ..)

lemma pairwise_ancestors (p : Place) : p.ancestors.Pairwise fun a b => b ∈ a.ancestors := by
  obtain ⟨node, above⟩ := p
  induction above generalizing node with
  | nil => exact .nil
  | cons s rest ih => exact .cons (fun b hb => hb) (ih s.parent)

lemma length_above_lt_of_mem_ancestors {p a : Place} (h : a ∈ p.ancestors) :
    a.above.length < p.above.length := by
  obtain ⟨node, above⟩ := p
  induction above generalizing node with
  | nil => cases h
  | cons s rest ih =>
    rcases List.mem_cons.mp h with rfl | h
    · exact Nat.lt_succ_self _
    · exact Nat.lt_succ_of_lt (ih s.parent h)

/-- `q` lies properly below `p`, and `ok` holds of every place strictly between them. -/
inductive Below (ok : Place → Prop) (p : Place) : Place → Prop
  | child {c : Place} : c ∈ p.children → Below ok p c
  | step {q c : Place} : Below ok p q → ok q → c ∈ q.children → Below ok p c

namespace Below

variable {ok ok' : Place → Prop} {p q r : Place}

lemma named {c : Place} (h : c ∈ p.namedChildren) : Below ok p c :=
  .child (mem_children_of_mem_namedChildren h)

lemma trans (hq : Below ok p q) (hok : ok q) (hr : Below ok q r) : Below ok p r := by
  induction hr with
  | child hc => exact .step hq hok hc
  | step _ hok' hc ih => exact .step ih hok' hc

lemma mono (hok : ∀ a, ok a → ok' a) (h : Below ok p q) : Below ok' p q := by
  induction h with
  | child hc => exact .child hc
  | step _ ha hc ih => exact .step ih (hok _ ha) hc

lemma mem_preorder (h : Below ok p q) : q ∈ p.preorder := by
  induction h with
  | child hc => exact mem_preorder_of_mem_children hc
  | step _ _ hc ih => exact mem_preorder_trans ih (mem_preorder_of_mem_children hc)

lemma ancestors_eq (h : Below ok p q) :
    ∃ between, q.ancestors = between ++ p.lineage ∧ ∀ a ∈ between, ok a := by
  induction h with
  | child hc => exact ⟨[], ancestors_of_mem_children hc, by simp⟩
  | @step q c _ ha hc ih =>
    obtain ⟨between, hb, hok⟩ := ih
    refine ⟨q :: between, ?_, List.forall_mem_cons.mpr ⟨ha, hok⟩⟩
    rw [ancestors_of_mem_children hc, lineage, hb, List.cons_append]

lemma mem_ancestors (h : Below ok p q) : p ∈ q.ancestors := by
  obtain ⟨between, hb, -⟩ := h.ancestors_eq
  rw [hb]
  exact List.mem_append_right _ (List.mem_cons_self ..)

lemma ancestors_subset (h : Below ok p q) : p.ancestors ⊆ q.ancestors := by
  obtain ⟨between, hb, -⟩ := h.ancestors_eq
  intro a ha
  rw [hb]
  exact List.mem_append_right _ (List.mem_cons_of_mem _ ha)

end Below

lemma below_of_mem_spread {wrapper : String → Bool} {p q : Place} (h : q ∈ p.spread wrapper) :
    Below (fun a => wrapper a.kind) p q := by
  induction p using preorder.induct with
  | case1 p ih =>
    rw [spread_eq] at h
    obtain ⟨c, hc, hq⟩ := List.mem_flatMap.mp h
    have hchild := mem_children_of_mem_namedChildren hc
    split at hq
    · rename_i hw
      exact (Below.child hchild).trans hw (ih c hchild hq)
    · rw [List.mem_singleton.mp hq]
      exact .child hchild

lemma below_of_mem_statements {block s : Place} (h : s ∈ block.statements) :
    Below (fun a => isStatementWrapper a.kind) block s :=
  below_of_mem_spread (List.mem_filter.mp h).1

lemma kind_of_firstOfKind? {p c : Place} {kind : String} (h : p.firstOfKind? kind = some c) :
    c.kind = kind := by
  simpa using List.find?_some h

lemma mem_of_firstOfKind? {p c : Place} {kind : String} (h : p.firstOfKind? kind = some c) :
    c ∈ p.namedChildren :=
  List.mem_of_find?_eq_some h

def Plain (p : Place) : Prop := p.kind ≠ "call_expression" ∧ p.isClass = false

lemma plain_of_mem {p : Place} {kinds : List String} (h : p.kind ∈ kinds)
    (hk : ∀ k ∈ kinds, k ∉ ["call_expression", "class_declaration", "object_declaration"] := by
      decide) : p.Plain := by
  simpa [Plain, isClass] using hk _ h

lemma plain_of_kind {p : Place} {kind : String} (h : p.kind = kind)
    (hk : kind ∉ ["call_expression", "class_declaration", "object_declaration"] := by decide) :
    p.Plain := by
  subst h
  simpa [Plain, isClass] using hk

lemma plain_of_isIdentifier {p : Place} (h : p.isIdentifier = true) : p.Plain := by
  have hk : p.kind ∈ ["identifier", "simple_identifier", "type_identifier"] := by
    simpa [isIdentifier, or_assoc] using h
  exact plain_of_mem hk

lemma plain_of_isSeparator {p : Place} (h : p.isSeparator = true) : p.Plain := by
  have hk : p.kind ∈ [".", "?."] := by simpa [isSeparator] using h
  exact plain_of_mem hk

instance (p : Place) : Decidable p.Plain :=
  inferInstanceAs (Decidable (p.kind ≠ "call_expression" ∧ p.isClass = false))

def scaffoldKinds : List String :=
  ["delegation_specifiers", "delegation_specifier", "constructor_invocation", "value_arguments",
    "value_argument", "class_body", "anonymous_initializer", "call_suffix", "annotated_lambda",
    "lambda_literal", "statements", "block"]

def Scaffold (p : Place) : Prop := p.kind ∈ scaffoldKinds

lemma scaffold_of_kind {p : Place} {kind : String} (h : p.kind = kind)
    (hk : kind ∈ scaffoldKinds := by decide) : p.Scaffold := by
  rwa [Scaffold, h]

lemma Scaffold.plain {p : Place} (h : p.Scaffold) : p.Plain := plain_of_mem h

lemma scaffold_of_isStatementWrapper {p : Place} (h : isStatementWrapper p.kind) :
    p.Scaffold := by
  have hk : p.kind = "statements" ∨ p.kind = "block" := by simpa [isStatementWrapper] using h
  rcases hk with hk | hk <;> exact scaffold_of_kind hk

lemma scaffold_of_isDelegation {p : Place} (h : isDelegation p.kind) : p.Scaffold := by
  have hk : p.kind = "delegation_specifiers" ∨ p.kind = "delegation_specifier" := by
    simpa [isDelegation] using h
  rcases hk with hk | hk <;> exact scaffold_of_kind hk

lemma lambdaLiteral?_cases {p l : Place} (h : p.lambdaLiteral? = some l) :
    l.kind = "lambda_literal" ∧
      (l = p ∨ p.kind = "annotated_lambda" ∧ l ∈ p.namedChildren) := by
  rw [lambdaLiteral?] at h
  split at h
  · rename_i hk
    obtain rfl := Option.some.inj h
    exact ⟨by simpa using hk, .inl rfl⟩
  · split at h
    · rename_i hk
      exact ⟨kind_of_firstOfKind? h, .inr ⟨by simpa using hk, mem_of_firstOfKind? h⟩⟩
    · cases h

lemma mem_preorder_of_lambdaLiteral? {p l : Place} (h : p.lambdaLiteral? = some l) :
    l ∈ p.preorder := by
  obtain ⟨-, rfl | ⟨-, hchild⟩⟩ := lambdaLiteral?_cases h
  · exact self_mem_preorder l
  · exact mem_preorder_of_mem_children (mem_children_of_mem_namedChildren hchild)

lemma below_of_lambdaLiteral? {p q l : Place} (hq : Below Scaffold p q)
    (h : q.lambdaLiteral? = some l) : Below Scaffold p l ∧ l.kind = "lambda_literal" := by
  obtain ⟨hk, rfl | ⟨ha, hl⟩⟩ := lambdaLiteral?_cases h
  · exact ⟨hq, hk⟩
  · exact ⟨hq.trans (scaffold_of_kind ha) (.named hl), hk⟩

lemma below_of_mem_suffixPieces {p q : Place} {rest : List Place}
    (hrest : ∀ c ∈ rest, c ∈ p.namedChildren) (h : q ∈ suffixPieces rest) :
    Below (·.kind = "call_suffix") p q := by
  obtain ⟨c, hc, hq⟩ := List.mem_flatMap.mp h
  have hchild : Below (·.kind = "call_suffix") p c := .named (hrest c hc)
  split at hq
  · rename_i hk
    refine hchild.trans (by simpa using hk) ?_
    exact (below_of_mem_spread hq).mono fun a ha => by simpa using ha
  · rw [List.mem_singleton.mp hq]
    exact hchild

lemma callParts?_kind {p : Place} {parts : CallParts} (h : p.callParts? = some parts) :
    p.kind = "call_expression" := by
  rw [callParts?] at h
  split at h
  · rename_i hk
    simpa using hk
  · cases h

lemma callee_mem_namedChildren {p : Place} {parts : CallParts} (h : p.callParts? = some parts) :
    parts.callee ∈ p.namedChildren := by
  obtain ⟨callee, rest, hc, rfl⟩ := callParts?_eq_some h
  rw [CallParts.callee_foldl_absorb, hc]
  exact List.mem_cons_self ..

lemma exists_piece_of_lambda {p l callee : Place} {rest : List Place} {parts : CallParts}
    (h : p.callParts? = some parts) (hc : p.namedChildren = callee :: rest)
    (hl : parts.lambda = some l) : ∃ c ∈ rest, l ∈ c.preorder := by
  obtain ⟨callee', rest', hc', rfl⟩ := callParts?_eq_some h
  obtain ⟨rfl, rfl⟩ := List.cons.inj (hc.symm.trans hc')
  rcases CallParts.lambda_foldl_absorb hl with hl | ⟨piece, hp, hl⟩
  · cases hl
  obtain ⟨c, hcr, hq⟩ := List.mem_flatMap.mp hp
  have hpiece : piece ∈ c.preorder := by
    split at hq
    · exact (below_of_mem_spread hq).mem_preorder
    · rw [List.mem_singleton.mp hq]
      exact self_mem_preorder c
  exact ⟨c, hcr, mem_preorder_trans hpiece (mem_preorder_of_lambdaLiteral? hl)⟩

lemma below_of_lambda {p l : Place} {parts : CallParts} (h : p.callParts? = some parts)
    (hl : parts.lambda = some l) : Below Scaffold p l ∧ l.kind = "lambda_literal" := by
  obtain ⟨callee, rest, hc, rfl⟩ := callParts?_eq_some h
  rcases CallParts.lambda_foldl_absorb hl with hl | ⟨piece, hp, hl⟩
  · cases hl
  · refine below_of_lambdaLiteral? ?_ hl
    refine (below_of_mem_suffixPieces (fun c hm => ?_) hp).mono fun a ha => scaffold_of_kind ha
    exact hc ▸ List.mem_cons_of_mem _ hm

lemma exists_delegation_of_supertypeCall? {cls call : Place} (h : cls.supertypeCall? = some call) :
    ∃ d ∈ cls.namedChildren, isDelegation d.kind ∧ Below Scaffold d call := by
  obtain ⟨d, hd, hcall⟩ := List.mem_flatMap.mp (List.mem_of_find?_eq_some h)
  obtain ⟨hchild, hdk⟩ := List.mem_filter.mp hd
  exact ⟨d, hchild, hdk, (below_of_mem_spread hcall).mono fun a ha => scaffold_of_isDelegation ha⟩

lemma kind_of_supertypeCall? {cls call : Place} (h : cls.supertypeCall? = some call) :
    call.kind = "constructor_invocation" := by
  simpa using List.find?_some h

lemma mem_preorder_of_navigationParts? {nav receiver selector : Place}
    (h : nav.navigationParts? = some (receiver, selector)) : receiver ∈ nav.preorder := by
  simp only [navigationParts?, Option.bind_eq_bind, Option.bind_eq_some_iff] at h
  obtain ⟨_, _, r, hr, last, _, h⟩ := h
  have he : r = receiver := by
    split at h
    · obtain ⟨_, _, _, _, he⟩ := by simpa only [Option.bind_eq_some_iff] using h
      exact (Prod.mk.inj (Option.some.inj he)).1
    · obtain ⟨_, _, _, _, he⟩ := by simpa only [Option.bind_eq_some_iff] using h
      exact (Prod.mk.inj (Option.some.inj he)).1
  subst he
  exact mem_preorder_of_mem_children (mem_children_of_mem_namedChildren (List.mem_of_head? hr))

lemma below_of_argumentExpression? {p e : Place} {ok : Place → Prop}
    (h : p.argumentExpression? = some e) : Below ok p e :=
  .named (List.mem_reverse.mp (List.mem_of_find?_eq_some h))

lemma below_of_constructorLambda? {call l : Place} (h : call.constructorLambda? = some l) :
    Below Scaffold call l ∧ l.kind = "lambda_literal" := by
  simp only [constructorLambda?, Option.bind_eq_bind, Option.bind_eq_some_iff] at h
  obtain ⟨part, hpart, h⟩ := h
  have hbelow : Below Scaffold call part := .named (List.mem_of_find?_eq_some hpart)
  split at h
  · rename_i hk
    simp only [Option.bind_eq_some_iff] at h
    obtain ⟨argument, harg, e, he, hl⟩ := h
    have harg' := hbelow.trans (scaffold_of_kind (by simpa using hk))
      (.named (mem_of_firstOfKind? harg))
    have hexp := harg'.trans (scaffold_of_kind (kind_of_firstOfKind? harg))
      (below_of_argumentExpression? he)
    exact below_of_lambdaLiteral? hexp hl
  · exact below_of_lambdaLiteral? hbelow h

lemma below_of_mem_containers {cls b : Place} (h : b ∈ cls.containers) :
    Below Scaffold cls b ∧ b.Scaffold := by
  rcases List.mem_append.mp h with h | h
  · obtain ⟨call, hcall, hb⟩ := Option.bind_eq_some_iff.mp (Option.mem_toList.mp h)
    obtain ⟨d, hd, hdk, hbelow⟩ := exists_delegation_of_supertypeCall? hcall
    obtain ⟨hlambda, hlk⟩ := below_of_constructorLambda? hb
    have hcalled := (Below.named hd).trans (scaffold_of_isDelegation hdk) hbelow
    exact ⟨hcalled.trans (scaffold_of_kind (kind_of_supertypeCall? hcall)) hlambda,
      scaffold_of_kind hlk⟩
  · cases hbody : cls.classBody? with
    | none => simp [hbody] at h
    | some body =>
      rw [hbody, Option.map_some, Option.getD_some] at h
      obtain ⟨hchild, hk⟩ := List.mem_filter.mp h
      have hbelow : Below Scaffold cls body := .named (mem_of_firstOfKind? hbody)
      refine ⟨hbelow.trans (scaffold_of_kind (kind_of_firstOfKind? hbody)) (.named hchild), ?_⟩
      have hbk : b.kind = "anonymous_initializer" := by simpa using hk
      exact scaffold_of_kind hbk

end SpecAtlas.Source.Place
