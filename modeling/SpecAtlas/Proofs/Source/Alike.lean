import Mathlib.Data.List.Forall2
import SpecAtlas.Proofs.Source.Lineage

/-! Two trees read side by side. A relation between their places that keeps kinds and relates
children one by one is kept by every reader of declarations and calls: what is read at related
places is related again. -/

namespace SpecAtlas.Source

namespace Place

/-- The kinds are the same, but one kind of identifier may stand for another. -/
def SameKind (p q : Place) : Prop :=
  q.kind = p.kind ∨ p.isIdentifier = true ∧ q.isIdentifier = true

instance (p q : Place) : Decidable (SameKind p q) :=
  inferInstanceAs (Decidable (q.kind = p.kind ∨ p.isIdentifier = true ∧ q.isIdentifier = true))

end Place

section Relators

variable {α β γ δ : Type} {R : α → β → Prop} {S : γ → δ → Prop} {x : Option α} {y : Option β}
  {l : List α} {m : List β}

lemma eq_none_of_rel (h : Option.Rel R x y) (hx : x = none) : y = none := by
  subst hx
  cases h
  rfl

lemma isSome_eq_of_rel (h : Option.Rel R x y) : x.isSome = y.isSome := by
  cases h <;> rfl

lemma isEmpty_eq_of_rel (h : List.Forall₂ R l m) : l.isEmpty = m.isEmpty := by
  cases h <;> rfl

lemma exists_of_rel (h : Option.Rel R x y) {a : α} (hx : x = some a) : ∃ b, y = some b ∧ R a b := by
  subst hx
  cases h with
  | some hab => exact ⟨_, rfl, hab⟩

lemma rel_option_bind {f : α → Option γ} {g : β → Option δ} (h : Option.Rel R x y)
    (hfg : ∀ a b, R a b → Option.Rel S (f a) (g b)) : Option.Rel S (x.bind f) (y.bind g) := by
  cases h with
  | none => exact .none
  | some hab => exact hfg _ _ hab

lemma rel_option_bind_left {f : α → Option γ} {g : α → Option δ} (x : Option α)
    (hfg : ∀ a, Option.Rel S (f a) (g a)) : Option.Rel S (x.bind f) (x.bind g) := by
  cases x with
  | none => exact .none
  | some a => exact hfg a

lemma rel_option_guard {b : Bool} {f : Unit → Option γ} {g : Unit → Option δ}
    (hfg : b = true → Option.Rel S (f ()) (g ())) :
    Option.Rel S ((guard (b = true) : Option Unit).bind f)
      ((guard (b = true) : Option Unit).bind g) := by
  cases b with
  | false => exact .none
  | true => exact hfg rfl

lemma rel_option_map {f : α → γ} {g : β → δ} (h : Option.Rel R x y)
    (hfg : ∀ a b, R a b → S (f a) (g b)) : Option.Rel S (x.map f) (y.map g) := by
  cases h with
  | none => exact .none
  | some hab => exact .some (hfg _ _ hab)

lemma rel_option_or {x' : Option α} {y' : Option β} (h : Option.Rel R x y)
    (h' : Option.Rel R x' y') : Option.Rel R (x.or x') (y.or y') := by
  cases h with
  | none => exact h'
  | some hab => exact .some hab

lemma rel_option_mono {R' : α → β → Prop} (h : Option.Rel R x y) (himp : ∀ a b, R a b → R' a b) :
    Option.Rel R' x y := by
  cases h with
  | none => exact .none
  | some hab => exact .some (himp _ _ hab)

lemma rel_option_found (h : Option.Rel R x y) :
    Option.Rel (fun a b => x = some a ∧ y = some b ∧ R a b) x y := by
  cases h with
  | none => exact .none
  | some hab => exact .some ⟨rfl, rfl, hab⟩

lemma rel_option_and_left {P : α → Prop} (h : Option.Rel R x y) (hP : ∀ a, x = some a → P a) :
    Option.Rel (fun a b => P a ∧ R a b) x y := by
  cases h with
  | none => exact .none
  | some hab => exact .some ⟨hP _ rfl, hab⟩

lemma rel_option_filter {p : α → Bool} {q : β → Bool} (h : Option.Rel R x y)
    (hpq : ∀ a b, R a b → p a = q b) : Option.Rel R (x.filter p) (y.filter q) := by
  cases h with
  | none => exact .none
  | @some a b hab =>
    rw [Option.filter_some, Option.filter_some, ← hpq a b hab]
    cases p a with
    | true => exact .some hab
    | false => exact .none

lemma rel_toList (h : Option.Rel R x y) : List.Forall₂ R x.toList y.toList := by
  cases h with
  | none => exact .nil
  | some hab => exact .cons hab .nil

lemma map_eq_of_rel {f : α → γ} {g : β → γ} (h : Option.Rel R x y)
    (hfg : ∀ a b, R a b → f a = g b) : x.map f = y.map g := by
  cases h with
  | none => rfl
  | some hab => exact congrArg some (hfg _ _ hab)

lemma bind_eq_of_rel {f : α → Option γ} {g : β → Option γ} (h : Option.Rel R x y)
    (hfg : ∀ a b, R a b → f a = g b) : x.bind f = y.bind g := by
  cases h with
  | none => rfl
  | some hab => exact hfg _ _ hab

lemma rel_find? {p : α → Bool} {q : β → Bool} (h : List.Forall₂ R l m)
    (hpq : ∀ a b, R a b → p a = q b) : Option.Rel R (l.find? p) (m.find? q) := by
  induction h with
  | nil => exact .none
  | @cons a b l m hab _ ih =>
    rw [List.find?_cons, List.find?_cons, ← hpq a b hab]
    cases p a with
    | true => exact .some hab
    | false => exact ih

lemma rel_filter_of {p : α → Bool} {q : β → Bool} (h : List.Forall₂ R l m)
    (hpq : ∀ a b, R a b → p a = q b) : List.Forall₂ R (l.filter p) (m.filter q) :=
  List.rel_filter (fun {a b} hab => Bool.eq_iff_iff.mp (hpq a b hab)) h

lemma rel_head? (h : List.Forall₂ R l m) : Option.Rel R l.head? m.head? := by
  cases h with
  | nil => exact .none
  | cons hab _ => exact .some hab

lemma rel_getLast? (h : List.Forall₂ R l m) : Option.Rel R l.getLast? m.getLast? := by
  rw [List.getLast?_eq_head?_reverse, List.getLast?_eq_head?_reverse]
  exact rel_head? (List.rel_reverse h)

lemma rel_flatMap_of {f : α → List γ} {g : β → List δ} (h : List.Forall₂ R l m)
    (hfg : ∀ a b, R a b → List.Forall₂ S (f a) (g b)) :
    List.Forall₂ S (l.flatMap f) (m.flatMap g) :=
  List.rel_flatMap h fun a b hab => hfg a b hab

lemma map_list_eq_of_rel {f : α → γ} {g : β → γ} (h : List.Forall₂ R l m)
    (hfg : ∀ a b, R a b → f a = g b) : l.map f = m.map g := by
  induction h with
  | nil => rfl
  | cons hab _ ih => rw [List.map_cons, List.map_cons, hfg _ _ hab, ih]

lemma filterMap_eq_of_rel {f : α → Option γ} {g : β → Option γ} (h : List.Forall₂ R l m)
    (hfg : ∀ a b, R a b → f a = g b) : l.filterMap f = m.filterMap g := by
  induction h with
  | nil => rfl
  | cons hab _ ih => rw [List.filterMap_cons, List.filterMap_cons, hfg _ _ hab, ih]

lemma rel_mem (h : List.Forall₂ R l m) :
    List.Forall₂ (fun a b => a ∈ l ∧ b ∈ m ∧ R a b) l m :=
  List.forall₂_iff_get.mpr ⟨h.length_eq, fun _ hi hi' =>
    ⟨List.get_mem .., List.get_mem .., h.get hi hi'⟩⟩

lemma any_eq_of_rel {p : α → Bool} {q : β → Bool} (h : List.Forall₂ R l m)
    (hpq : ∀ a b, R a b → p a = q b) : l.any p = m.any q := by
  induction h with
  | nil => rfl
  | cons hab _ ih => rw [List.any_cons, List.any_cons, hpq _ _ hab, ih]

lemma flatMap_eq_of_rel {f : α → List γ} {g : β → List γ} (h : List.Forall₂ R l m)
    (hfg : ∀ a b, R a b → f a = g b) : l.flatMap f = m.flatMap g := by
  rw [List.flatMap_def, List.flatMap_def, map_list_eq_of_rel h hfg]

end Relators

namespace Place

variable {p q : Place}

lemma isIdentifier_iff :
    p.isIdentifier = true ↔ p.kind ∈ ["identifier", "simple_identifier", "type_identifier"] := by
  simp [isIdentifier, or_assoc]

namespace SameKind

lemma test_eq (h : SameKind p q) (test : String → Bool)
    (ht : ∀ k ∈ ["identifier", "simple_identifier", "type_identifier"],
      test k = test "identifier" := by simp) : test p.kind = test q.kind := by
  rcases h with h | ⟨hp, hq⟩
  · rw [h]
  · rw [ht _ (isIdentifier_iff.mp hp), ht _ (isIdentifier_iff.mp hq)]

lemma isIdentifier_eq (h : SameKind p q) : p.isIdentifier = q.isIdentifier :=
  h.test_eq (fun k => k == "identifier" || k == "simple_identifier" || k == "type_identifier")

lemma isTrivia_eq (h : SameKind p q) : p.isTrivia = q.isTrivia :=
  h.test_eq (fun k =>
    k == "lambda_parameters" || k == "label" || "comment".toList.isSuffixOf k.toList) (by decide)

lemma beq_eq (h : SameKind p q) (kind : String)
    (hk : kind ∉ ["identifier", "simple_identifier", "type_identifier"] := by simp) :
    (p.kind == kind) = (q.kind == kind) := by
  refine h.test_eq (· == kind) fun k hmem => ?_
  have hne {k : String} (hmem : k ∈ ["identifier", "simple_identifier", "type_identifier"]) :
      (k == kind) = false := by
    refine beq_eq_false_iff_ne.mpr ?_
    rintro rfl
    exact hk hmem
  exact (hne hmem).trans (hne (List.mem_cons_self ..)).symm

lemma kind_eq (h : SameKind p q) {kind : String} (hp : p.kind = kind)
    (hk : kind ∉ ["identifier", "simple_identifier", "type_identifier"] := by simp) :
    q.kind = kind := by
  have heq := h.beq_eq kind hk
  simpa [hp] using heq

end SameKind

def frames : List String :=
  ["class_declaration", "object_declaration", "class_body", "delegation_specifiers",
    "delegation_specifier", "constructor_invocation", "value_arguments", "value_argument",
    "annotated_lambda", "call_suffix", "navigation_suffix"]

lemma mem_frames {kind : String} (hk : p.kind = kind)
    (hm : kind ∈ frames := by repeat constructor) :
    p.kind ∈ frames := hk ▸ hm

lemma mem_frames_of_isClass (hc : p.isClass = true) : p.kind ∈ frames := by
  have hkind : p.kind = "class_declaration" ∨ p.kind = "object_declaration" := by
    simpa [isClass] using hc
  exact hkind.elim mem_frames mem_frames

/-- The relation keeps what readers look at, and at a node of a frame it relates the children one by
one. -/
structure Alike (R : Place → Place → Prop) : Prop where
  kind {p q : Place} : R p q → SameKind p q
  named {p q : Place} : R p q → p.named = q.named
  nameField {p q : Place} : R p q → p.node.label.nameField = q.node.label.nameField
  children {p q : Place} : R p q → p.kind ∈ frames → List.Forall₂ R p.children q.children

lemma route_of_mem_children {c : Place} (h : c ∈ p.children) : ∃ i, c.route = i :: p.route := by
  obtain ⟨i, hi, rfl⟩ := mem_children.mp h
  exact ⟨i, rfl⟩

lemma pairwise_same_children (p : Place) : p.children.Pairwise fun c d => d.same c = false := by
  rw [List.pairwise_iff_getElem]
  intro i j hi hj hij
  simp only [children, List.getElem_mapIdx, same, route, child, List.map_cons, beq_eq_false_iff_ne,
    ne_eq, List.cons.injEq, and_true]
  omega

def selected? (p : Place) : Option Place :=
  p.namedChildren.getLast?.bind fun z =>
    if z.kind == "navigation_suffix" then z.namedChildren.getLast?
    else if p.namedChildren.length == 1 then none else some z

lemma same_head_of_last {cs : List Place} (h : cs.Pairwise fun c d => d.same c = false)
    {a z : Place} (ha : cs.head? = some a) (hz : cs.getLast? = some z) :
    z.same a = (cs.length == 1) := by
  cases cs with
  | nil => cases ha
  | cons c rest =>
    obtain rfl := Option.some.inj ha
    cases rest with
    | nil =>
      obtain rfl := Option.some.inj hz
      simp
    | cons d rest =>
      have hmem : z ∈ d :: rest := List.mem_of_getLast? (by rwa [List.getLast?_cons_cons] at hz)
      simpa using (List.pairwise_cons.mp h).1 z hmem

lemma navigationParts?_eq (p : Place) :
    p.navigationParts? =
      if p.kind == "navigation_expression" then
        p.namedChildren.head?.bind fun a => (p.selected?.filter isIdentifier).map (a, ·)
      else none := by
  by_cases hk : (p.kind == "navigation_expression") = true
  · rw [if_pos hk, navigationParts?, selected?]
    simp only [guard, hk, if_true, Option.pure_def, Option.bind_eq_bind, Option.bind_some]
    cases ha : p.namedChildren.head? with
    | none => rfl
    | some a =>
      cases hz : p.namedChildren.getLast? with
      | none => rfl
      | some z =>
        have hsame := same_head_of_last
          ((pairwise_same_children p).sublist List.filter_sublist) ha hz
        have hlength : z.same a = (p.namedChildren.length == 1) := hsame
        simp only [Option.bind_some]
        cases hsuffix : z.kind == "navigation_suffix" with
        | true =>
          cases hs : z.namedChildren.getLast? with
          | none => simp
          | some s =>
            -- The name lies deeper in the tree than the receiver.
            have hdeeper : s.same a = false := by
              obtain ⟨i, hi⟩ := route_of_mem_children
                (mem_children_of_mem_namedChildren (List.mem_of_head? ha))
              obtain ⟨j, hj⟩ := route_of_mem_children
                (mem_children_of_mem_namedChildren (List.mem_of_getLast? hz))
              obtain ⟨k, hk⟩ := route_of_mem_children
                (mem_children_of_mem_namedChildren (List.mem_of_getLast? hs))
              simp [same, hi, hj, hk]
            cases hid : s.isIdentifier <;> simp [hdeeper, hid]
        | false =>
          cases hone : p.namedChildren.length == 1 <;> cases hid : z.isIdentifier <;>
            simp [hlength, hone, hid]
  · rw [if_neg hk, navigationParts?]
    simp only [guard, hk]
    rfl

lemma isIdentifier_of_navigationParts? {pair : Place × Place} (h : p.navigationParts? = some pair) :
    pair.2.isIdentifier = true := by
  rw [navigationParts?_eq] at h
  split_ifs at h
  obtain ⟨a, -, ha⟩ := Option.bind_eq_some_iff.mp h
  obtain ⟨name, hname, rfl⟩ := Option.map_eq_some_iff.mp ha
  exact (Option.filter_eq_some_iff.mp hname).2

end Place

namespace Place.Alike

variable {R : Place → Place → Prop} {p q : Place} (h : Alike R)

include h

lemma namedChildren_of (hc : List.Forall₂ R p.children q.children) :
    List.Forall₂ R p.namedChildren q.namedChildren :=
  rel_filter_of hc fun _ _ => h.named

lemma namedChildren (hr : R p q) (hk : p.kind ∈ frames) :
    List.Forall₂ R p.namedChildren q.namedChildren :=
  h.namedChildren_of (h.children hr hk)

lemma firstOfKind? (hr : R p q) (hk : p.kind ∈ frames) (kind : String)
    (hkind : kind ∉ ["identifier", "simple_identifier", "type_identifier"] := by simp) :
    Option.Rel R (p.firstOfKind? kind) (q.firstOfKind? kind) :=
  rel_find? (h.namedChildren hr hk) fun _ _ hab => (h.kind hab).beq_eq kind hkind

lemma spread (wrapper : String → Bool) (hw : ∀ k, wrapper k = true → k ∈ frames)
    (hi : ∀ k ∈ ["identifier", "simple_identifier", "type_identifier"],
      wrapper k = wrapper "identifier") (hr : R p q) (hk : p.kind ∈ frames) :
    List.Forall₂ R (p.spread wrapper) (q.spread wrapper) := by
  induction p using preorder.induct generalizing q with
  | case1 p ih =>
    rw [spread_eq, spread_eq]
    refine rel_flatMap_of (rel_mem (h.namedChildren hr hk)) fun c d hrel => ?_
    obtain ⟨hc, -, hcd⟩ := hrel
    rw [← (h.kind hcd).test_eq wrapper hi]
    split_ifs with hwrap
    · exact ih c (mem_children_of_mem_namedChildren hc) hcd (hw _ hwrap)
    · exact .cons hcd .nil

lemma lambdaLiteral? (hr : R p q) : Option.Rel R p.lambdaLiteral? q.lambdaLiteral? := by
  have hkind := h.kind hr
  rw [Place.lambdaLiteral?, Place.lambdaLiteral?, ← hkind.beq_eq "lambda_literal",
    ← hkind.beq_eq "annotated_lambda"]
  split_ifs with hlambda hannotated
  · exact .some hr
  · rw [beq_iff_eq] at hannotated
    exact h.firstOfKind? hr (mem_frames hannotated) _
  · exact .none

lemma argumentExpression? (hr : R p q) (hk : p.kind = "value_argument") :
    Option.Rel R p.argumentExpression? q.argumentExpression? := by
  refine rel_find? (List.rel_reverse (h.namedChildren hr (mem_frames hk))) fun a b hab => ?_
  exact (h.kind hab).test_eq (· != "annotation")

lemma isClass (hr : R p q) : p.isClass = q.isClass :=
  (h.kind hr).test_eq fun k => k == "class_declaration" || k == "object_declaration"

lemma className? (hr : R p q) (hc : p.isClass = true) :
    Option.Rel R p.className? q.className? := by
  have hk := mem_frames_of_isClass hc
  exact rel_option_or (rel_find? (h.children hr hk) fun _ _ => h.nameField)
    (rel_find? (h.namedChildren hr hk) fun _ _ hab => (h.kind hab).isIdentifier_eq)

lemma supertypeCall? (hr : R p q) (hc : p.isClass = true) :
    Option.Rel R p.supertypeCall? q.supertypeCall? := by
  have hwrapper (k : String) (hk : isDelegation k = true) : k ∈ frames := by
    have hk : k = "delegation_specifiers" ∨ k = "delegation_specifier" := by
      simpa [isDelegation] using hk
    rcases hk with rfl | rfl <;> simp [frames]
  have hlists := rel_filter_of (h.namedChildren hr (mem_frames_of_isClass hc)) fun _ _ hab =>
    (h.kind hab).test_eq isDelegation (by simp [isDelegation])
  refine rel_find? (rel_flatMap_of (rel_mem hlists) fun c d hrel => ?_) fun a b hab =>
    (h.kind hab).beq_eq _
  obtain ⟨hc, -, hcd⟩ := hrel
  exact h.spread isDelegation hwrapper (by simp [isDelegation]) hcd
    (hwrapper _ (List.mem_filter.mp hc).2)

lemma constructorType? (hr : R p q) (hk : p.kind = "constructor_invocation") :
    Option.Rel R p.constructorType? q.constructorType? :=
  rel_find? (h.namedChildren hr (mem_frames hk)) fun a b hab => (h.kind hab).test_eq fun k =>
    !(k == "value_arguments" || k == "annotated_lambda" || k == "call_suffix")

lemma constructorLambda? (hr : R p q) (hk : p.kind = "constructor_invocation") :
    Option.Rel R p.constructorLambda? q.constructorLambda? := by
  refine rel_option_bind (rel_find? (h.namedChildren hr (mem_frames hk)) fun a b hab =>
    (h.kind hab).test_eq fun k =>
      k == "value_arguments" || k == "annotated_lambda" || k == "lambda_literal") fun a b hab => ?_
  rw [← (h.kind hab).beq_eq "value_arguments"]
  split_ifs with hlist
  · rw [beq_iff_eq] at hlist
    have hfirst := rel_option_and_left (h.firstOfKind? hab (mem_frames hlist) "value_argument")
      fun c hc => kind_of_firstOfKind? hc
    refine rel_option_bind hfirst fun c d ⟨hck, hcd⟩ => ?_
    exact rel_option_bind (h.argumentExpression? hcd hck) fun _ _ => h.lambdaLiteral?
  · exact h.lambdaLiteral? hab

lemma superLambda? (hr : R p q) (hc : p.isClass = true) :
    Option.Rel R (p.supertypeCall?.bind Place.constructorLambda?)
      (q.supertypeCall?.bind Place.constructorLambda?) := by
  have hcall := rel_option_and_left (h.supertypeCall? hr hc) fun c => kind_of_supertypeCall?
  exact rel_option_bind hcall fun c d ⟨hck, hcd⟩ => h.constructorLambda? hcd hck

lemma initializerBlocks (hr : R p q) (hk : p.kind = "class_body") :
    List.Forall₂ R p.initializerBlocks q.initializerBlocks :=
  rel_filter_of (h.namedChildren hr (mem_frames hk)) fun _ _ hab => (h.kind hab).beq_eq _

lemma classBody? (hr : R p q) (hc : p.isClass = true) :
    Option.Rel (fun b c => b.kind = "class_body" ∧ R b c) p.classBody? q.classBody? :=
  rel_option_and_left (h.firstOfKind? hr (mem_frames_of_isClass hc) _) fun _ => kind_of_firstOfKind?

lemma containers (hr : R p q) (hc : p.isClass = true) :
    List.Forall₂ R p.containers q.containers := by
  refine List.rel_append (rel_toList (h.superLambda? hr hc)) ?_
  have hbody := h.classBody? hr hc
  generalize p.classBody? = x at hbody ⊢
  generalize q.classBody? = y at hbody ⊢
  cases hbody with
  | none => exact .nil
  | some hb => exact h.initializerBlocks hb.2 hb.1

end Place.Alike

structure CallParts.Alike (R L : Place → Place → Prop) (parts parts' : CallParts) : Prop where
  callee : R parts.callee parts'.callee
  arguments : List.Forall₂ R parts.arguments parts'.arguments
  kinds : ∀ a ∈ parts.arguments, a.kind = "value_argument"
  lambda : Option.Rel L parts.lambda parts'.lambda

namespace Place.Alike

variable {R : Place → Place → Prop} {p q : Place} (h : Alike R)

include h

lemma absorb {parts parts' : CallParts} (hparts : CallParts.Alike R R parts parts') (hr : R p q) :
    CallParts.Alike R R (parts.absorb p) (parts'.absorb q) := by
  have hkind := h.kind hr
  rw [CallParts.absorb, CallParts.absorb, ← hkind.beq_eq "value_arguments",
    ← hkind.beq_eq "annotated_lambda", ← hkind.beq_eq "lambda_literal"]
  split_ifs with hlist
  · rw [beq_iff_eq] at hlist
    refine { hparts with arguments := ?_, kinds := fun a ha => ?_ }
    · exact rel_filter_of (h.namedChildren hr (mem_frames hlist)) fun _ _ hab =>
        (h.kind hab).beq_eq _
    · simpa using (List.mem_filter.mp ha).2
  · exact { hparts with lambda := h.lambdaLiteral? hr }
  · exact hparts

lemma foldl_absorb {pieces pieces' : List Place} (hpieces : List.Forall₂ R pieces pieces')
    {parts parts' : CallParts} (hparts : CallParts.Alike R R parts parts') :
    CallParts.Alike R R (pieces.foldl CallParts.absorb parts)
      (pieces'.foldl CallParts.absorb parts') := by
  induction hpieces generalizing parts parts' with
  | nil => exact hparts
  | cons hr _ ih => exact ih (h.absorb hparts hr)

lemma suffixPieces {rest rest' : List Place} (hrest : List.Forall₂ R rest rest') :
    List.Forall₂ R (suffixPieces rest) (suffixPieces rest') := by
  refine rel_flatMap_of hrest fun c d hcd => ?_
  rw [← (h.kind hcd).beq_eq "call_suffix"]
  split_ifs with hsuffix
  · rw [beq_iff_eq] at hsuffix
    refine h.spread (· == "call_suffix") (fun k hk => ?_) (by simp) hcd (mem_frames hsuffix)
    rw [beq_iff_eq.mp hk]
    simp [frames]
  · exact .cons hcd .nil

lemma callParts_of_pieces {callee callee' : Place} {rest rest' : List Place}
    (hcallee : R callee callee')
    (hpieces : List.Forall₂ R (Place.suffixPieces rest) (Place.suffixPieces rest')) :
    CallParts.Alike R R ((Place.suffixPieces rest).foldl CallParts.absorb { callee })
      ((Place.suffixPieces rest').foldl CallParts.absorb { callee := callee' }) :=
  h.foldl_absorb hpieces ⟨hcallee, .nil, by simp, .none⟩

lemma callParts?_of_children (hk : SameKind p q)
    (hc : p.kind = "call_expression" → List.Forall₂ R p.children q.children) :
    Option.Rel (CallParts.Alike R R) p.callParts? q.callParts? := by
  rw [Place.callParts?, Place.callParts?, ← hk.beq_eq "call_expression"]
  split_ifs with hcall
  · have hnamed := h.namedChildren_of (hc (beq_iff_eq.mp hcall))
    generalize p.namedChildren = cs at hnamed ⊢
    generalize q.namedChildren = ds at hnamed ⊢
    cases hnamed with
    | nil => exact .none
    | cons hcallee hrest => exact .some (h.callParts_of_pieces hcallee (h.suffixPieces hrest))
  · exact .none

lemma selected?_rel (hc : List.Forall₂ R p.namedChildren q.namedChildren) :
    Option.Rel R p.selected? q.selected? := by
  refine rel_option_bind (rel_getLast? hc) fun z z' hz => ?_
  rw [(h.kind hz).beq_eq "navigation_suffix", hc.length_eq]
  split_ifs with hsuffix
  · rw [beq_iff_eq] at hsuffix
    have hz' : z.kind = "navigation_suffix" := by
      simpa [hsuffix] using (h.kind hz).beq_eq "navigation_suffix"
    exact rel_getLast? (h.namedChildren hz (mem_frames hz'))
  · exact .none
  · exact .some hz

lemma navigationParts_of_selected (hk : SameKind p q)
    (hhead : Option.Rel R p.namedChildren.head? q.namedChildren.head?)
    (hselected : Option.Rel R p.selected? q.selected?) :
    Option.Rel (fun a b => R a.1 b.1 ∧ R a.2 b.2) p.navigationParts? q.navigationParts? := by
  rw [navigationParts?_eq, navigationParts?_eq, hk.beq_eq "navigation_expression"]
  split_ifs
  · refine rel_option_bind hhead fun a b hab => ?_
    have hfilter := rel_option_filter hselected fun _ _ hs => (h.kind hs).isIdentifier_eq
    exact rel_option_map hfilter fun _ _ hs => ⟨hab, hs⟩
  · exact .none

lemma navigationParts?_of_children (hk : SameKind p q)
    (hc : List.Forall₂ R p.children q.children) :
    Option.Rel (fun a b => R a.1 b.1 ∧ R a.2 b.2) p.navigationParts? q.navigationParts? :=
  h.navigationParts_of_selected hk (rel_head? (h.namedChildren_of hc))
    (h.selected?_rel (h.namedChildren_of hc))

end Place.Alike

end SpecAtlas.Source
