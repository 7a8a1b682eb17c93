import SpecAtlas.Proofs.Source.Alike
import SpecAtlas.Proofs.Spec.SourceOrder

/-! Tests, callbacks and includes of two files read side by side. A relation between the places of
the files that keeps calls, navigations and the texts of identifiers is kept by the recognition of
tests: a call introduces a test if the related call does, and their bodies are related. The names of
the tests are the same where the relation keeps the other texts too. -/

namespace SpecAtlas

open Source

/-- The relation keeps the parts of calls and navigations and the texts of identifiers; under the
condition `E` it keeps all texts. -/
structure Congruent (f f' : File) (E : Prop) (R : Place → Place → Prop) : Prop
    extends Place.Alike R where
  text {p q : Place} : E → R p q → f.textOf p = f'.textOf q
  identifier {p q : Place} : R p q → p.isIdentifier = true → f.textOf p = f'.textOf q
  callParts {p q : Place} : R p q → Option.Rel (CallParts.Alike R R) p.callParts? q.callParts?
  navigationParts {p q : Place} : R p q →
    Option.Rel (fun a b => R a.1 b.1 ∧ R a.2 b.2) p.navigationParts? q.navigationParts?

lemma Source.Place.kind_of_mem_containers {cls b : Place} (h : b ∈ cls.containers) :
    b.kind ∈ ["lambda_literal", "anonymous_initializer"] := by
  rcases List.mem_append.mp h with h | h
  · obtain ⟨call, -, hb⟩ := Option.bind_eq_some_iff.mp (Option.mem_toList.mp h)
    simp [(below_of_constructorLambda? hb).2]
  · cases hbody : cls.classBody? with
    | none => simp [hbody] at h
    | some body =>
      rw [hbody, Option.map_some, Option.getD_some] at h
      have hk : b.kind = "anonymous_initializer" := by simpa using (List.mem_filter.mp h).2
      simp [hk]

lemma Source.Place.notMem_of_mem_containers {cls b : Place} (h : b ∈ cls.containers) :
    b.kind ∉ ["call_expression", "navigation_expression"] := by
  have hkinds : ∀ k ∈ ["lambda_literal", "anonymous_initializer"],
      k ∉ ["call_expression", "navigation_expression"] := by simp
  exact hkinds _ (kind_of_mem_containers h)

namespace Source.Place.Alike

variable {R : Place → Place → Prop} {p q : Place}

lemma lifecycleBlock? (h : Alike R) (hr : R p q) :
    Option.Rel R (lifecycleBlock? p) (lifecycleBlock? q) := by
  rw [SpecAtlas.lifecycleBlock?, SpecAtlas.lifecycleBlock?, ← h.isClass hr]
  split_ifs with hc
  · refine rel_option_or (rel_option_bind (h.classBody? hr hc) fun b b' hb => ?_)
      (h.superLambda? hr hc)
    exact rel_head? (h.initializerBlocks hb.2 hb.1)
  · exact .none

lemma classify?_eq {f f' : File} (h : Alike R) (hr : R p q)
    (htext : ∀ c t, p.supertypeCall? = some c → c.constructorType? = some t →
      ∀ u, R t u → f.textOf t = f'.textOf u) : Spec.classify? f p = Spec.classify? f' q := by
  rw [Spec.classify?, Spec.classify?, ← h.isClass hr]
  cases hc : p.isClass with
  | false => simp
  | true =>
    simp only [Option.bind_eq_bind]
    congr 1
    funext _
    have hcall := rel_option_and_left (h.supertypeCall? hr hc) fun c hp => hp
    refine bind_eq_of_rel hcall fun c d hrel => ?_
    obtain ⟨hp, hcd⟩ := hrel
    have htype := rel_option_and_left (h.constructorType? hcd (kind_of_supertypeCall? hp))
      fun t ht => ht
    refine bind_eq_of_rel htype fun t u hrel => ?_
    rw [htext c t hp hrel.1 u hrel.2]

end Source.Place.Alike

namespace Spec

structure TestCall.Alike (E : Prop) (L : Place → Place → Prop) (c c' : TestCall) : Prop where
  name : E → c.name = c'.name
  enabled : E → c.enabled = c'.enabled
  body : L c.body c'.body

inductive Stem.Alike (R : Place → Place → Prop) : Stem → Stem → Prop
  | head {c c' : Place} : R c c' → Alike R (.head c) (.head c')
  | base {c c' : Place} {as as' : List Place} : R c c' → List.Forall₂ R as as' →
      (∀ a ∈ as, a.kind = "value_argument") → Alike R (.base c as) (.base c' as')

lemma stem?_of_callParts? {p : Place} {inner : CallParts} (h : p.callParts? = some inner)
    (as : List Place) :
    stem? p as =
      if inner.callee.isIdentifier || inner.callee.kind == "string_literal" then some (.head p)
      else stem? inner.callee (as ++ inner.arguments) := by
  rw [stem?, if_pos (by simp [Place.callParts?_kind h])]
  split
  · rename_i hnone
    rw [h] at hnone
    cases hnone
  · rename_i found hfound
    obtain rfl := Option.some.inj (h.symm.trans hfound)
    rfl

lemma length_route_callee {p : Place} {parts : CallParts} (h : p.callParts? = some parts) :
    parts.callee.route.length = p.route.length + 1 := by
  have hchild := Place.mem_children_of_mem_namedChildren (Place.callee_mem_namedChildren h)
  obtain ⟨i, hi, he⟩ := Place.mem_children.mp hchild
  rw [he]
  rfl

lemma length_route_le_of_stem? {c b : Place} {as bs : List Place}
    (h : stem? c as = some (.base b bs)) : c.route.length ≤ b.route.length := by
  fun_induction stem? c as with
  | case1 => cases h
  | case2 => cases h
  | case3 c as _ inner hinner _ ih =>
    have hlength := length_route_callee hinner
    have := ih h
    omega
  | case4 =>
    cases h
    exact Nat.le_refl _

lemma same_of_stem? {c b : Place} {as bs : List Place} (h : stem? c as = some (.base b bs)) :
    b.same c = (c.kind != "call_expression") := by
  rw [stem?] at h
  split at h
  · rename_i hk
    split at h
    · cases h
    · rename_i inner hinner
      split at h
      · cases h
      · have hle := length_route_le_of_stem? h
        have hlength := length_route_callee hinner
        rw [bne, hk, Bool.not_true, Place.same, beq_eq_false_iff_ne]
        intro he
        rw [he] at hle
        omega
  · rename_i hk
    cases h
    simpa using hk

end Spec

namespace Congruent

open Spec

variable {f f' : File} {E : Prop} {R L : Place → Place → Prop} {p q : Place} {style : Style}
  (h : Congruent f f' E R)

include h

lemma literalArgument_eq (he : E) (hr : R p q) (hk : p.kind = "value_argument") :
    literalArgument f p = literalArgument f' q := by
  have hexpression := h.argumentExpression? hr hk
  rw [literalArgument, literalArgument]
  generalize p.argumentExpression? = x at hexpression ⊢
  generalize q.argumentExpression? = y at hexpression ⊢
  cases hexpression with
  | none => exact h.text he hr
  | some hab =>
    dsimp only
    rw [(h.kind hab).beq_eq "string_literal", h.text he hab]

lemma argumentLabel?_eq (he : E) (hr : R p q) (hk : p.kind = "value_argument") :
    f.argumentLabel? p = f'.argumentLabel? q := by
  have hchildren := h.namedChildren hr (Place.mem_frames hk)
  have hlabel :
      (p.namedChildren.find? fun c => c.isIdentifier || c.kind == "value_argument_label").map
        (fun c => Text.trim (Text.trimEndOf '=' (f.textOf c))) =
      (q.namedChildren.find? fun c => c.isIdentifier || c.kind == "value_argument_label").map
        fun c => Text.trim (Text.trimEndOf '=' (f'.textOf c)) := by
    refine map_eq_of_rel (rel_find? hchildren fun a b hab => ?_)
      fun a b hab => by rw [h.text he hab]
    rw [(h.kind hab).isIdentifier_eq, (h.kind hab).beq_eq "value_argument_label"]
  rw [File.argumentLabel?, File.argumentLabel?, hchildren.length_eq, hlabel]

lemma disables_eq (he : E) {as as' : List Place} (has : List.Forall₂ R as as')
    (hk : ∀ a ∈ as, a.kind = "value_argument") : disables f as = disables f' as' := by
  have hall := (List.forall₂_and_left ..).mpr ⟨hk, has⟩
  refine any_eq_of_rel hall fun a b ⟨hka, hab⟩ => ?_
  have hvalue : (a.argumentExpression?.map fun e => Text.trim (f.textOf e)) =
      b.argumentExpression?.map fun e => Text.trim (f'.textOf e) :=
    map_eq_of_rel (h.argumentExpression? hab hka) fun _ _ hcd => congrArg Text.trim (h.text he hcd)
  rw [h.argumentLabel?_eq he hab hka, hvalue]

lemma keywordHead?_rel (hparts : Option.Rel (CallParts.Alike R L) p.callParts? q.callParts?) :
    Option.Rel (fun a b => E → a = b) (keywordHead? style f p) (keywordHead? style f' q) := by
  simp only [keywordHead?, Option.bind_eq_bind]
  refine rel_option_bind hparts fun parts parts' hpq => ?_
  rw [← (h.kind hpq.callee).isIdentifier_eq]
  refine rel_option_guard fun hid => ?_
  rw [h.identifier hpq.callee hid]
  refine rel_option_bind_left _ fun found => ?_
  have hhead := rel_option_and_left (rel_head? hpq.arguments)
    fun a ha => hpq.kinds a (List.mem_of_head? ha)
  refine rel_option_bind hhead fun a b hrel => .some fun he => ?_
  rw [h.literalArgument_eq he hrel.2 hrel.1]

lemma stringHead?_of_literals (hl : Option.Rel R (headLiteral? p) (headLiteral? q)) :
    Option.Rel (fun a b => E → a = b) (stringHead? f p) (stringHead? f' q) :=
  rel_option_map hl fun a b hab he => by rw [h.text he hab]

lemma headLiteral?_of_call (hparts : Option.Rel (CallParts.Alike R L) p.callParts? q.callParts?)
    (hp : p.kind = "call_expression") (hq : q.kind = "call_expression") :
    Option.Rel R (headLiteral? p) (headLiteral? q) := by
  rw [headLiteral?, headLiteral?, if_neg (by simp [hp]), if_neg (by simp [hq])]
  refine rel_option_bind hparts fun parts parts' hparts => ?_
  rw [(h.kind hparts.callee).beq_eq "string_literal", isEmpty_eq_of_rel hparts.arguments]
  exact rel_option_guard fun _ => .some hparts.callee

lemma head?_of_call (hparts : Option.Rel (CallParts.Alike R L) p.callParts? q.callParts?)
    (hp : p.kind = "call_expression") (hq : q.kind = "call_expression") :
    Option.Rel (fun a b => E → a = b) (head? style f p) (head? style f' q) := by
  cases style with
  | string => exact h.stringHead?_of_literals (h.headLiteral?_of_call hparts hp hq)
  | _ => exact h.keywordHead?_rel hparts

lemma head?_rel (hr : R p q) :
    Option.Rel (fun a b => E → a = b) (head? style f p) (head? style f' q) := by
  by_cases hk : p.kind = "call_expression"
  · exact h.head?_of_call (h.callParts hr) hk ((h.kind hr).kind_eq hk)
  · cases style with
    | string =>
      refine h.stringHead?_of_literals ?_
      have hnone {r : Place} (hr : r.kind ≠ "call_expression") : r.callParts? = none := by
        rw [Place.callParts?, if_neg (by simpa using hr)]
      have hq : q.kind ≠ "call_expression" := by
        have := (h.kind hr).beq_eq "call_expression"
        simpa [hk] using this
      rw [headLiteral?, headLiteral?, (h.kind hr).beq_eq "string_literal", hnone hk, hnone hq]
      split_ifs
      · exact .some hr
      · exact .none
    | _ => exact h.keywordHead?_rel (h.callParts hr)

lemma stem?_rel {as as' : List Place} (hr : R p q) (has : List.Forall₂ R as as')
    (hk : ∀ a ∈ as, a.kind = "value_argument") :
    Option.Rel (Stem.Alike R) (stem? p as) (stem? q as') := by
  fun_induction stem? p as generalizing q as' with
  | case1 p as hp hnone =>
    have hq := eq_none_of_rel (h.callParts hr) hnone
    rw [stem?, if_pos ((h.kind hr).beq_eq "call_expression" ▸ hp)]
    split
    · exact .none
    · rename_i hsome
      rw [hq] at hsome
      cases hsome
  | case2 p as hp inner hinner hhead =>
    obtain ⟨inner', hinner', hparts⟩ := exists_of_rel (h.callParts hr) hinner
    have hkind := h.kind hparts.callee
    rw [hkind.isIdentifier_eq, hkind.beq_eq "string_literal"] at hhead
    rw [stem?_of_callParts? hinner', if_pos hhead]
    exact .some (.head hr)
  | case3 p as hp inner hinner hhead ih =>
    obtain ⟨inner', hinner', hparts⟩ := exists_of_rel (h.callParts hr) hinner
    have hkind := h.kind hparts.callee
    rw [hkind.isIdentifier_eq, hkind.beq_eq "string_literal"] at hhead
    rw [stem?_of_callParts? hinner', if_neg hhead]
    refine ih hparts.callee (List.rel_append has hparts.arguments) fun a ha => ?_
    exact (List.mem_append.mp ha).elim (hk a) (hparts.kinds a)
  | case4 p as hp =>
    rw [stem?, if_neg ((h.kind hr).beq_eq "call_expression" ▸ hp)]
    exact .some (.base hr has hk)

lemma headOf?_rel {parts parts' : CallParts} (hparts : CallParts.Alike R L parts parts')
    (hp : p.callParts? = some parts) (hq : q.callParts? = some parts') :
    Option.Rel (fun a b => E → a = b) (headOf? style f p parts) (headOf? style f' q parts') := by
  have hstem := rel_option_found (h.stem?_rel hparts.callee hparts.arguments hparts.kinds)
  simp only [headOf?, Option.bind_eq_bind]
  refine rel_option_bind hstem ?_
  rintro s s' ⟨hs, hs', hss'⟩
  cases hss' with
  | @head c c' hc =>
    have hlambda : Option.Rel R (c.callParts?.bind CallParts.lambda)
        (c'.callParts?.bind CallParts.lambda) :=
      rel_option_bind (h.callParts hc) fun _ _ hinner => hinner.lambda
    simp only [← Option.not_isSome, isSome_eq_of_rel hlambda]
    exact rel_option_guard fun _ => h.head?_rel hc
  | @base c c' as as' hc has hk =>
    have hsame : c.same parts.callee = c'.same parts'.callee := by
      rw [same_of_stem? hs, same_of_stem? hs']
      exact (h.kind hparts.callee).test_eq (· != "call_expression")
    have hnav := h.navigationParts hc
    dsimp only
    cases hn : c.navigationParts? with
    | none =>
      rw [eq_none_of_rel hnav hn]
      dsimp only
      have hcall : Option.Rel (CallParts.Alike R L) p.callParts? q.callParts? := by
        rw [hp, hq]
        exact .some hparts
      rw [hsame]
      exact rel_option_guard fun _ =>
        h.head?_of_call hcall (Place.callParts?_kind hp) (Place.callParts?_kind hq)
    | some pair =>
      obtain ⟨pair', hn', hreceiver, hselector⟩ := exists_of_rel hnav hn
      rw [hn']
      dsimp only
      rw [h.identifier hselector (Place.isIdentifier_of_navigationParts? hn)]
      refine rel_option_guard fun _ => rel_option_bind (h.head?_rel hreceiver) fun a b hab => ?_
      exact .some fun he => by rw [hab he, h.disables_eq he has hk]

theorem testCall?_rel (hcallee : p.isCallee = q.isCallee)
    (hparts : Option.Rel (CallParts.Alike R L) p.callParts? q.callParts?) :
    Option.Rel (TestCall.Alike E L) (testCall? style f p) (testCall? style f' q) := by
  rw [testCall?, testCall?, ← hcallee]
  split
  · exact .none
  cases hp : p.callParts? with
  | none =>
    rw [eq_none_of_rel hparts hp]
    exact .none
  | some parts =>
    obtain ⟨parts', hq, hpq⟩ := exists_of_rel hparts hp
    rw [hq]
    dsimp only
    cases hl : parts.lambda with
    | none =>
      rw [eq_none_of_rel hpq.lambda hl]
      exact .none
    | some body =>
      obtain ⟨body', hl', hbody⟩ := exists_of_rel hpq.lambda hl
      rw [hl']
      dsimp only
      refine rel_option_map (h.headOf?_rel hpq hp hq) fun head head' hhead => ?_
      exact ⟨fun he => by rw [hhead he], fun he => by rw [hhead he], hbody⟩

lemma callback_rel (hparts : Option.Rel (CallParts.Alike R L) p.callParts? q.callParts?) :
    Option.Rel (fun c c' => c.kind = c'.kind) (Callback.ofCall? f p) (Callback.ofCall? f' q) := by
  simp only [Callback.ofCall?, Option.bind_eq_bind]
  refine rel_option_bind hparts fun parts parts' hpq => ?_
  rw [← (h.kind hpq.callee).isIdentifier_eq, ← isSome_eq_of_rel hpq.lambda,
    ← isEmpty_eq_of_rel hpq.arguments]
  refine rel_option_guard fun hguard => ?_
  rw [Bool.and_eq_true, Bool.and_eq_true] at hguard
  rw [h.identifier hpq.callee hguard.1.1]
  exact rel_option_bind_left _ fun _ => .some rfl

lemma source?_rel (hr : R p q) :
    Option.Rel (fun a b => a.2 = b.2 ∧ (E → a.1 = b.1)) (Include.source? f p)
      (Include.source? f' q) := by
  rw [Include.source?, Include.source?, ← (h.kind hr).isIdentifier_eq,
    ← (h.kind hr).beq_eq "call_expression"]
  split_ifs with hcall hid
  · exact rel_option_map (h.callParts hr) fun _ _ hparts =>
      ⟨rfl, fun he => h.text he hparts.callee⟩
  · exact .some ⟨rfl, fun _ => h.identifier hr hid⟩
  · exact .none

lemma include_rel (hparts : Option.Rel (CallParts.Alike R L) p.callParts? q.callParts?) :
    Option.Rel (fun i i' => i.kind = i'.kind ∧ (E → i.name = i'.name)) (Include.ofCall? f p)
      (Include.ofCall? f' q) := by
  simp only [Include.ofCall?, Option.bind_eq_bind]
  refine rel_option_bind hparts fun parts parts' hpq => ?_
  have hcallee : (parts.callee.isIdentifier && f.textOf parts.callee == "include") =
      (parts'.callee.isIdentifier && f'.textOf parts'.callee == "include") := by
    rw [← (h.kind hpq.callee).isIdentifier_eq]
    cases hid : parts.callee.isIdentifier with
    | false => rw [Bool.false_and, Bool.false_and]
    | true => rw [h.identifier hpq.callee hid]
  rw [hcallee]
  refine rel_option_guard fun _ => ?_
  have hargs := hpq.arguments
  have hkinds := hpq.kinds
  generalize parts.arguments = as at hargs hkinds ⊢
  generalize parts'.arguments = as' at hargs ⊢
  cases hargs with
  | nil => exact .none
  | @cons a a' rest rest' ha hrest =>
    cases hrest with
    | cons _ _ => exact .none
    | nil =>
      refine rel_option_bind (h.argumentExpression? ha (hkinds a (List.mem_cons_self ..)))
        fun e e' hee => ?_
      refine rel_option_bind (h.source?_rel hee) fun a b hab => .some ⟨hab.1, fun he => ?_⟩
      rw [hab.2 he]

end Congruent

end SpecAtlas
