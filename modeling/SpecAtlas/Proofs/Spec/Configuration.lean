import SpecAtlas.Proofs.Spec.Construct

/-! Configuring a test. A head that is written once with a body alone and once with a configuration
introduces the same test both times; only the arguments of the configuration can disable it. -/

namespace SpecAtlas

open Source

/-- Two places that read alike: the same kinds and texts all the way down. -/
inductive Source.Place.Copies (f f' : File) : Place → Place → Prop
  | intro {p q : Place} (hkind : q.kind = p.kind) (hnamed : p.named = q.named)
      (hfield : p.node.label.nameField = q.node.label.nameField) (htext : f.textOf p = f'.textOf q)
      (hchildren : List.Forall₂ (Copies f f') p.children q.children) : Copies f f' p q

namespace Source.Place.Copies

variable {f f' : File} {p q : Place}

lemma kind_eq (h : Copies f f' p q) : q.kind = p.kind := by
  cases h
  assumption

lemma text_eq (h : Copies f f' p q) : f.textOf p = f'.textOf q := by
  cases h
  assumption

lemma children (h : Copies f f' p q) : List.Forall₂ (Copies f f') p.children q.children := by
  cases h
  assumption

lemma alike (f f' : File) : Alike (Copies f f') where
  kind h := .inl h.kind_eq
  named h := by cases h; assumption
  nameField h := by cases h; assumption
  children h _ := h.children

lemma congruent (f f' : File) : Congruent f f' True (Copies f f') where
  toAlike := alike f f'
  text _ h := h.text_eq
  identifier h _ := h.text_eq
  callParts h := (alike f f').callParts?_of_children (.inl h.kind_eq) fun _ => h.children
  navigationParts h := (alike f f').navigationParts?_of_children (.inl h.kind_eq) h.children

end Source.Place.Copies

namespace Spec

open Source.Place (Copies)

variable {style : Style} {f f' : File} {callee callee' : Place} {arguments arguments' : List Place}

lemma headOfCall?_eq (hcallee : Copies f f' callee callee')
    (harguments : List.Forall₂ (Copies f f') arguments arguments')
    (hk : ∀ a ∈ arguments, a.kind = "value_argument") :
    headOfCall? style f callee arguments = headOfCall? style f' callee' arguments' := by
  have hcongruent := Place.Copies.congruent f f'
  have hfirst : arguments.head?.map (literalArgument f) =
      arguments'.head?.map (literalArgument f') := by
    have hhead := rel_option_and_left (rel_head? harguments) fun a ha => hk a (List.mem_of_head? ha)
    exact map_eq_of_rel hhead fun a b hab => hcongruent.literalArgument_eq trivial hab.2 hab.1
  rw [headOfCall?, headOfCall?, hcallee.kind_eq, hcallee.text_eq, isEmpty_eq_of_rel harguments,
    (hcongruent.kind hcallee).isIdentifier_eq, hfirst]

/-- What makes a head: a keyword of the style with a name to follow, or a string in the style whose
tests are named by a string alone. -/
inductive IsHead (style : Style) (f : File) (callee : Place) : List Place → Prop
  | keyword {first : Place} {rest : List Place} (hid : callee.isIdentifier = true)
      (hkeyword : (style.keyword? (Text.stripBackticks (f.textOf callee))).isSome = true) :
      IsHead style f callee (first :: rest)
  | literal (hstyle : style = .string) (hkind : callee.kind = "string_literal") :
      IsHead style f callee []

lemma IsHead.exists_head (h : IsHead style f callee arguments) :
    ∃ head, headOfCall? style f callee arguments = some head := by
  cases h with
  | keyword hid hkeyword =>
    obtain ⟨found, hfound⟩ := Option.isSome_iff_exists.mp hkeyword
    exact ⟨_, headOfCall?_of_keyword hid hfound⟩
  | literal hstyle hkind => exact ⟨_, by rw [headOfCall?, if_pos hstyle, hkind]; rfl⟩

lemma Stands.kind_of_mem {h : Place} (hhead : Stands h callee arguments) :
    ∀ a ∈ arguments, a.kind = "value_argument" := by
  cases hhead with
  | call _ hcall => exact hcall.kind_of_mem
  | bare => simp

lemma Simple.kind_of_mem {p body : Place} (hsimple : Simple p callee arguments body) :
    ∀ a ∈ arguments, a.kind = "value_argument" := by
  cases hsimple with
  | flat _ hcall => exact hcall.kind_of_mem
  | nested hhead _ => exact hhead.kind_of_mem

/-- A configured construct introduces a test of the same name as the simple one with the same head.
It is enabled if that one is and no argument of the configuration reads `enabled = false`. -/
theorem config_changes_enablement_only (style : Style) (f f' : File) (callee callee' : Place)
    (arguments arguments' : List Place) (hhead : IsHead style f callee arguments)
    (hcallee : Copies f f' callee callee')
    (harguments : List.Forall₂ (Copies f f') arguments arguments')
    (p body : Place) (hsimple : Simple p callee arguments body) (hp : p.isCallee = false)
    (p' body' : Place) (config : List Place)
    (hconfigured : Configured f' p' callee' arguments' config body') (hp' : p'.isCallee = false) :
    ∃ call call', testCall? style f p = some call ∧ testCall? style f' p' = some call' ∧
      call'.name = call.name ∧ call.body = body ∧ call'.body = body' ∧
      (call'.enabled = true ↔ call.enabled = true ∧
        ¬∃ a ∈ config, f'.argumentLabel? a = some "enabled" ∧
          ∃ e, a.argumentExpression? = some e ∧ Text.trim (f'.textOf e) = "false") := by
  obtain ⟨head, hread⟩ := hhead.exists_head
  have hread' : headOfCall? style f' callee' arguments' = some head := by
    rw [← headOfCall?_eq hcallee harguments hsimple.kind_of_mem, hread]
  have hcall := testCall?_of_simple style f hsimple hp
  have hcall' := testCall?_of_configured style hconfigured hp'
  rw [hread, Option.map_some] at hcall
  rw [hread', Option.map_some] at hcall'
  refine ⟨_, _, hcall, hcall', rfl, rfl, rfl, ?_⟩
  rw [← disables_iff, Bool.and_eq_true, Bool.not_eq_true', Bool.not_eq_true]

def configSpecimen : File where
  text := "test(\"a\") \x7b \x7d\n" ++
    "test(\"a\").config(timeout = 1) \x7b 2 \x7d(enabled = false) \x7b \x7d\n"
  root := (Node.ofPreorder
    [(⟨"source_file", 0, 71, true, false, false⟩, 2),
      (⟨"call_expression", 0, 13, true, false, false⟩, 3),
      (⟨"identifier", 0, 4, true, false, false⟩, 0),
      (⟨"value_arguments", 4, 9, true, false, false⟩, 1),
      (⟨"value_argument", 5, 8, true, false, false⟩, 1),
      (⟨"string_literal", 5, 8, true, false, false⟩, 0),
      (⟨"annotated_lambda", 10, 13, true, false, false⟩, 1),
      (⟨"lambda_literal", 10, 13, true, false, false⟩, 0),
      (⟨"call_expression", 14, 70, true, false, false⟩, 2),
      (⟨"call_expression", 14, 66, true, false, false⟩, 2),
      (⟨"call_expression", 14, 49, true, false, false⟩, 2),
      (⟨"call_expression", 14, 43, true, false, false⟩, 2),
      (⟨"navigation_expression", 14, 30, true, false, false⟩, 3),
      (⟨"call_expression", 14, 23, true, false, false⟩, 2),
      (⟨"identifier", 14, 18, true, false, false⟩, 0),
      (⟨"value_arguments", 18, 23, true, false, false⟩, 1),
      (⟨"value_argument", 19, 22, true, false, false⟩, 1),
      (⟨"string_literal", 19, 22, true, false, false⟩, 0),
      (⟨".", 23, 24, false, false, false⟩, 0),
      (⟨"identifier", 24, 30, true, false, false⟩, 0),
      (⟨"value_arguments", 30, 43, true, false, false⟩, 1),
      (⟨"value_argument", 31, 42, true, false, false⟩, 2),
      (⟨"identifier", 31, 38, true, false, false⟩, 0),
      (⟨"number_literal", 41, 42, true, false, false⟩, 0),
      (⟨"annotated_lambda", 44, 49, true, false, false⟩, 1),
      (⟨"lambda_literal", 44, 49, true, false, false⟩, 1),
      (⟨"number_literal", 46, 47, true, false, false⟩, 0),
      (⟨"value_arguments", 49, 66, true, false, false⟩, 1),
      (⟨"value_argument", 50, 65, true, false, false⟩, 2),
      (⟨"identifier", 50, 57, true, false, false⟩, 0),
      (⟨"identifier", 60, 65, true, false, false⟩, 0),
      (⟨"annotated_lambda", 67, 70, true, false, false⟩, 1),
      (⟨"lambda_literal", 67, 70, true, false, false⟩, 0)]).headD default

def configSpecimenCall (i : Nat) : Place :=
  (configSpecimen.rootPlace.namedChildren[i]?).getD default

theorem config_changes_enablement_only_specimen :
    ∃ call call', testCall? .function configSpecimen (configSpecimenCall 0) = some call ∧
      testCall? .function configSpecimen (configSpecimenCall 1) = some call' ∧
      call.name = "a" ∧ call'.name = "a" ∧ call.enabled = true ∧ call'.enabled = false := by
  have hsimple : Simple (configSpecimenCall 0) _ _ _ :=
    .flat rfl ⟨rfl, _, some _, some _, rfl, rfl, rfl, rfl, rfl⟩
  have hconfigured : Configured configSpecimen (configSpecimenCall 1) _ _ _ _ :=
    .intro (.call rfl ⟨rfl, _, some _, none, rfl, rfl, rfl, rfl, rfl⟩)
      (.call (.call (.call (.config (@Selects.flat _ _ _ [] rfl rfl rfl) (by decide +kernel))
        ⟨rfl, _, some _, none, rfl, rfl, rfl, rfl, rfl⟩)
        ⟨rfl, _, none, some _, rfl, rfl, rfl, rfl, rfl⟩)
        ⟨rfl, _, some _, none, rfl, rfl, rfl, rfl, rfl⟩)
      ⟨rfl, _, none, some _, rfl, rfl, rfl, rfl, rfl⟩
  have hsame := fun hcallee harguments =>
    config_changes_enablement_only .function configSpecimen configSpecimen _ _ _ _
      (.keyword rfl (by decide +kernel)) hcallee harguments _ _ hsimple rfl _ _ _ hconfigured rfl
  obtain ⟨call, call', hcall, hcall', hname, -, -, -⟩ :=
    hsame (.intro rfl rfl rfl (by decide +kernel) .nil)
      (.cons (.intro rfl rfl rfl (by decide +kernel)
        (.cons (.intro rfl rfl rfl (by decide +kernel) .nil) .nil)) .nil)
  have hread : (testCall? .function configSpecimen (configSpecimenCall 0)).map
      (fun c => (c.name, c.enabled)) = some ("a", true) := by decide +kernel
  have hread' : (testCall? .function configSpecimen (configSpecimenCall 1)).map
      TestCall.enabled = some false := by decide +kernel
  rw [hcall, Option.map_some, Option.some.injEq, Prod.mk.injEq] at hread
  rw [hcall', Option.map_some, Option.some.injEq] at hread'
  exact ⟨call, call', hcall, hcall', hread.1, hname.trans hread.1, hread.2, hread'⟩

end Spec

end SpecAtlas
