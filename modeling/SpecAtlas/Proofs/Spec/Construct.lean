import Mathlib.Data.List.Induction
import SpecAtlas.Proofs.Spec.Alike

/-! Test constructs as they are written. A call applies a callee to at most one argument list and at
most one lambda; a construct is a head that is applied to a body, or a head with `config` selected
from it that is applied any number of times, last of all to a body. Recognition is shown to read the
head, the body and the configuring arguments off such a construct, in every layout of its calls. -/

namespace SpecAtlas

open Source

namespace Source

namespace Place

def listed (list : Place) : List Place := list.namedChildren.filter (·.kind == "value_argument")

def isArgumentList (p : Place) : Bool := p.kind == "value_arguments"

def isLambda (p : Place) : Bool := p.kind == "annotated_lambda" || p.kind == "lambda_literal"

lemma beq_kind_of_isIdentifier {p : Place} (h : p.isIdentifier = true) {kind : String}
    (hk : kind ∉ ["identifier", "simple_identifier", "type_identifier"] := by simp) :
    (p.kind == kind) = false := by
  refine beq_eq_false_iff_ne.mpr ?_
  rintro rfl
  exact hk (isIdentifier_iff.mp h)

lemma callParts?_eq_none {p : Place} (hk : p.kind ≠ "call_expression") : p.callParts? = none := by
  rw [callParts?, if_neg (by simpa using hk)]

lemma navigationParts?_eq_none {p : Place} (hk : p.kind ≠ "navigation_expression") :
    p.navigationParts? = none := by
  rw [navigationParts?_eq, if_neg (by simpa using hk)]

end Place

namespace CallParts

lemma arguments_absorb (parts : CallParts) (piece : Place) :
    (parts.absorb piece).arguments =
      if piece.isArgumentList then piece.listed else parts.arguments := by
  rw [absorb, Place.isArgumentList]
  split_ifs <;> rfl

lemma lambda_absorb_eq (parts : CallParts) (piece : Place) :
    (parts.absorb piece).lambda =
      if piece.isLambda then piece.lambdaLiteral? else parts.lambda := by
  rw [absorb, Place.isLambda]
  split_ifs with hlist hlambda
  · simp [beq_iff_eq.mp hlist] at hlambda
  · rfl
  · rfl
  · rfl

lemma arguments_foldl_absorb (pieces : List Place) (parts : CallParts) :
    (pieces.foldl absorb parts).arguments =
      ((pieces.filter Place.isArgumentList).getLast?.map Place.listed).getD parts.arguments := by
  induction pieces using List.reverseRecOn with
  | nil => rfl
  | append_singleton pieces piece ih =>
    rw [List.foldl_append, List.foldl_cons, List.foldl_nil, arguments_absorb, List.filter_append,
      ih]
    cases hlist : piece.isArgumentList <;> simp [hlist]

lemma lambda_foldl_absorb_eq (pieces : List Place) (parts : CallParts) :
    (pieces.foldl absorb parts).lambda =
      ((pieces.filter Place.isLambda).getLast?.map Place.lambdaLiteral?).getD parts.lambda := by
  induction pieces using List.reverseRecOn with
  | nil => rfl
  | append_singleton pieces piece ih =>
    rw [List.foldl_append, List.foldl_cons, List.foldl_nil, lambda_absorb_eq, List.filter_append,
      ih]
    cases hlambda : piece.isLambda <;> simp [hlambda]

end CallParts

/-- The call `callee(arguments) { block }`, where the argument list and the lambda may be missing,
in the layout with or without a suffix node. -/
structure Application (p callee : Place) (arguments : List Place) (block : Option Place) :
    Prop where
  kind : p.kind = "call_expression"
  pieces : ∃ rest list lambda, p.namedChildren = callee :: rest ∧
    (Place.suffixPieces rest).filter Place.isArgumentList = Option.toList list ∧
    (Place.suffixPieces rest).filter Place.isLambda = Option.toList lambda ∧
    arguments = (list.map Place.listed).getD [] ∧ block = lambda.bind Place.lambdaLiteral?

namespace Application

variable {p callee : Place} {arguments : List Place} {block : Option Place}

lemma exists_callParts (h : Application p callee arguments block) :
    ∃ parts, p.callParts? = some parts ∧ parts.callee = callee ∧ parts.arguments = arguments ∧
      parts.lambda = block := by
  obtain ⟨rest, list, lambda, hchildren, hlist, hlambda, rfl, rfl⟩ := h.pieces
  have hlast (x : Option Place) : x.toList.getLast? = x := by cases x <;> rfl
  refine ⟨_, by rw [Place.callParts?, if_pos (beq_iff_eq.mpr h.kind), hchildren], ?_, ?_, ?_⟩
  · rw [CallParts.callee_foldl_absorb]
  · rw [CallParts.arguments_foldl_absorb, hlist, hlast]
  · rw [CallParts.lambda_foldl_absorb_eq, hlambda, hlast]
    cases lambda <;> rfl

lemma kind_of_mem (h : Application p callee arguments block) :
    ∀ a ∈ arguments, a.kind = "value_argument" := by
  obtain ⟨rest, list, lambda, -, -, -, rfl, -⟩ := h.pieces
  cases list with
  | none => simp
  | some l => exact fun a ha => by simpa using (List.mem_filter.mp ha).2

end Application

inductive Selects (nav receiver selector : Place) : Prop
  | flat {between : List Place} (hk : nav.kind = "navigation_expression")
      (hc : nav.namedChildren = (receiver :: between) ++ [selector])
      (hid : selector.isIdentifier = true)
  | suffixed {between front : List Place} {suffix : Place}
      (hk : nav.kind = "navigation_expression")
      (hc : nav.namedChildren = (receiver :: between) ++ [suffix])
      (hs : suffix.kind = "navigation_suffix") (hcs : suffix.namedChildren = front ++ [selector])
      (hid : selector.isIdentifier = true)

namespace Selects

variable {nav receiver selector : Place}

lemma kind (h : Selects nav receiver selector) : nav.kind = "navigation_expression" := by
  cases h <;> assumption

lemma navigationParts?_eq (h : Selects nav receiver selector) :
    nav.navigationParts? = some (receiver, selector) := by
  rw [Place.navigationParts?_eq, if_pos (by simp [h.kind]), Place.selected?]
  cases h with
  | flat _ hc hid =>
    rw [hc, List.getLast?_concat, Option.bind_some, Place.beq_kind_of_isIdentifier hid]
    simp [hid]
  | suffixed _ hc hs hcs hid =>
    rw [hc, List.getLast?_concat, Option.bind_some, hs, hcs]
    simp [hid]

end Selects

end Source

namespace Spec

/-- A node that is a test head by itself: a call of an identifier, or a string. -/
inductive Stands (h : Place) : Place → List Place → Prop
  | call {callee : Place} {arguments : List Place} (hid : callee.isIdentifier = true)
      (hcall : Application h callee arguments none) : Stands h callee arguments
  | bare (hk : h.kind ∈ ["string_literal", "multiline_string_literal"]) : Stands h h []

inductive Simple (p callee : Place) (arguments : List Place) (body : Place) : Prop
  | flat (hid : callee.isIdentifier = true) (hcall : Application p callee arguments (some body))
  | nested {h : Place} (hhead : Stands h callee arguments) (hcall : Application p h [] (some body))

/-- Applications of `head.config`, with the arguments of all of them in order. -/
inductive Configures (f : File) (h : Place) : Place → List Place → Prop
  | config {nav selector : Place} (hnav : Selects nav h selector)
      (htext : Text.stripBackticks (f.textOf selector) = "config") : Configures f h nav []
  | call {p callee : Place} {earlier arguments : List Place} {block : Option Place}
      (hcallee : Configures f h callee earlier) (hcall : Application p callee arguments block) :
      Configures f h p (earlier ++ arguments)

inductive Configured (f : File) (p callee : Place) (arguments : List Place) :
    List Place → Place → Prop
  | intro {h inner body : Place} {earlier last : List Place} (hhead : Stands h callee arguments)
      (hconfig : Configures f h inner earlier) (hcall : Application p inner last (some body)) :
      Configured f p callee arguments (earlier ++ last) body

inductive Construct (f : File) (p callee : Place) (arguments : List Place) :
    List Place → Place → Prop
  | simple {body : Place} (h : Simple p callee arguments body) :
      Construct f p callee arguments [] body
  | configured {config : List Place} {body : Place}
      (h : Configured f p callee arguments config body) : Construct f p callee arguments config body

def Head.named (lead : String) (twin : Bool) (literal : String) : Head where
  name := lead ++ literal
  enabled := !twin && !isBang literal

def headOfCall? (style : Style) (f : File) (callee : Place) (arguments : List Place) :
    Option Head :=
  if style = .string then
    if callee.kind == "string_literal" && arguments.isEmpty then
      some (.named "" false (Text.unquote (f.textOf callee)))
    else none
  else if callee.isIdentifier then
    (style.keyword? (Text.stripBackticks (f.textOf callee))).bind fun (keyword, twin) =>
      (arguments.head?.map (literalArgument f)).map (.named keyword.lead twin)
  else none

variable {style : Style} {f : File} {p h callee body : Place} {arguments config : List Place}
  {block : Option Place}

lemma ne_string_of_keyword? {word : String} {found : Keyword × Bool}
    (h : style.keyword? word = some found) : style ≠ .string := by
  rintro rfl
  cases hrest : Text.stripLead? "x" word <;> simp [Style.keyword?, Style.keywords, hrest] at h

lemma headOfCall?_of_keyword {keyword : Keyword} {twin : Bool} {first : Place} {rest : List Place}
    (hid : callee.isIdentifier = true)
    (hkeyword : style.keyword? (Text.stripBackticks (f.textOf callee)) = some (keyword, twin)) :
    headOfCall? style f callee (first :: rest) =
      some (.named keyword.lead twin (literalArgument f first)) := by
  rw [headOfCall?, if_neg (ne_string_of_keyword? hkeyword), if_pos hid, hkeyword]
  rfl

lemma head?_of_ne (hstyle : style ≠ .string) : head? style f p = keywordHead? style f p := by
  cases style with
  | string => exact absurd rfl hstyle
  | _ => rfl

lemma head?_string : head? .string f p =
    (headLiteral? p).map fun l => .named "" false (Text.unquote (f.textOf l)) := by
  simp [head?, stringHead?, Head.named]

lemma head?_of_application (hcall : Application p callee arguments block) :
    head? style f p = headOfCall? style f callee arguments := by
  obtain ⟨parts, hparts, rfl, rfl, -⟩ := hcall.exists_callParts
  by_cases hstyle : style = .string
  · rw [headOfCall?, if_pos hstyle, hstyle, head?_string, headLiteral?,
      if_neg (by simp [hcall.kind]), hparts]
    simp only [guard, Option.bind_eq_bind, Option.bind_some]
    split_ifs <;> rfl
  · rw [headOfCall?, if_neg hstyle, head?_of_ne hstyle, keywordHead?, hparts]
    simp only [guard, Option.bind_eq_bind, Option.bind_some]
    split_ifs
    · cases style.keyword? (Text.stripBackticks (f.textOf parts.callee)) with
      | none => rfl
      | some found => cases parts.arguments <;> rfl
    · rfl

lemma head?_of_stands (hhead : Stands h callee arguments) :
    head? style f h = headOfCall? style f callee arguments := by
  cases hhead with
  | call hid hcall => exact head?_of_application hcall
  | bare hk =>
    have hnone : h.callParts? = none := Place.callParts?_eq_none fun hcall => by simp [hcall] at hk
    have hid : h.isIdentifier = false := by
      rcases List.mem_pair.mp hk with hk | hk <;> simp [Place.isIdentifier, hk]
    by_cases hstyle : style = .string
    · rw [headOfCall?, if_pos hstyle, hstyle, head?_string, headLiteral?, hnone,
        List.isEmpty_nil, Bool.and_true]
      split_ifs <;> rfl
    · rw [headOfCall?, if_neg hstyle, head?_of_ne hstyle, keywordHead?, hnone, hid]
      rfl

lemma Configures.beq_kind {c : Place} (hconfig : Configures f h c config) :
    (c.isIdentifier || c.kind == "string_literal") = false := by
  cases hconfig with
  | config hnav => simp [Place.isIdentifier, hnav.kind]
  | call _ hcall => simp [Place.isIdentifier, hcall.kind]

lemma Configures.exists_stem {c : Place} (hconfig : Configures f h c config) (extra : List Place) :
    ∃ nav selector found, stem? c extra = some (.base nav found) ∧ Selects nav h selector ∧
      Text.stripBackticks (f.textOf selector) = "config" ∧
      ∀ a, a ∈ found ↔ a ∈ config ∨ a ∈ extra := by
  induction hconfig generalizing extra with
  | @config nav selector hnav htext =>
    refine ⟨nav, selector, extra, ?_, hnav, htext, by simp⟩
    rw [stem?, if_neg (by simp [hnav.kind])]
  | @call p callee earlier arguments block hcallee hcall ih =>
    obtain ⟨parts, hparts, rfl, rfl, -⟩ := hcall.exists_callParts
    obtain ⟨nav, selector, found, hstem, hnav, htext, hmem⟩ := ih (extra ++ parts.arguments)
    refine ⟨nav, selector, found, ?_, hnav, htext, fun a => ?_⟩
    · have hplain := hcallee.beq_kind
      rw [stem?_of_callParts? hparts, hplain]
      exact hstem
    · rw [hmem, List.mem_append, List.mem_append, or_assoc, or_comm (b := a ∈ extra)]

lemma disables_iff {as : List Place} :
    disables f as = true ↔ ∃ a ∈ as, f.argumentLabel? a = some "enabled" ∧
      ∃ e, a.argumentExpression? = some e ∧ Text.trim (f.textOf e) = "false" := by
  simp [disables, List.any_eq_true, Option.map_eq_some_iff]

lemma testCall?_of_application {parts : CallParts} (hp : p.isCallee = false)
    (hparts : p.callParts? = some parts) (hbody : parts.lambda = some body) :
    testCall? style f p = (headOf? style f p parts).map fun head =>
      { node := p, body, name := head.name, enabled := head.enabled } := by
  rw [testCall?, hp, if_neg Bool.false_ne_true, hparts]
  dsimp only
  rw [hbody]

lemma headOf?_of_plain {parts : CallParts} (hcall : parts.callee.kind ≠ "call_expression")
    (hnav : parts.callee.kind ≠ "navigation_expression") :
    headOf? style f p parts = head? style f p := by
  rw [headOf?, stem?, if_neg (by simpa using hcall)]
  simp [Place.navigationParts?_eq_none hnav, guard]

lemma headOf?_of_call {parts inner : CallParts} (hinner : parts.callee.callParts? = some inner)
    (hid : inner.callee.isIdentifier = true) (hlambda : inner.lambda = none) :
    headOf? style f p parts = head? style f parts.callee := by
  rw [headOf?, stem?_of_callParts? hinner, hid, Bool.true_or, if_pos rfl]
  simp [hinner, hlambda, guard]

lemma headOf?_of_config {parts : CallParts} {nav selector : Place} {found : List Place}
    (hstem : stem? parts.callee parts.arguments = some (.base nav found))
    (hnav : nav.navigationParts? = some (h, selector))
    (htext : Text.stripBackticks (f.textOf selector) = "config") :
    headOf? style f p parts = (head? style f h).map fun head =>
      { head with enabled := head.enabled && !disables f found } := by
  rw [headOf?, hstem]
  simp only [Option.bind_eq_bind, Option.bind_some, hnav, htext, beq_self_eq_true, guard, if_true]
  cases head? style f h <;> rfl

lemma testCall?_of_simple (style : Style) (f : File) (hsimple : Simple p callee arguments body)
    (hp : p.isCallee = false) :
    testCall? style f p = (headOfCall? style f callee arguments).map fun head =>
      { node := p, body, name := head.name, enabled := head.enabled } := by
  cases hsimple with
  | flat hid hcall =>
    obtain ⟨parts, hparts, rfl, rfl, hbody⟩ := hcall.exists_callParts
    have hkind (kind : String)
      (hk : kind ∉ ["identifier", "simple_identifier", "type_identifier"]) :
        parts.callee.kind ≠ kind := beq_eq_false_iff_ne.mp (Place.beq_kind_of_isIdentifier hid hk)
    rw [testCall?_of_application hp hparts hbody,
      headOf?_of_plain (hkind _ (by simp)) (hkind _ (by simp)), head?_of_application hcall]
  | nested hhead hcall =>
    obtain ⟨parts, hparts, rfl, hnone, hbody⟩ := hcall.exists_callParts
    rw [testCall?_of_application hp hparts hbody]
    cases hhead with
    | call hid hinner =>
      obtain ⟨inner, hcallee, rfl, rfl, hlambda⟩ := hinner.exists_callParts
      rw [headOf?_of_call hcallee hid hlambda, head?_of_application hinner]
    | bare hk =>
      have hkind (kind : String) (hne : kind ∉ ["string_literal", "multiline_string_literal"]) :
          parts.callee.kind ≠ kind := fun heq => hne (heq ▸ hk)
      rw [headOf?_of_plain (hkind _ (by simp)) (hkind _ (by simp)), head?_of_application hcall]

lemma testCall?_of_configured (style : Style)
    (hconfigured : Configured f p callee arguments config body) (hp : p.isCallee = false) :
    testCall? style f p = (headOfCall? style f callee arguments).map fun head =>
      { node := p, body, name := head.name, enabled := head.enabled && !disables f config } := by
  obtain @⟨h, inner, body, earlier, last, hhead, hconfig, hcall⟩ := hconfigured
  obtain ⟨parts, hparts, rfl, rfl, hbody⟩ := hcall.exists_callParts
  obtain ⟨nav, selector, found, hstem, hnav, htext, hmem⟩ := hconfig.exists_stem parts.arguments
  have hfound : disables f found = disables f (earlier ++ parts.arguments) := by
    rw [Bool.eq_iff_iff, disables_iff, disables_iff]
    simp only [hmem, List.mem_append]
  rw [testCall?_of_application hp hparts hbody,
    headOf?_of_config hstem hnav.navigationParts?_eq htext, head?_of_stands hhead, hfound,
    Option.map_map]
  rfl

lemma testCall?_of_construct (style : Style)
    (hconstruct : Construct f p callee arguments config body) (hp : p.isCallee = false) :
    testCall? style f p = (headOfCall? style f callee arguments).map fun head =>
      { node := p, body, name := head.name, enabled := head.enabled && !disables f config } := by
  cases hconstruct with
  | simple hsimple => simp [testCall?_of_simple style f hsimple hp, disables]
  | configured hconfigured => exact testCall?_of_configured style hconfigured hp

end Spec

end SpecAtlas
