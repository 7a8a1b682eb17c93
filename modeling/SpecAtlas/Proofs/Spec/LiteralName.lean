import SpecAtlas.Proofs.Spec.Construct

/-! Names that are written as string literals. A literal in plain quotes gives the text between
them. A literal in triple quotes is not looked into: as an argument it is taken with its quotes, and
by itself it makes no head. -/

namespace SpecAtlas

open Source

/-- A literal in plain quotes. It ends at the next quote, so its contents do not start with one. -/
structure PlainLiteral (f : File) (e : Place) (content : String) : Prop where
  kind : e.kind = "string_literal"
  text : f.textOf e = "\"" ++ content ++ "\""
  start : content.toList.head? ≠ some '"'

structure RawLiteral (f : File) (e : Place) (content : String) : Prop where
  kind : e.kind = "multiline_string_literal"
  text : f.textOf e = "\"\"\"" ++ content ++ "\"\"\""

lemma Text.unquote_plain {content : String} (h : content.toList.head? ≠ some '"') :
    unquote ("\"" ++ content ++ "\"") = content := by
  have htext : ("\"" ++ content ++ "\"").toList = ['"'] ++ content.toList ++ ['"'] := by simp
  have hraw : enclosedBy tripleQuote (['"'] ++ content.toList ++ ['"']) = false := by
    cases hchars : content.toList with
    | nil => rfl
    | cons c rest =>
      rw [hchars, List.head?_cons, ne_eq, Option.some.injEq] at h
      simp [enclosedBy, tripleQuote, Ne.symm h]
  have hplain : enclosedBy ['"'] (['"'] ++ content.toList ++ ['"']) = true := by
    simp [enclosedBy, List.isSuffixOf_iff_suffix]
  have hinner : inner 1 (['"'] ++ content.toList ++ ['"']) = content.toList :=
    inner_append ['"'] content.toList
  rw [unquote, unquoteChars, htext, hraw, if_neg Bool.false_ne_true, if_pos hplain, hinner,
    String.ofList_toList]

namespace Spec

/-- The literal that names a head, behind the text of the keyword; the flag tells whether the
keyword is a disabled twin. -/
inductive NamedBy (style : Style) (f : File) (callee : Place) :
    List Place → String → Bool → Place → Prop
  | argument {keyword : Keyword} {twin : Bool} {first literal : Place} {rest : List Place}
      (hid : callee.isIdentifier = true)
      (hkeyword : style.keyword? (Text.stripBackticks (f.textOf callee)) = some (keyword, twin))
      (hfirst : first.argumentExpression? = some literal) :
      NamedBy style f callee (first :: rest) keyword.lead twin literal
  | alone (hstyle : style = .string) : NamedBy style f callee [] "" false callee

variable {style : Style} {f : File} {callee literal : Place} {arguments : List Place}
  {lead content : String} {twin : Bool}

lemma NamedBy.head_of_plain (hname : NamedBy style f callee arguments lead twin literal)
    (hliteral : PlainLiteral f literal content) :
    headOfCall? style f callee arguments = some (.named lead twin content) := by
  have hunquote : Text.unquote (f.textOf literal) = content := by
    rw [hliteral.text, Text.unquote_plain hliteral.start]
  cases hname with
  | argument hid hkeyword hfirst =>
    rw [headOfCall?_of_keyword hid hkeyword, literalArgument, hfirst]
    simp only [hliteral.kind, beq_self_eq_true, if_true, hunquote]
  | alone hstyle =>
    rw [headOfCall?, if_pos hstyle, hliteral.kind, hunquote]
    rfl

lemma NamedBy.head_of_raw (hname : NamedBy style f callee arguments lead twin literal)
    (hliteral : RawLiteral f literal content) :
    headOfCall? style f callee arguments =
      if style = .string then none else some (.named lead twin (f.textOf literal)) := by
  cases hname with
  | argument hid hkeyword hfirst =>
    rw [headOfCall?_of_keyword hid hkeyword, if_neg (ne_string_of_keyword? hkeyword),
      literalArgument, hfirst]
    simp [hliteral.kind]
  | alone hstyle =>
    rw [headOfCall?, if_pos hstyle, if_pos hstyle, hliteral.kind]
    rfl

/-- A test that is named by a literal in plain quotes is recognised by the text between the quotes,
and an exclamation mark at the start of that text disables it. With triple quotes the name of a
keyword call keeps them, so that no such mark is seen, and a string spec has no test there. -/
theorem name_of_literal (style : Style) (f : File) (p callee body literal : Place)
    (arguments config : List Place) (lead content : String) (twin : Bool)
    (hconstruct : Construct f p callee arguments config body) (hp : p.isCallee = false)
    (hname : NamedBy style f callee arguments lead twin literal) :
    (PlainLiteral f literal content → ∃ call, testCall? style f p = some call ∧
      call.body = body ∧ call.name = lead ++ content ∧
      (call.enabled = true ↔
        twin = false ∧ isBang content = false ∧ disables f config = false)) ∧
    (RawLiteral f literal content → style ≠ .string → ∃ call, testCall? style f p = some call ∧
      call.body = body ∧ call.name = lead ++ ("\"\"\"" ++ content ++ "\"\"\"") ∧
      (call.enabled = true ↔ twin = false ∧ disables f config = false)) ∧
    (RawLiteral f literal content → style = .string → testCall? style f p = none) := by
  have hcall := testCall?_of_construct style hconstruct hp
  refine ⟨fun hliteral => ?_, fun hliteral hstyle => ?_, fun hliteral hstyle => ?_⟩
  · rw [hname.head_of_plain hliteral, Option.map_some] at hcall
    exact ⟨_, hcall, rfl, rfl, by simp [Head.named, and_assoc]⟩
  · rw [hname.head_of_raw hliteral, if_neg hstyle, Option.map_some, hliteral.text] at hcall
    have hmark : isBang ("\"\"\"" ++ content ++ "\"\"\"") = false := by simp [isBang]
    exact ⟨_, hcall, rfl, rfl, by simp [Head.named, hmark]⟩
  · rw [hcall, hname.head_of_raw hliteral, if_pos hstyle, Option.map_none]

def literalSpecimen : File where
  text := "test(\"!a\") \x7b \x7d\ntest(\"\"\"!a\"\"\") \x7b \x7d\n\"\"\"a\"\"\" \x7b \x7d\n"
  root := (Node.ofPreorder
    [(⟨"source_file", 0, 46, true, false, false⟩, 3),
      (⟨"call_expression", 0, 14, true, false, false⟩, 2),
      (⟨"call_expression", 0, 10, true, false, false⟩, 2),
      (⟨"identifier", 0, 4, true, false, false⟩, 0),
      (⟨"value_arguments", 4, 10, true, false, false⟩, 1),
      (⟨"value_argument", 5, 9, true, false, false⟩, 1),
      (⟨"string_literal", 5, 9, true, false, false⟩, 0),
      (⟨"annotated_lambda", 11, 14, true, false, false⟩, 1),
      (⟨"lambda_literal", 11, 14, true, false, false⟩, 0),
      (⟨"call_expression", 15, 33, true, false, false⟩, 2),
      (⟨"call_expression", 15, 29, true, false, false⟩, 2),
      (⟨"identifier", 15, 19, true, false, false⟩, 0),
      (⟨"value_arguments", 19, 29, true, false, false⟩, 1),
      (⟨"value_argument", 20, 28, true, false, false⟩, 1),
      (⟨"multiline_string_literal", 20, 28, true, false, false⟩, 0),
      (⟨"annotated_lambda", 30, 33, true, false, false⟩, 1),
      (⟨"lambda_literal", 30, 33, true, false, false⟩, 0),
      (⟨"call_expression", 34, 45, true, false, false⟩, 2),
      (⟨"multiline_string_literal", 34, 41, true, false, false⟩, 0),
      (⟨"annotated_lambda", 42, 45, true, false, false⟩, 1),
      (⟨"lambda_literal", 42, 45, true, false, false⟩, 0)]).headD default

def literalSpecimenCall (i : Nat) : Place :=
  (literalSpecimen.rootPlace.namedChildren[i]?).getD default

theorem name_of_literal_specimen :
    ∃ call, testCall? .function literalSpecimen (literalSpecimenCall 0) = some call ∧
      call.name = "!a" ∧ call.enabled = false := by
  have hconstruct : Construct literalSpecimen (literalSpecimenCall 0) _ _ _ _ :=
    .simple (.nested (.call rfl ⟨rfl, _, some _, none, rfl, rfl, rfl, rfl, rfl⟩)
      ⟨rfl, _, none, some _, rfl, rfl, rfl, rfl, rfl⟩)
  obtain ⟨hplain, -⟩ := name_of_literal .function literalSpecimen _ _ _ _ _ _ "" "!a" false
    hconstruct
    rfl (@NamedBy.argument _ _ _ ⟨"test", ""⟩ _ _ _ _ rfl (by decide +kernel) rfl)
  obtain ⟨call, hcall, -, hname, henabled⟩ := hplain ⟨rfl, by decide +kernel, by decide⟩
  exact ⟨call, hcall, hname, by simpa [isBang] using henabled⟩

theorem raw_literal_kept :
    (testCall? .function literalSpecimen (literalSpecimenCall 1)).map
    (fun c => (c.name, c.enabled)) =
        some ("\"\"\"!a\"\"\"", true) ∧
      (testCall? .string literalSpecimen (literalSpecimenCall 2)).isNone = true := by
  decide +kernel

end Spec

end SpecAtlas
