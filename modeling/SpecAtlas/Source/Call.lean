import SpecAtlas.Source.File
import SpecAtlas.Text.Quotes

/-!
The shapes of statements, calls and navigations. Calls are read both in the flat layout, where the
argument list and the trailing lambda are children of the call, and in the layout where they are
wrapped in a `call_suffix`; statement containers are opened up likewise.
-/

namespace SpecAtlas.Source

namespace Place

def isIdentifier (p : Place) : Bool :=
  p.kind == "identifier" || p.kind == "simple_identifier" || p.kind == "type_identifier"

def isComment (p : Place) : Bool := "comment".toList.isSuffixOf p.kind.toList

def isTrivia (p : Place) : Bool :=
  p.kind == "lambda_parameters" || p.kind == "label" || p.isComment

def isStatementWrapper (kind : String) : Bool := kind == "statements" || kind == "block"

/-- Statements of a block, in source order, without parameters, labels and comments. -/
def statements (block : Place) : List Place :=
  (block.spread isStatementWrapper).filter (!·.isTrivia)

theorem size_lt_of_mem_statements {block s : Place} (h : s ∈ block.statements) :
    s.node.size < block.node.size :=
  size_lt_of_mem_spread (List.mem_filter.1 h).1

def lambdaLiteral? (p : Place) : Option Place :=
  if p.kind == "lambda_literal" then some p
  else if p.kind == "annotated_lambda" then p.firstOfKind? "lambda_literal"
  else none

theorem size_le_of_lambdaLiteral? {p l : Place} (h : p.lambdaLiteral? = some l) :
    l.node.size ≤ p.node.size := by
  unfold lambdaLiteral? at h
  split at h
  · exact Nat.le_of_eq (congrArg (·.node.size) (Option.some.inj h).symm)
  · split at h
    · exact Nat.le_of_lt (size_lt_of_mem_namedChildren (List.mem_of_find?_eq_some h))
    · cases h

end Place

structure CallParts where
  callee : Place
  arguments : List Place := []
  hasArgumentList : Bool := false
  lambda : Option Place := none
deriving Inhabited

namespace CallParts

def absorb (parts : CallParts) (piece : Place) : CallParts :=
  if piece.kind == "value_arguments" then
    -- of several argument lists the last counts, and so do lambdas
    { parts with
      hasArgumentList := true
      arguments := piece.namedChildren.filter (·.kind == "value_argument") }
  else if piece.kind == "annotated_lambda" || piece.kind == "lambda_literal" then
    { parts with lambda := piece.lambdaLiteral? }
  else parts

@[simp] theorem callee_absorb (parts : CallParts) (piece : Place) :
    (parts.absorb piece).callee = parts.callee := by
  unfold absorb; split
  · rfl
  · split <;> rfl

theorem lambda_absorb (parts : CallParts) (piece : Place) :
    (parts.absorb piece).lambda = parts.lambda ∨
      (parts.absorb piece).lambda = piece.lambdaLiteral? := by
  unfold absorb; split
  · exact .inl rfl
  · split
    · exact .inr rfl
    · exact .inl rfl

@[simp] theorem callee_foldl_absorb (pieces : List Place) (parts : CallParts) :
    (pieces.foldl absorb parts).callee = parts.callee := by
  induction pieces generalizing parts with
  | nil => rfl
  | cons piece pieces ih => simp [ih]

theorem lambda_foldl_absorb {pieces : List Place} {parts : CallParts} {l : Place}
    (h : (pieces.foldl absorb parts).lambda = some l) :
    parts.lambda = some l ∨ ∃ piece ∈ pieces, piece.lambdaLiteral? = some l := by
  induction pieces generalizing parts with
  | nil => exact .inl h
  | cons piece pieces ih =>
    rcases ih h with h | ⟨q, hq, h⟩
    · rcases lambda_absorb parts piece with e | e
      · exact .inl (e ▸ h)
      · exact .inr ⟨piece, List.mem_cons_self .., e ▸ h⟩
    · exact .inr ⟨q, List.mem_cons_of_mem _ hq, h⟩

end CallParts

namespace Place

/-- What follows the callee of a call, with `call_suffix` wrappers opened up. -/
def suffixPieces (rest : List Place) : List Place :=
  rest.flatMap fun p => if p.kind == "call_suffix" then p.spread (· == "call_suffix") else [p]

def callParts? (p : Place) : Option CallParts :=
  if p.kind == "call_expression" then
    match p.namedChildren with
    | [] => none
    | callee :: rest => some ((suffixPieces rest).foldl CallParts.absorb { callee })
  else none

theorem size_lt_of_mem_suffixPieces {p q : Place} {rest : List Place}
    (hrest : ∀ c ∈ rest, c.node.size < p.node.size) (h : q ∈ suffixPieces rest) :
    q.node.size < p.node.size := by
  obtain ⟨c, hc, hq⟩ := List.mem_flatMap.1 h
  split at hq
  · exact Nat.lt_trans (size_lt_of_mem_spread hq) (hrest c hc)
  · exact List.mem_singleton.1 hq ▸ hrest c hc

theorem callParts?_eq_some {p : Place} {parts : CallParts} (h : p.callParts? = some parts) :
    ∃ callee rest, p.namedChildren = callee :: rest ∧
      parts = (suffixPieces rest).foldl CallParts.absorb { callee } := by
  unfold callParts? at h
  split at h
  · split at h
    · cases h
    · exact ⟨_, _, ‹_›, (Option.some.inj h).symm⟩
  · cases h

theorem size_callee_lt {p : Place} {parts : CallParts} (h : p.callParts? = some parts) :
    parts.callee.node.size < p.node.size := by
  obtain ⟨callee, rest, hc, rfl⟩ := callParts?_eq_some h
  rw [CallParts.callee_foldl_absorb]
  exact size_lt_of_mem_namedChildren (hc ▸ List.mem_cons_self ..)

theorem size_lambda_lt {p l : Place} {parts : CallParts} (h : p.callParts? = some parts)
    (hl : parts.lambda = some l) : l.node.size < p.node.size := by
  obtain ⟨callee, rest, hc, rfl⟩ := callParts?_eq_some h
  rcases CallParts.lambda_foldl_absorb hl with hl | ⟨piece, hp, hl⟩
  · cases hl
  · refine Nat.lt_of_le_of_lt (size_le_of_lambdaLiteral? hl)
      (size_lt_of_mem_suffixPieces (fun c hm => ?_) hp)
    exact size_lt_of_mem_namedChildren (hc ▸ List.mem_cons_of_mem _ hm)

def invokes (call p : Place) : Bool :=
  match call.callParts? with
  | some parts => parts.callee.same p
  | none => false

def isCallee (p : Place) : Bool :=
  match p.parent? with
  | some q => q.invokes p
  | none => false

def outermostCall? (p : Place) : Option Place :=
  let steps := (p.lineage.zip p.ancestors).takeWhile fun (c, q) => q.invokes c
  steps.getLast?.map Prod.snd

def argumentExpression? (argument : Place) : Option Place :=
  argument.namedChildren.reverse.find? (·.kind != "annotation")

def navigationParts? (nav : Place) : Option (Place × Place) := do
  guard (nav.kind == "navigation_expression")
  let receiver ← nav.namedChildren.head?
  let last ← nav.namedChildren.getLast?
  let selector ←
    if last.kind == "navigation_suffix" then last.namedChildren.getLast? else some last
  guard (!selector.same receiver && selector.isIdentifier)
  return (receiver, selector)

def isSeparator (p : Place) : Bool := p.kind == "." || p.kind == "?."

def navigationOfSeparator? (leaf : Place) : Option Place := do
  guard leaf.isSeparator
  let parent ← leaf.parent?
  if parent.kind == "navigation_expression" then return parent
  guard (parent.kind == "navigation_suffix")
  parent.parent?.filter (·.kind == "navigation_expression")

end Place

def File.argumentLabel? (f : File) (argument : Place) : Option String :=
  if argument.namedChildren.length < 2 then none
  else
    (argument.namedChildren.find? fun c => c.isIdentifier || c.kind == "value_argument_label").map
      fun c => Text.trim (Text.trimEndOf '=' (f.textOf c))

end SpecAtlas.Source
