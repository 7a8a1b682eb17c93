import SpecAtlas.Source.Declaration
import SpecAtlas.Style

/-!
Calls that introduce a test. A test is written `head { body }`, where the head carries the name, or
`head.config(...) { body }` with any number of argument lists and lambdas between `config` and the
body. What a head looks like depends on the style.
-/

namespace SpecAtlas.Spec

open Source

structure Head where
  name : String
  enabled : Bool
deriving DecidableEq, Repr

structure TestCall where
  node : Place
  body : Place
  name : String
  enabled : Bool

def isBang (name : String) : Bool := name.toList.head? == some '!'

/-- Text of a name argument: a string literal loses its quotes, anything else is kept as written. -/
def literalArgument (f : File) (argument : Place) : String :=
  match argument.argumentExpression? with
  | some e => if e.kind == "string_literal" then Text.unquote (f.textOf e) else f.textOf e
  | none => f.textOf argument

def keywordHead? (style : Style) (f : File) (p : Place) : Option Head := do
  let parts ← p.callParts?
  guard parts.callee.isIdentifier
  let (keyword, twin) ← style.keyword? (Text.stripBackticks (f.textOf parts.callee))
  let literal := literalArgument f (← parts.arguments.head?)
  return { name := keyword.lead ++ literal, enabled := !twin && !isBang literal }

def headLiteral? (p : Place) : Option Place :=
  if p.kind == "string_literal" then some p
  else do
    let parts ← p.callParts?
    guard (parts.callee.kind == "string_literal" && parts.arguments.isEmpty)
    return parts.callee

def stringHead? (f : File) (p : Place) : Option Head :=
  (headLiteral? p).map fun literal =>
    let name := Text.unquote (f.textOf literal)
    { name, enabled := !isBang name }

def head? (style : Style) (f : File) (p : Place) : Option Head :=
  match style with
  | .string => stringHead? f p
  | _ => keywordHead? style f p

def disables (f : File) (arguments : List Place) : Bool :=
  arguments.any fun a =>
    f.argumentLabel? a == some "enabled"
      && (a.argumentExpression?.map fun e => Text.trim (f.textOf e)) == some "false"

/-- Where the callees of nested calls lead. -/
inductive Stem where
  | head (call : Place)
  | base (callee : Place) (arguments : List Place)

/-- Follows the callees of nested calls down to a head or to an expression that is no call. -/
def stem? (callee : Place) (arguments : List Place) : Option Stem :=
  if callee.kind == "call_expression" then
    match _h : callee.callParts? with
    | none => none
    | some inner =>
      if inner.callee.isIdentifier || inner.callee.kind == "string_literal" then some (.head callee)
      else stem? inner.callee (arguments ++ inner.arguments)
  else some (.base callee arguments)
termination_by callee.node.size
decreasing_by exact Place.size_callee_lt _h

def headOf? (style : Style) (f : File) (node : Place) (parts : CallParts) : Option Head := do
  match ← stem? parts.callee parts.arguments with
  | .head call =>
    -- a call with a body of its own is a test already
    guard (call.callParts?.bind CallParts.lambda).isNone
    head? style f call
  | .base callee arguments =>
    match callee.navigationParts? with
    | some (receiver, selector) =>
      guard (Text.stripBackticks (f.textOf selector) == "config")
      let head ← head? style f receiver
      return { head with enabled := head.enabled && !disables f arguments }
    | none =>
      -- only a call that is not nested has its head in itself
      guard (callee.same parts.callee)
      head? style f node

def testCall? (style : Style) (f : File) (p : Place) : Option TestCall :=
  -- only the outermost call of a construct counts, so that each test is found once
  if p.isCallee then none
  else
    match p.callParts? with
    | none => none
    | some parts =>
      match parts.lambda with
      | none => none
      | some body =>
        (headOf? style f p parts).map fun head =>
          { node := p, body, name := head.name, enabled := head.enabled }

theorem testCall?_eq_some {style : Style} {f : File} {p : Place} {call : TestCall}
    (h : testCall? style f p = some call) :
    ∃ parts head, p.callParts? = some parts ∧ parts.lambda = some call.body ∧
      headOf? style f p parts = some head ∧ call.node = p ∧ call.name = head.name ∧
      call.enabled = head.enabled := by
  unfold testCall? at h
  split at h
  · cases h
  split at h
  · cases h
  split at h
  · cases h
  obtain ⟨head, hh, rfl⟩ := Option.map_eq_some_iff.1 h
  exact ⟨_, head, ‹_›, ‹_›, hh, rfl, rfl, rfl⟩

theorem size_body_lt {style : Style} {f : File} {p : Place} {call : TestCall}
    (h : testCall? style f p = some call) : call.body.node.size < p.node.size := by
  obtain ⟨parts, head, hp, hl, -⟩ := testCall?_eq_some h
  exact Place.size_lambda_lt hp hl

end SpecAtlas.Spec
