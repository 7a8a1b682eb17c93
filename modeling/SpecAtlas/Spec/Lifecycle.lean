import SpecAtlas.Source.Declaration

/-!
Callbacks and includes that a spec registers. Both are read from the direct statements of a single
block: the first `init` block of the class or, without one, the lambda of the superclass
constructor.
-/

namespace SpecAtlas

open Source

inductive CallbackKind where
  | beforeTest
  | afterTest
  | beforeSpec
  | afterSpec
deriving DecidableEq, Repr, Inhabited

namespace CallbackKind

def all : List CallbackKind := [.beforeTest, .afterTest, .beforeSpec, .afterSpec]

def keyword : CallbackKind → String
  | .beforeTest => "beforeTest"
  | .afterTest => "afterTest"
  | .beforeSpec => "beforeSpec"
  | .afterSpec => "afterSpec"

def label : CallbackKind → String
  | .beforeTest => "Before Test"
  | .afterTest => "After Test"
  | .beforeSpec => "Before Spec"
  | .afterSpec => "After Spec"

def ofKeyword? (keyword : String) : Option CallbackKind :=
  all.find? (·.keyword == keyword)

@[simp] theorem ofKeyword?_keyword (k : CallbackKind) : ofKeyword? k.keyword = some k := by
  cases k <;> decide

end CallbackKind

inductive IncludeKind where
  | value
  | function
deriving DecidableEq, Repr, Inhabited

namespace IncludeKind

def name : IncludeKind → String
  | .value => "value"
  | .function => "function"

def ofName? (name : String) : Option IncludeKind :=
  [IncludeKind.value, .function].find? (·.name == name)

@[simp] theorem ofName?_name (k : IncludeKind) : ofName? k.name = some k := by
  cases k <;> decide

end IncludeKind

structure Callback where
  kind : CallbackKind
  node : Place

structure Include where
  name : String
  kind : IncludeKind
  node : Place

def lifecycleBlock? (cls : Place) : Option Place :=
  if cls.isClass then
    (cls.classBody?.bind fun body => body.initializerBlocks.head?).or
      (cls.supertypeCall?.bind Place.constructorLambda?)
  else none

def lifecycleCalls (cls : Place) : List Place :=
  ((lifecycleBlock? cls).map Place.statements |>.getD []).filter (·.kind == "call_expression")

def Callback.ofCall? (f : File) (p : Place) : Option Callback := do
  let parts ← p.callParts?
  guard (parts.callee.isIdentifier && parts.lambda.isSome && parts.arguments.isEmpty)
  let kind ← CallbackKind.ofKeyword? (Text.stripBackticks (f.textOf parts.callee))
  return { kind, node := p }

def Callback.ofClass (f : File) (cls : Place) : List Callback :=
  (lifecycleCalls cls).filterMap (ofCall? f)

def Include.source? (f : File) (e : Place) : Option (String × IncludeKind) :=
  if e.kind == "call_expression" then
    e.callParts?.map fun parts => (f.textOf parts.callee, .function)
  else if e.isIdentifier then some (f.textOf e, .value)
  else none

def Include.ofCall? (f : File) (p : Place) : Option Include := do
  let parts ← p.callParts?
  guard (parts.callee.isIdentifier && f.textOf parts.callee == "include")
  let [argument] := parts.arguments | none
  let (name, kind) ← source? f (← argument.argumentExpression?)
  return { name := Text.stripBackticks name, kind, node := p }

def Include.ofClass (f : File) (cls : Place) : List Include :=
  (lifecycleCalls cls).filterMap (ofCall? f)

end SpecAtlas
