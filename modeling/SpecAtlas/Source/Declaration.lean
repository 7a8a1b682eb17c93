import SpecAtlas.Source.Call

/-!
Class and object declarations: their names, bodies, initializer blocks and superclass calls, and the
package that a file declares.
-/

namespace SpecAtlas.Source

namespace Place

def isClass (p : Place) : Bool :=
  p.kind == "class_declaration" || p.kind == "object_declaration"

def className? (cls : Place) : Option Place :=
  (cls.children.find? (·.node.label.nameField)).or (cls.namedChildren.find? isIdentifier)

def classBody? (cls : Place) : Option Place := cls.firstOfKind? "class_body"

def initializerBlocks (body : Place) : List Place :=
  body.namedChildren.filter (·.kind == "anonymous_initializer")

def isDelegation (kind : String) : Bool :=
  kind == "delegation_specifiers" || kind == "delegation_specifier"

/-- The superclass constructor call in the supertype list; plain interface references are passed
over. -/
def supertypeCall? (cls : Place) : Option Place :=
  ((cls.namedChildren.filter (isDelegation ·.kind)).flatMap (spread isDelegation)).find?
    (·.kind == "constructor_invocation")

def constructorType? (invocation : Place) : Option Place :=
  invocation.namedChildren.find? fun c =>
    !(c.kind == "value_arguments" || c.kind == "annotated_lambda" || c.kind == "call_suffix")

/-- The lambda that a constructor call passes: the first argument of its argument list, or a lambda
attached to the call, whichever comes first. -/
def constructorLambda? (invocation : Place) : Option Place := do
  let part ← invocation.namedChildren.find? fun c =>
    c.kind == "value_arguments" || c.kind == "annotated_lambda" || c.kind == "lambda_literal"
  if part.kind == "value_arguments" then
    (← (← part.firstOfKind? "value_argument").argumentExpression?).lambdaLiteral?
  else part.lambdaLiteral?

def enclosingClass? (p : Place) : Option Place := p.lineage.find? isClass

def containers (cls : Place) : List Place :=
  (cls.supertypeCall?.bind constructorLambda?).toList ++
    (cls.classBody?.map initializerBlocks).getD []

end Place

def File.package? (f : File) : Option String := do
  let header ← f.rootPlace.firstOfKind? "package_header"
  let text := Text.trim (f.textOf header)
  let name := (Text.stripLead? "package" text).getD text
  let name := Text.trim (Text.trimEndOf ';' (Text.trim name))
  guard (name != "")
  return name

end SpecAtlas.Source
