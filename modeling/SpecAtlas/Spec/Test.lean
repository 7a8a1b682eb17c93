import SpecAtlas.Spec.Basic
import SpecAtlas.Spec.TestCall

/-!
Tests and the trees they form. The tree is built from the top: the tests of a block are the
statements that introduce one, each with the tests of its body. The display path of a test is read
from below: the names of the tests whose bodies enclose it, and its own.
-/

namespace SpecAtlas

open Source

structure Test where
  name : String
  path : String
  enabled : Bool
  node : Place
  children : List Test

namespace Test

mutual

def count : Test → Nat
  | ⟨_, _, _, _, children⟩ => 1 + countAll children

def countAll : List Test → Nat
  | [] => 0
  | t :: ts => t.count + countAll ts

end

/-- Names of the tests whose bodies enclose `p`, outermost first; the nearest class bounds the
search. -/
def enclosingNames (style : Style) (f : File) (p : Place) : List String :=
  let above := p.ancestors.takeWhile (!·.isClass)
  (above.filterMap fun a => do
    let call ← Spec.testCall? style f a
    guard (call.body.covers p)
    return call.name).reverse

def pathOf (style : Style) (f : File) (p : Place) (name : String) : String :=
  " ".intercalate (enclosingNames style f p ++ [name])

def inBlock (style : Style) (f : File) (block : Place) : List Test :=
  block.statements.attach.filterMap fun ⟨s, _⟩ =>
    match _h : Spec.testCall? style f s with
    | none => none
    | some call =>
      some
        { name := call.name
          -- the path is read from below, not from the names met on the way down
          path := pathOf style f call.node call.name
          enabled := call.enabled
          node := call.node
          children := inBlock style f call.body }
termination_by block.node.size
decreasing_by
  exact Nat.lt_trans (Spec.size_body_lt _h) (Place.size_lt_of_mem_statements ‹_›)

def ofCall (style : Style) (f : File) (call : Spec.TestCall) : Test where
  name := call.name
  path := pathOf style f call.node call.name
  enabled := call.enabled
  node := call.node
  children := inBlock style f call.body

theorem inBlock_eq (style : Style) (f : File) (block : Place) :
    inBlock style f block =
      block.statements.filterMap fun s => (Spec.testCall? style f s).map (ofCall style f) := by
  rw [inBlock]
  conv => rhs; rw [← List.attach_map_subtype_val block.statements, List.filterMap_map]
  congr 1
  funext ⟨s, hs⟩
  simp only [Function.comp]
  split <;> rename_i h <;> simp [h, ofCall]

def around? (f : File) (p : Place) : Option Test := do
  let style ← Spec.classify? f (← p.enclosingClass?)
  let call ← (p.lineage.takeWhile (!·.isClass)).findSome? (Spec.testCall? style f)
  return ofCall style f call

def isForeign (kind : String) : Bool :=
  kind == "import" || kind == "import_header" || kind == "import_list" || kind == "package_header"
    || kind == "annotation" || kind == "modifiers" || kind == "line_comment"
    || kind == "block_comment" || kind == "multiline_comment" || kind == "comment"

def inForeignContext (leaf : Place) : Bool :=
  match leaf.lineage.find? fun p => isForeign p.kind || p.isClass with
  | some p => isForeign p.kind
  | none => false

/-- The call that a leaf could introduce: the outermost call that invokes the leaf or the string
literal around it or, for a separator, the navigation it belongs to. -/
def candidateOf? (leaf : Place) : Option Place :=
  if leaf.isSeparator then leaf.navigationOfSeparator?.bind Place.outermostCall?
  else if leaf.kind == "string_literal" then leaf.outermostCall?
  else if leaf.kind == "\"" || leaf.kind == "\"\"\"" || leaf.kind == "string_content" then
    (leaf.parent?.filter (·.kind == "string_literal")).bind Place.outermostCall?
  else if leaf.isIdentifier then leaf.outermostCall?
  else none

/-- The test introduced at a leaf, as a marker beside its line sees it: at the keyword or the string
literal of a plain test, or at the separator of a configured one. -/
def atLeaf? (f : File) (leaf : Place) : Option Test := do
  let candidate ← candidateOf? leaf
  guard (!inForeignContext leaf)
  let style ← Spec.classify? f (← candidate.enclosingClass?)
  let call ← Spec.testCall? style f candidate
  return ofCall style f call

end Test

end SpecAtlas
