import SpecAtlas.Source.Place
import SpecAtlas.Source.Range

/-!
A source text with its syntax tree: the text of a node, its range, and the smallest node at a
position.
-/

namespace SpecAtlas.Source

structure File where
  text : String
  root : Node
deriving Inhabited

namespace File

def rootPlace (f : File) : Place := .ofRoot f.root

def hasErrors (f : File) : Bool := f.root.label.faulty

def slice (f : File) (start stop : Nat) : String :=
  let bytes := f.text.toByteArray
  if start ≤ stop && stop ≤ bytes.size then
    (String.fromUTF8? (bytes.extract start stop)).getD ""
  else ""

def textOf (f : File) (p : Place) : String := f.slice p.start p.stop

def pointAt (f : File) (offset : Nat) : Point := .ofOffset f.text.toByteArray offset

def rangeOf (f : File) (p : Place) : TextRange :=
  .ofPoints (f.pointAt p.start) (f.pointAt p.stop)

/-- Whether a child that ends here can hold the point: it ends later, or it is empty and lies at
the point. -/
def reaches (f : File) (target : Point) (c : Place) : Bool :=
  let last := f.pointAt c.stop
  target.before last || (c.start == c.stop && last == target)

def childAt? (f : File) (target : Point) (p : Place) : Option Place :=
  (p.children.find? (f.reaches target)).filter fun c => !target.before (f.pointAt c.start)

theorem size_lt_of_childAt? {f : File} {target : Point} {p c : Place}
    (h : f.childAt? target p = some c) : c.node.size < p.node.size := by
  obtain ⟨h, _⟩ := Option.filter_eq_some_iff.1 h
  exact Place.size_lt_of_mem_children (List.mem_of_find?_eq_some h)

def descend (f : File) (target : Point) (p : Place) : Place :=
  match _h : f.childAt? target p with
  | some c => f.descend target c
  | none => p
termination_by p.node.size
decreasing_by exact size_lt_of_childAt? _h

/-- The smallest node at a 1-based position; a zero counts as one, and positions outside the text
give the root. -/
def placeAt (f : File) (line column : UInt32) : Place :=
  f.descend ⟨line.toNat - 1, column.toNat - 1⟩ f.rootPlace

end File

end SpecAtlas.Source
