import SpecAtlas.Source.Node

/-!
Places in a syntax tree: a node together with the way back to the root. Two places of one tree are
the same exactly when the child indices that lead to them agree, so no node needs an identifier.
-/

namespace SpecAtlas.Source

structure Step where
  parent : Node
  index : Nat
deriving Repr, Inhabited

/-- Nodes at or below the parent that come before the child in preorder. -/
def Step.before (s : Step) : Nat := 1 + Node.sizeAll (s.parent.children.take s.index)

/-- A node and the steps from it up to the root, nearest first. -/
structure Place where
  node : Node
  above : List Step := []
deriving Repr, Inhabited

namespace Place

def ofRoot (root : Node) : Place := { node := root }

def kind (p : Place) : String := p.node.kind

def start (p : Place) : Nat := p.node.start

def stop (p : Place) : Nat := p.node.stop

def named (p : Place) : Bool := p.node.named

def route (p : Place) : List Nat := p.above.map Step.index

def same (p q : Place) : Bool := p.route == q.route

@[simp] theorem same_self (p : Place) : p.same p = true := by simp [same]

def child (p : Place) (i : Nat) (c : Node) : Place :=
  { node := c, above := { parent := p.node, index := i } :: p.above }

def children (p : Place) : List Place := p.node.children.mapIdx p.child

@[simp] theorem length_children (p : Place) : p.children.length = p.node.children.length := by
  simp [children]

theorem mem_children {p c : Place} :
    c ∈ p.children ↔ ∃ i, ∃ h : i < p.node.children.length, c = p.child i p.node.children[i] := by
  simp only [children, List.mem_mapIdx]
  exact ⟨fun ⟨i, h, e⟩ => ⟨i, h, e.symm⟩, fun ⟨i, h, e⟩ => ⟨i, h, e.symm⟩⟩

def namedChildren (p : Place) : List Place := p.children.filter named

theorem size_lt_of_mem_children {p c : Place} (h : c ∈ p.children) :
    c.node.size < p.node.size := by
  obtain ⟨i, hi, rfl⟩ := mem_children.1 h
  exact Node.size_lt_of_mem (List.getElem_mem hi)

theorem size_lt_of_mem_namedChildren {p c : Place} (h : c ∈ p.namedChildren) :
    c.node.size < p.node.size :=
  size_lt_of_mem_children (List.mem_filter.1 h).1

def parent? (p : Place) : Option Place :=
  match p.above with
  | [] => none
  | s :: rest => some { node := s.parent, above := rest }

@[simp] theorem parent?_child (p : Place) (i : Nat) (c : Node) :
    (p.child i c).parent? = some p := rfl

def ofSteps : List Step → List Place
  | [] => []
  | s :: rest => { node := s.parent, above := rest } :: ofSteps rest

def ancestors (p : Place) : List Place := ofSteps p.above

@[simp] theorem ancestors_child (p : Place) (i : Nat) (c : Node) :
    (p.child i c).ancestors = p :: p.ancestors := rfl

def lineage (p : Place) : List Place := p :: p.ancestors

def covers (p q : Place) : Bool := p.start ≤ q.start && q.stop ≤ p.stop

def number (p : Place) : Nat := p.above.foldr (fun s n => s.before + n) 0

@[simp] theorem number_ofRoot (n : Node) : (ofRoot n).number = 0 := rfl

theorem number_child (p : Place) (i : Nat) (c : Node) :
    (p.child i c).number = p.number + 1 + Node.sizeAll (p.node.children.take i) := by
  simp only [number, child, List.foldr_cons, Step.before]
  omega

def preorder (p : Place) : List Place :=
  p :: p.children.attach.flatMap fun ⟨c, _⟩ => c.preorder
termination_by p.node.size
decreasing_by exact size_lt_of_mem_children ‹_›

theorem preorder_eq (p : Place) : p.preorder = p :: p.children.flatMap preorder := by
  rw [preorder]
  simp [List.flatMap_subtype]

/-- Named descendants of a place with the containers whose kind satisfies `wrapper` opened up:
each of them stands for its own named children. -/
def spread (wrapper : String → Bool) (p : Place) : List Place :=
  p.namedChildren.attach.flatMap fun ⟨c, _⟩ =>
    if wrapper c.kind then c.spread wrapper else [c]
termination_by p.node.size
decreasing_by exact size_lt_of_mem_namedChildren ‹_›

theorem spread_eq (wrapper : String → Bool) (p : Place) :
    p.spread wrapper =
      p.namedChildren.flatMap fun c => if wrapper c.kind then c.spread wrapper else [c] := by
  rw [spread]
  simp [List.flatMap_subtype]

theorem size_lt_of_mem_spread {wrapper : String → Bool} {p q : Place}
    (h : q ∈ p.spread wrapper) : q.node.size < p.node.size := by
  fun_induction spread wrapper p with
  | case1 p ih =>
    simp only [List.mem_flatMap, List.mem_attach, true_and, Subtype.exists] at h
    obtain ⟨c, hc, hq⟩ := h
    have hlt := size_lt_of_mem_namedChildren hc
    split at hq
    · exact Nat.lt_trans (ih c hc hq) hlt
    · exact List.mem_singleton.1 hq ▸ hlt

def firstOfKind? (p : Place) (kind : String) : Option Place :=
  p.namedChildren.find? (·.kind == kind)

end Place

end SpecAtlas.Source
