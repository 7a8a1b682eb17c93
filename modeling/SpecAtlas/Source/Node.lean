/-!
Syntax trees as a parser hands them over: every node carries a kind, the half-open byte range it
covers, and its children in source order.
-/

namespace SpecAtlas.Source

structure Label where
  kind : String
  start : Nat
  stop : Nat
  named : Bool := true
  /-- The first child of its parent that fills the field called `name`. -/
  nameField : Bool := false
  faulty : Bool := false
deriving DecidableEq, Repr, Inhabited

inductive Node where
  | mk (label : Label) (children : List Node)
deriving Repr, Inhabited

namespace Node

def label : Node → Label
  | mk l _ => l

def children : Node → List Node
  | mk _ cs => cs

@[simp] theorem label_mk (l : Label) (cs : List Node) : (mk l cs).label = l := rfl

@[simp] theorem children_mk (l : Label) (cs : List Node) : (mk l cs).children = cs := rfl

def kind (n : Node) : String := n.label.kind

def start (n : Node) : Nat := n.label.start

def stop (n : Node) : Nat := n.label.stop

def named (n : Node) : Bool := n.label.named

mutual

def size : Node → Nat
  | mk _ cs => 1 + sizeAll cs

def sizeAll : List Node → Nat
  | [] => 0
  | c :: cs => c.size + sizeAll cs

end

theorem size_eq (n : Node) : n.size = 1 + sizeAll n.children := by
  cases n; rw [size, children_mk]

theorem size_pos (n : Node) : 0 < n.size := by
  rw [size_eq]; omega

theorem size_le_sizeAll {c : Node} {cs : List Node} (h : c ∈ cs) : c.size ≤ sizeAll cs := by
  induction cs with
  | nil => cases h
  | cons d ds ih =>
    rw [sizeAll]
    rcases List.mem_cons.1 h with rfl | h
    · omega
    · exact Nat.le_trans (ih h) (Nat.le_add_left ..)

theorem size_lt_of_mem {c n : Node} (h : c ∈ n.children) : c.size < n.size := by
  have := size_le_sizeAll h
  rw [size_eq n]; omega

end Node

end SpecAtlas.Source
