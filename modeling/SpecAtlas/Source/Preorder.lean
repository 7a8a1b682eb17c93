import SpecAtlas.Source.Node

/-!
Syntax trees written as a flat list: every node in preorder, with the number of its children.
-/

namespace SpecAtlas.Source.Node

/-- Puts a node on top of the trees that follow it: the first of them are its children. -/
def gather (entry : Label × Nat) (trees : List Node) : List Node :=
  mk entry.1 (trees.take entry.2) :: trees.drop entry.2

def ofPreorder (entries : List (Label × Nat)) : List Node := entries.foldr gather []

mutual

def toPreorder : Node → List (Label × Nat)
  | mk label children => (label, children.length) :: toPreorderAll children

def toPreorderAll : List Node → List (Label × Nat)
  | [] => []
  | n :: ns => n.toPreorder ++ toPreorderAll ns

end

mutual

theorem foldr_gather_toPreorder (trees : List Node) :
    (n : Node) → n.toPreorder.foldr gather trees = n :: trees
  | mk label children => by
    rw [toPreorder, List.foldr_cons, foldr_gather_toPreorderAll trees children]
    simp [gather]

theorem foldr_gather_toPreorderAll (trees : List Node) :
    (ns : List Node) → (toPreorderAll ns).foldr gather trees = ns ++ trees
  | [] => rfl
  | n :: ns => by
    rw [toPreorderAll, List.foldr_append, foldr_gather_toPreorderAll trees ns,
      foldr_gather_toPreorder (ns ++ trees) n, List.cons_append]

end

@[simp] theorem ofPreorder_toPreorder (n : Node) : ofPreorder n.toPreorder = [n] :=
  foldr_gather_toPreorder [] n

end SpecAtlas.Source.Node
