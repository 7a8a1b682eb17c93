import SpecAtlas.Files.Tree
import SpecAtlas.Scan.Run

/-!
A workspace: a tree of files with a current directory, a parser and a clock, and the indexes that
are open in it.
-/

namespace SpecAtlas

open Files

structure SharedIndex where
  name : String × String
  serial : Nat
  contents : Index

structure Workspace where
  tree : FileTree
  here : List String := []
  frontend : Frontend
  now : UInt64
  taken : Nat := 0
  /-- The serials of what is in use, once for each user: databases with a log, and shared
  indexes. -/
  users : List Nat := []
  shared : List SharedIndex := []

namespace Workspace

def files (w : Workspace) : Files := w.tree.files w.here

def env (w : Workspace) : Env where
  frontend := w.frontend
  files := w.files
  now := w.now

theorem textual (w : Workspace) : w.env.files.Textual := fun _ => rfl

def put (w : Workspace) (names : List String) (content : Content) : Workspace :=
  { w with tree := w.tree.put names (.file content w.now.toNat) }

end Workspace

/-- The workspace after a step that may have failed. What the step had changed by then stays. -/
abbrev Attempt (α : Type) := Workspace × Except Failure α

namespace Attempt

def andThen {α β : Type} (a : Attempt α) (next : Workspace → α → Attempt β) : Attempt β :=
  match a with
  | (w, .ok x) => next w x
  | (w, .error e) => (w, .error e)

def map {α β : Type} (f : α → β) (a : Attempt α) : Attempt β := (a.1, a.2.map f)

@[simp]
theorem andThen_ok {α β : Type} (w : Workspace) (x : α) (next : Workspace → α → Attempt β) :
    andThen (w, .ok x) next = next w x := rfl

@[simp]
theorem andThen_error {α β : Type} (w : Workspace) (e : Failure)
    (next : Workspace → α → Attempt β) : andThen (w, .error e) next = (w, .error e) := rfl

theorem map_eq_andThen {α β : Type} (f : α → β) (a : Attempt α) :
    a.map f = a.andThen fun w x => (w, .ok (f x)) := by
  obtain ⟨w, x | x⟩ := a <;> rfl

end Attempt

end SpecAtlas
