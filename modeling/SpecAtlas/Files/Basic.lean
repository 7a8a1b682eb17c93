import SpecAtlas.Failure

/-!
What a scan asks of a file system.
-/

namespace SpecAtlas

structure Stamp where
  /-- Seconds since 1970, zero for earlier times. -/
  mtime : Int64
  size : UInt64
deriving DecidableEq, Repr, Inhabited

inductive EntryKind where
  | file
  | directory
deriving DecidableEq, Repr

structure Files where
  kind? : String → Option EntryKind
  /-- The absolute path without links and dots, if the path leads anywhere. -/
  canonical? : String → Option String
  stamp : String → Except FileError Stamp
  read : String → Except FileError String
  walk : List String → List String
  /-- The text that is kept of a path. A path whose bytes are no text loses some of them, so that
  other paths can have the same text. -/
  textOf : String → String := id

namespace Files

def isText (fs : Files) (path : String) : Bool := fs.textOf path == path

def Textual (fs : Files) : Prop := ∀ path, fs.textOf path = path

theorem Textual.isText {fs : Files} (h : fs.Textual) (path : String) : fs.isText path = true := by
  rw [Files.isText, h path, BEq.rfl]

def has (fs : Files) (path : String) : Bool := (fs.kind? path).isSome

def hasFile (fs : Files) (path : String) : Bool := fs.kind? path == some .file

def stampOf (fs : Files) (path : String) : Except Failure Stamp :=
  (fs.stamp path).mapError (.unstatable path)

end Files

end SpecAtlas
