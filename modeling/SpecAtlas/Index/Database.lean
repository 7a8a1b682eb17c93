import SpecAtlas.Index.Basic

/-!
The file of an index. Changes of a database are first written beside its file: either the new state
goes to a log, which is folded in when the last user leaves, or the old state goes to a journal,
which is deleted when the change is complete.
-/

namespace SpecAtlas

structure Database where
  serial : Nat
  logged : Bool := false
  index : Option Index := none
deriving DecidableEq, Repr

inductive Companion where
  | log
  | digest
  | journal
deriving DecidableEq, Repr

namespace Companion

def ending : Companion → String
  | log => "-wal"
  | digest => "-shm"
  | journal => "-journal"

def beside (c : Companion) (names : List String) : List String :=
  names.dropLast ++ [names.getLast?.getD "" ++ c.ending]

end Companion

end SpecAtlas
