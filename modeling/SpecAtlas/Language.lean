import SpecAtlas.Path

/-!
The languages whose sources are read, and how a file or a request names one.
-/

namespace SpecAtlas

inductive Language where
  | kotlin
deriving DecidableEq, Repr

namespace Language

def all : List Language := [.kotlin]

def id : Language → String
  | .kotlin => "kotlin"

def suffixes : Language → List String
  | .kotlin => ["kt", "kts"]

def ofPath? (path : String) : Option Language :=
  let suffix := (Path.suffix? path).getD ""
  all.find? fun l => l.suffixes.any (Text.eqIgnoringCase suffix)

def ofName? (name : String) : Option Language :=
  all.find? fun l => (l.id :: l.suffixes).any (Text.eqIgnoringCase name)

theorem ofName?_id (l : Language) : ofName? l.id = some l := by
  cases l; decide

end Language

def Path.isSource (path : String) : Bool := (Language.ofPath? path).isSome

end SpecAtlas
