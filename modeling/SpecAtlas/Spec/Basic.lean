import SpecAtlas.Source.Declaration
import SpecAtlas.Style

/-!
Specs: the classes and objects whose superclass constructor names the base class of a style.
Classification reads the written name only; no imports are resolved.
-/

namespace SpecAtlas

open Source

structure Spec where
  node : Place
  name : String
  package : Option String
  style : Style

namespace Spec

def qualifiedName (s : Spec) : String :=
  match s.package with
  | some package => package ++ "." ++ s.name
  | none => s.name

def classify? (f : File) (cls : Place) : Option Style := do
  guard cls.isClass
  let written ← (← cls.supertypeCall?).constructorType?
  Style.ofBaseName? (Text.simpleTypeName (f.textOf written))

def ofClass? (f : File) (cls : Place) : Option Spec :=
  (classify? f cls).map fun style =>
    { node := cls
      name := (cls.className?.map fun n => Text.stripBackticks (f.textOf n)).getD ""
      package := f.package?
      style }

def inSpec (f : File) (p : Place) : Bool :=
  (p.enclosingClass?.bind (classify? f)).isSome

def around? (f : File) (p : Place) : Option Spec :=
  p.enclosingClass?.bind (ofClass? f)

def topLevel (f : File) : List Spec :=
  (f.rootPlace.namedChildren.filter Place.isClass).filterMap (ofClass? f)

end Spec

end SpecAtlas
