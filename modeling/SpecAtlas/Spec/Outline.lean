import SpecAtlas.Spec.Lifecycle
import SpecAtlas.Spec.Test

/-!
The outline of a spec: its tests, callbacks and includes. The tests of the constructor lambda and of
all `init` blocks form one list.
-/

namespace SpecAtlas

open Source

structure Hiding where
  callbacks : Bool := false
  includes : Bool := false
deriving DecidableEq, Repr

structure Outline where
  spec : Spec
  tests : List Test
  callbacks : List Callback
  includes : List Include

namespace Outline

def testsOf (f : File) (spec : Spec) : List Test :=
  spec.node.containers.flatMap (Test.inBlock spec.style f)

def ofSpec (f : File) (hide : Hiding) (spec : Spec) : Outline where
  spec
  tests := testsOf f spec
  callbacks := if hide.callbacks then [] else Callback.ofClass f spec.node
  includes := if hide.includes then [] else Include.ofClass f spec.node

def ofFile (f : File) (hide : Hiding) : List Outline :=
  (Spec.topLevel f).map (ofSpec f hide)

end Outline

end SpecAtlas
