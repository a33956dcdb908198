import TypeSketch.Render.Module
import TypeSketch.Tree.Inference

/-!
# Stubs

A module that is ready to be written down: the name of its class, its text and the
digest of the shape of its class.

## Main definitions

* `Stub`: Stubs.
* `Stub.ofValue`: The stub inferred from an example value.
-/

namespace TypeSketch

/-- A module that is ready to be written down. -/
structure Stub where
  className : String
  source : String
  digest : UInt64
deriving Repr, DecidableEq

/-- The stub of the class with this name that is inferred from a value. -/
def Stub.ofValue (s : Strategies) (className : String) (v : Value) :
    Except InferenceError Stub := do
  let tree ← Inference.infer { strategies := s } className v
  let source ← tree.module s
  return ⟨className, source, tree.digest⟩

end TypeSketch
