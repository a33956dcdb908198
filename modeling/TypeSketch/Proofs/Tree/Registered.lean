import TypeSketch.Proofs.Tree.Parts

/-!
# Registered Scalars

A scalar type in an inferred tree is the one that the kind of its example is registered
as. Merging and renaming move the scalar nodes of a tree around and give them other names,
but they make up none.

## Main definitions

* `TypeTree.HasRegistered`: Trees with registered scalar types only.

## Theorems

* `Inference.hasRegistered_of_infer`: Inferred trees have registered scalar types only.
-/

namespace TypeSketch

namespace TypeTree

/-- The scalar types in the tree are those that their examples are registered as. -/
def HasRegistered (r : Registry) (t : TypeTree) : Prop :=
  ∀ name v type, scalar name v type ∈ t.nodes → r.get? v.kind = some (.scalar type)

/-- A renamed node is a scalar only if it has been one. -/
theorem isNodewise_registered (r : Registry) : IsNodewise fun u =>
    ∀ name v type, u = scalar name v type → r.get? v.kind = some (.scalar type) where
  rename t newName h name v type heq := by
    cases t with
    | scalar oldName v' type' =>
      cases heq
      exact h oldName v type rfl
    | mapping _ _ _ _ _ _ => contradiction
    | sequence _ _ _ _ _ _ => contradiction
  merge _ _ _ m hm _ _ name v type heq := by
    rw [heq] at hm
    cases hm

end TypeTree

namespace Inference

open TypeTree

/-- The scalar types in an inferred tree are registered for their examples. -/
theorem hasRegistered_of_infer {run : Inference} {name : String} {v : Value} {t : TypeTree}
    (h : run.infer name v = .ok t) : HasRegistered run.registry t := by
  intro name' v' type hmem
  refine forall_nodes_of_node (isNodewise_registered run.registry) ?_ (infer_eq_ok_iff.mp h).2 _ hmem
    name' v' type rfl
  rintro _ part _ _ hnode n w type rfl
  cases hnode with
  | scalar registered => exact registered

end Inference

end TypeSketch
