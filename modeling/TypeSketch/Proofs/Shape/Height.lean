import TypeSketch.Shape.Canonical
import TypeSketch.Strategies.Basic

/-!
# Heights of Shapes

The height of a shape, and whether a node of that shape gets a declaration. Both are
kept in the nodes of a tree or computed from what is kept there; that they are
functions of the shape is what makes nodes of one shape interchangeable.

Integers that are absorbed do not count: where one is, a scalar of the same height
remains.

## Main definitions

* `Shape.height`: The number of containers on the longest way down.
* `Shape.isAliased`: Whether a node of the shape gets a declaration.

## Theorems

* `Shape.maxHeight_le_iff`: The greatest height in a list.
* `Shape.maxHeight_eq_of_mem_iff`: It depends on what is in the list alone.
* `Shape.maxHeight_absorbIntegers`: Absorbed integers do not count.
-/

namespace TypeSketch

namespace Shape

mutual

/-- The number of containers on the longest way down. -/
def height : Shape → Nat
  | node (.scalar _) _ => 0
  | node _ parts => 1 + maxHeight parts

def maxHeight : List Shape → Nat
  | [] => 0
  | part :: rest => max (height part) (maxHeight rest)

end

/-- Whether a node of the shape gets a declaration of its own. -/
def isAliased (s : Strategies) (shape : Shape) : Bool :=
  match shape.form with
  | .scalar _ => false
  | .record _ => true
  | _ => s.aliasHeight ≤ shape.height

theorem height_node {form : Form} {parts : List Shape} (h : ∀ rendered, form ≠ .scalar rendered) :
    (node form parts).height = 1 + maxHeight parts := by
  cases form with
  | scalar rendered => exact absurd rfl (h rendered)
  | _ => rw [height]; exact h

theorem maxHeight_le_iff {shapes : List Shape} {n : Nat} :
    maxHeight shapes ≤ n ↔ ∀ shape ∈ shapes, shape.height ≤ n := by
  induction shapes with
  | nil => simp only [maxHeight, Nat.zero_le, List.not_mem_nil, false_implies, implies_true]
  | cons first rest ih => rw [maxHeight, Nat.max_le, ih, List.forall_mem_cons]

theorem maxHeight_eq_of_mem_iff {shapes others : List Shape}
    (h : ∀ shape, shape ∈ shapes ↔ shape ∈ others) : maxHeight shapes = maxHeight others := by
  refine Nat.le_antisymm ?_ ?_
  · exact maxHeight_le_iff.mpr fun shape hs => maxHeight_le_iff.mp (Nat.le_refl _) shape ((h shape).mp hs)
  · exact maxHeight_le_iff.mpr fun shape hs => maxHeight_le_iff.mp (Nat.le_refl _) shape ((h shape).mpr hs)

theorem height_eq_zero_of_isScalarNamed {name : String} {shape : Shape}
    (h : isScalarNamed name shape = true) : shape.height = 0 := by
  rcases shape with ⟨form, parts⟩
  rw [isScalarNamed, decide_eq_true_eq] at h
  change form = .scalar name at h
  rw [h, height]

theorem maxHeight_absorbIntegers (shapes : List Shape) :
    maxHeight (absorbIntegers shapes) = maxHeight shapes := by
  refine Nat.le_antisymm ?_ ?_
  · refine maxHeight_le_iff.mpr fun shape hs => ?_
    exact maxHeight_le_iff.mp (Nat.le_refl _) shape (mem_absorbIntegers.mp hs).1
  · refine maxHeight_le_iff.mpr fun shape hs => ?_
    by_cases hint : isScalarNamed "int" shape = true
    · rw [height_eq_zero_of_isScalarNamed hint]
      exact Nat.zero_le _
    · rw [Bool.not_eq_true] at hint
      exact maxHeight_le_iff.mp (Nat.le_refl _) shape (mem_absorbIntegers.mpr ⟨hs, fun _ => hint⟩)

theorem maxHeight_canonical (shapes : List Shape) : maxHeight (canonical shapes) = maxHeight shapes :=
  maxHeight_eq_of_mem_iff fun _ => mem_canonical

end Shape

end TypeSketch
