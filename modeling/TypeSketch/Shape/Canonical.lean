import TypeSketch.Shape.Digest

/-!
# Sets of Shapes

The list that stands for a set of shapes: each shape once, in ascending order of
their keys. A key is the digest of the shape and, behind it, a code that tells all
shapes apart, so the order is total and does not depend on digests being different.

In a set of parts the scalar `float` takes in the scalar `int`, as it does in a
union of types.

## Main definitions

* `Shape.code`: A list of numbers that determines the shape.
* `Shape.canonical`: The list that stands for a set of shapes.
* `Shape.absorbIntegers`: The shapes without `int`, if `float` is among them.

## Theorems

* `Shape.mem_canonical`, `Shape.mem_absorbIntegers`: What the two keep.
-/

namespace TypeSketch

namespace Shape

/-- A text as numbers, with its length. -/
def textCode (s : String) : List Nat :=
  s.length :: s.toList.map Char.toNat

/-- A form as numbers. -/
def formCode : Form → List Nat
  | .scalar rendered => 0 :: textCode rendered
  | .record fields =>
    1 :: fields.length :: fields.flatMap fun (name, required) =>
      textCode name ++ [if required then 1 else 0]
  | .mapping keyTypes => 2 :: keyTypes.length :: keyTypes.flatMap textCode
  | .list => [3]
  | .set frozen => [4, if frozen then 1 else 0]
  | .iterator => [5]
  | .tuple => [6]

mutual

/-- A shape as numbers. -/
def code : Shape → List Nat
  | node form parts => formCode form ++ parts.length :: partsCode parts

def partsCode : List Shape → List Nat
  | [] => []
  | part :: rest => code part ++ partsCode rest

end

/-- What shapes are ordered by. -/
def key (shape : Shape) : List Nat :=
  shape.digest.toNat :: shape.code

/-- Whether a list of numbers comes before another, as words do in a dictionary, or is
    the same. -/
def isAtMost : List Nat → List Nat → Bool
  | [], _ => true
  | _ :: _, [] => false
  | a :: as, b :: bs => a < b || (a = b && isAtMost as bs)

/-- The list that stands for the set of the shapes of a list. -/
def canonical (shapes : List Shape) : List Shape :=
  let keyed := (distinct shapes).map fun shape => (shape.key, shape)
  (sortBy (fun a b => isAtMost a.1 b.1) keyed).map (·.2)

theorem mem_canonical {shapes : List Shape} {shape : Shape} :
    shape ∈ canonical shapes ↔ shape ∈ shapes := by
  simp only [canonical, List.mem_map, mem_sortBy, mem_distinct]
  constructor
  · rintro ⟨_, ⟨other, hmem, rfl⟩, rfl⟩
    exact hmem
  · exact fun h => ⟨_, ⟨shape, h, rfl⟩, rfl⟩

/-- The shapes without the scalar `int`, if the scalar `float` is among them. -/
def absorbIntegers (shapes : List Shape) : List Shape :=
  if shapes.any (isScalarNamed "float") then shapes.filter (!isScalarNamed "int" ·) else shapes

theorem mem_absorbIntegers {shapes : List Shape} {shape : Shape} :
    shape ∈ absorbIntegers shapes ↔
      shape ∈ shapes ∧
        ((∃ other ∈ shapes, isScalarNamed "float" other = true) →
          isScalarNamed "int" shape = false) := by
  rw [absorbIntegers, ← List.any_eq_true]
  split
  · next h => simp only [List.mem_filter, Bool.not_eq_true', h, forall_const]
  · next h => simp only [h, Bool.false_eq_true, false_implies, and_true]

end Shape

end TypeSketch
