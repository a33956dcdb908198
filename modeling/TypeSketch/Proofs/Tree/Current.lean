import Mathlib.Data.List.Dedup
import TypeSketch.Proofs.Acceptance.Exchange
import TypeSketch.Proofs.Render.Permuted
import TypeSketch.Proofs.Shape.Canonical
import TypeSketch.Proofs.Tree.Collisions

/-!
# Nothing Kept Is Out of Date

The height and the shape that a node keeps, and the digest of that shape, compared with what its
kind and its children give. The children may have been merged with others and renamed since the
node was made. A coherent node keeps the shape by definition, so what is left are the height and
the digest.

A merge keeps the greater height of two records, and it takes a field that both have from one of
them. If digests do not collide, the field has one shape in both, and the height of that shape.

The digest is that of a stream, in which the children are by their own digests. Where their number
and order do not matter, a node holds the list that stands for the set of their shapes, and in
the stream there are the digests in ascending order, each once. Both are the same if the digests
of the children do not collide: keys of shapes start with digests, so the shapes come in the order
of their digests.

## Main definitions

* `TypeTree.currentHeight`, `TypeTree.currentShape`: What kind and children give.
* `TypeTree.currentStream`: What is fed to the hasher for kind and children.

## Theorems

* `Shape.map_digest_canonical`: The digests of a set of shapes.
* `TypeTree.Coherent.digest_eq`: The digest of a coherent node.
* `Inference.current_of_infer`: All nodes of an inferred tree.
-/

namespace TypeSketch

namespace Shape

variable {shapes : List Shape}

/-- Words in ascending order, each once. -/
def ascendingWords (words : List UInt64) : List UInt64 :=
  words.dedup.mergeSort fun a b => a ≤ b

theorem mem_ascendingWords {words : List UInt64} {word : UInt64} :
    word ∈ ascendingWords words ↔ word ∈ words := by
  rw [ascendingWords, List.mem_mergeSort, List.mem_dedup]

theorem digest_le_of_isAtMost {a b : Shape} (h : isAtMost a.key b.key = true) :
    a.digest ≤ b.digest := by
  rw [UInt64.le_iff_toNat_le]
  rcases isAtMost_cons.mp h with hlt | ⟨heq, _⟩
  · exact Nat.le_of_lt hlt
  · exact Nat.le_of_eq heq

/-- The digests of the list that stands for a set of shapes. -/
theorem map_digest_canonical (h : CollisionFree shapes) :
    (canonical shapes).map digest = ascendingWords (shapes.map digest) := by
  have hnodup : ((canonical shapes).map digest).Nodup := by
    refine List.Nodup.map_on (fun a ha b hb => ?_)
      ((perm_canonical shapes).nodup_iff.mpr (nodup_distinct shapes))
    exact h a (mem_canonical.mp ha) b (mem_canonical.mp hb)
  have hperm : ((canonical shapes).map digest).Perm (ascendingWords (shapes.map digest)) := by
    refine (List.perm_ext_iff_of_nodup hnodup ?_).mpr fun word => ?_
    · exact (List.mergeSort_perm _ _).nodup_iff.mpr (List.nodup_dedup _)
    · rw [mem_ascendingWords, List.mem_map, List.mem_map]
      exact exists_congr fun a => and_congr_left fun _ => mem_canonical
  have hsorted : (ascendingWords (shapes.map digest)).Pairwise (· ≤ ·) := by
    have hpairwise := @List.pairwise_mergeSort _ (fun a b : UInt64 => decide (a ≤ b))
      (fun a b c hab hbc =>
        decide_eq_true (UInt64.le_trans (of_decide_eq_true hab) (of_decide_eq_true hbc)))
      (fun a b => by simpa using UInt64.le_total a b) (shapes.map digest).dedup
    exact hpairwise.imp of_decide_eq_true
  -- Both lists are in ascending order, so they are the same permutation.
  exact hperm.eq_of_pairwise (fun a b _ _ => UInt64.le_antisymm)
    (List.pairwise_map.mpr ((ascending_canonical shapes).imp digest_le_of_isAtMost)) hsorted

end Shape

namespace TypeTree

open Shape (ascendingWords)

/-- The height of a node by its children. -/
def currentHeight : TypeTree → Nat
  | scalar .. => 0
  | t => 1 + (t.children.map height).max?.getD 0

/-- The shape of a node by its kind and its children. -/
def currentShape : TypeTree → Shape
  | scalar _ _ type => .scalar type.rendered
  | mapping _ _ form _ _ fields => shapeOfFields form fields
  | sequence _ _ kind _ _ elements => shapeOfElements kind elements

/-- The digests of children whose number and order do not matter. If `float` is among the children,
    then `int` does not count. -/
def unorderedDigests (children : List TypeTree) : List UInt64 :=
  let hasFloat := children.any (isScalarNamed "float")
  ascendingWords ((children.filter fun c => !(hasFloat && c.isScalarNamed "int")).map digest)

/-- The fields in ascending order of their names: the name, whether the field is required, and the
    digest of its type. -/
def sortedDigests (profile : RecordProfile) (fields : List (Value × TypeTree)) :
    List ((String × Bool) × UInt64) :=
  let described := fields.map fun (key, child) =>
    ((key.keyText, !profile.optionalFields.contains key.keyText), child.digest)
  Shape.sortBy (fun a b => a.1.1 ≤ b.1.1) described

/-- What is fed to the hasher for a node, by its kind and its children. -/
def currentStream : TypeTree → List UInt8
  | scalar _ _ type => Shape.stream (.scalar type.rendered) []
  | mapping _ _ (.record profile) _ _ fields =>
    let rows := sortedDigests profile fields
    Shape.stream (.record (rows.map (·.1))) (rows.map (·.2))
  | mapping _ _ .generic _ _ fields =>
    Shape.stream (.mapping (NameSet.ofList (fields.map (·.1.typeName))).names)
      (unorderedDigests (fields.map (·.2)))
  | sequence _ _ kind _ _ elements =>
    Shape.stream (kindForm kind)
      (if kind = .tuple .fixed then elements.map digest else unorderedDigests elements)

variable {s : Strategies} {t : TypeTree} {children : List TypeTree}

theorem heightAbove_eq_max (children : List TypeTree) :
    heightAbove children = 1 + (children.map height).max?.getD 0 := by
  rw [heightAbove, List.foldl_max]
  exact congrArg _ (Nat.max_eq_right (Nat.zero_le _))

/-- The digests that count are those of the shapes that count. -/
theorem unorderedDigests_eq (hcoherent : ∀ c ∈ children, Coherent s c)
    (h : Shape.CollisionFree (children.map shape)) :
    Shape.digests (unorderedShapes children) = unorderedDigests children := by
  have hnamed : ∀ name, ∀ c ∈ children, c.isScalarNamed name = c.shape.isScalarNamed name :=
    fun name c hc => isScalarNamed_eq_shape_isScalarNamed (hcoherent c hc) name
  -- A node and its shape agree on whether they are `float`.
  have hfloat : (children.map shape).any (Shape.isScalarNamed "float") =
      children.any (isScalarNamed "float") := by
    rw [List.any_map, Bool.eq_iff_iff, List.any_eq_true, List.any_eq_true]
    exact exists_congr fun c => and_congr_right fun hc => by rw [hnamed "float" c hc]; rfl
  -- Whether `int` counts is asked of shapes there, and of nodes here.
  have hcounted : Shape.absorbIntegers (children.map shape) =
      (children.filter fun c =>
        !(children.any (isScalarNamed "float") && c.isScalarNamed "int")).map shape := by
    rw [Shape.absorbIntegers, hfloat]
    split
    · next hany =>
      rw [hany, List.filter_map]
      exact congrArg _ (List.filter_congr fun c hc => by rw [hnamed "int" c hc]; rfl)
    · next hnone =>
      rw [Bool.not_eq_true] at hnone
      rw [hnone]
      exact congrArg _ (List.filter_eq_self.mpr fun c _ => rfl).symm
  have hfree : Shape.CollisionFree (Shape.absorbIntegers (children.map shape)) :=
    fun a ha b hb => h a (Shape.mem_absorbIntegers.mp ha).1 b (Shape.mem_absorbIntegers.mp hb).1
  rw [Shape.digests_eq_map, unorderedShapes, Shape.map_digest_canonical hfree, hcounted,
    List.map_map]
  rfl

/-- The digests in the rows of a record are those of the shapes there. -/
theorem sortedDigests_eq (profile : RecordProfile) (fields : List (Value × TypeTree)) :
    sortedDigests profile fields =
      (sortedFields profile fields).map fun row => (row.1, row.2.digest) := by
  rw [sortedFields, @Shape.map_sortBy _ _ _ (fun a b => decide (a.1.1 ≤ b.1.1))
    (fun row : (String × Bool) × Shape => (row.1, row.2.digest)) fun _ _ => rfl, List.map_map]
  rfl

/-- A coherent node has the height that its children give, if their heights and its own are those
    of shapes. -/
theorem Coherent.height_eq_currentHeight (h : Coherent s t) (hheight : t.height = t.shape.height)
    (hchildren : ∀ c ∈ t.children, c.height = c.shape.height) : t.height = t.currentHeight := by
  cases h with
  | scalar name v type => rfl
  | @mapping name v form height shape fields _ _ _ _ hshape =>
    rw [hheight, currentHeight, ← heightAbove_eq_max, heightAbove_eq hchildren, TypeTree.shape,
      hshape]
    · exact height_shapeOfFields form fields
    · exact fun _ _ _ => TypeTree.noConfusion
  | @sequence name v kind height shape elements _ _ _ hshape =>
    rw [hheight, currentHeight, ← heightAbove_eq_max, heightAbove_eq hchildren, TypeTree.shape,
      hshape]
    · exact height_shapeOfElements kind elements
    · exact fun _ _ _ => TypeTree.noConfusion

theorem Coherent.shape_eq_currentShape (h : Coherent s t) : t.shape = t.currentShape := by
  cases h with
  | scalar name v type => rfl
  | mapping _ _ _ _ hshape => exact hshape
  | sequence _ _ _ hshape => exact hshape

/-- A coherent node has the digest that kind and children give, if the digests of the children do
    not collide. -/
theorem Coherent.digest_eq (h : Coherent s t)
    (hfree : Shape.CollisionFree (t.children.map shape)) :
    t.digest = SipHash.digest t.currentStream := by
  have hchildren : ∀ c ∈ t.children, Coherent s c := fun c hc => h.child hc
  rw [digest, h.shape_eq_currentShape]
  -- Both sides feed the same words, once those of the children have been put in order.
  cases t with
  | scalar name v type => rfl
  | mapping name v form height shape fields =>
    rw [currentShape, Shape.digest_eq]
    cases form with
    | record profile =>
      rw [shapeOfFields, Shape.fed, currentStream, sortedDigests_eq, Shape.digests_eq_map]
      simp only [List.map_map, Function.comp_def]
    | generic =>
      have hwords : Shape.digests (unorderedShapes (fields.map (·.2))) =
          unorderedDigests (fields.map (·.2)) := unorderedDigests_eq hchildren hfree
      rw [shapeOfFields, Shape.fed, currentStream, hwords]
  | sequence name v kind height shape elements =>
    rw [currentShape, Shape.digest_eq, shapeOfElements_eq, Shape.fed, currentStream]
    -- The places of a tuple of fixed size are all fed, and in their order.
    split
    · rw [Shape.digests_eq_map, List.map_map]
      rfl
    · have hwords : Shape.digests (unorderedShapes elements) = unorderedDigests elements :=
        unorderedDigests_eq hchildren hfree
      rw [hwords]

end TypeTree

namespace Inference

open TypeTree

/-- Each node of an inferred tree keeps the shape, the digest and the height that its kind and its
    children give, however they have been merged and renamed. For the digest those of the
    children must not collide, and for the height no digests that come up in inference. -/
theorem current_of_infer {run : Inference} {name : String} {v : Value} {t : TypeTree}
    (h : run.infer name v = .ok t) : ∀ u ∈ t.nodes,
      u.shape = u.currentShape ∧
      (Shape.CollisionFree (u.children.map TypeTree.shape) →
        u.digest = SipHash.digest u.currentStream) ∧
      (run.CollisionFree name v → u.height = u.currentHeight) := by
  intro u hu
  have hnode := (infer_eq_ok_iff.mp h).2
  have hcoherent := (coherent_of_node hnode).of_mem_nodes hu
  refine ⟨hcoherent.shape_eq_currentShape, hcoherent.digest_eq, fun hfree => ?_⟩
  refine hcoherent.height_eq_currentHeight (hfree.height_eq hnode hu) fun c hc => ?_
  exact hfree.height_eq hnode (mem_nodes_trans hu (mem_nodes_of_child hc (mem_nodes_self c)))

/-- Two records that become one, so the list is the list of one record. -/
theorem current_of_infer_ones : ∃ t,
    infer { registry := Registry.extended [] } "E" (.sequence .list [ones ["a"], ones ["a", "b"]]) =
      .ok t ∧ t.children.length = 1 ∧
      (∀ u ∈ t.nodes, u.height = u.currentHeight ∧ u.shape = u.currentShape) ∧
      t.digest = SipHash.digest t.currentStream := by
  obtain ⟨t, h, hlength, hfree⟩ : ∃ t,
      infer { registry := Registry.extended [] } "E" (.sequence .list [ones ["a"], ones ["a", "b"]]) =
        .ok t ∧ t.children.length = 1 ∧ Shape.CollisionFree (t.children.map TypeTree.shape) :=
    ⟨_, rfl, by decide +kernel, by decide +kernel⟩
  have hcurrent := current_of_infer h
  exact ⟨t, h, hlength,
    fun u hu => ⟨(hcurrent u hu).2.2 (by decide +kernel), (hcurrent u hu).1⟩,
    (hcurrent t (mem_nodes_self t)).2.1 hfree⟩

end Inference

end TypeSketch
