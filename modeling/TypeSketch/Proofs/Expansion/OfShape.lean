import Mathlib.Data.List.Perm.Subperm
import TypeSketch.Proofs.Expansion.Basic
import TypeSketch.Proofs.Shape.Canonical
import TypeSketch.Proofs.Tree.Collisions

/-!
# Shapes Determine Types

The type that a node stands for can be read off its shape, and its shape off its digest.
So nodes that inference takes for one are one type: they can be exchanged, or have one
declaration between them.

A shape is a normal form of an expansion. Its parts are ordered and each is there once,
integers have been absorbed, and the fields of a record are sorted. Expanding the shape
undoes none of that, but it makes no difference to an expansion.

## Main definitions

* `Shape.expand`: The type that a shape stands for.

## Theorems

* `TypeTree.Coherent.same_expand`: A node stands for the type that its shape stands for.
* `TypeTree.Coherent.expandedType_eq`: Nodes of one shape stand for one type.
* `Inference.same_type_of_digest_eq`: So do inferred nodes of one digest.
-/

namespace TypeSketch

namespace Shape

/-- The type of a form with parts of these types. Tuples have the size that the
    strategies say. -/
def expandForm (size : TupleSize) (form : Form) (parts : List Expansion) : Expansion :=
  match form with
  | .scalar rendered => .scalar rendered
  | .record fields => .record (fields.zip parts)
  | .mapping keyTypes => .mapping (NameSet.ofList keyTypes) parts
  | .list => .collection .list parts
  | .set frozen => .collection (.set frozen) parts
  | .iterator => .collection .iterator parts
  | .tuple => .collection (.tuple size) parts

mutual

/-- The type that a shape stands for. -/
def expand (size : TupleSize) : Shape → Expansion
  | node form parts => expandForm size form (expandParts size parts)

def expandParts (size : TupleSize) : List Shape → List Expansion
  | [] => []
  | part :: rest => expand size part :: expandParts size rest

end

theorem expandParts_eq_map (size : TupleSize) (parts : List Shape) :
    expandParts size parts = parts.map (expand size) := by
  induction parts with
  | nil => rfl
  | cons part rest ih => rw [expandParts, ih, List.map_cons]

theorem isScalarNamed_expand (size : TupleSize) (name : String) (shape : Shape) :
    (shape.expand size).isScalarNamed name = shape.isScalarNamed name := by
  rcases shape with ⟨form, parts⟩
  cases form <;> simp [expand, expandForm, Expansion.isScalarNamed, isScalarNamed, Expansion.head,
    Expansion.scalar, Expansion.record, Expansion.mapping, Expansion.collection, form]

end Shape

namespace TypeTree

variable {s : Strategies}

/-- The shapes that are kept of children whose order does not matter stand for the types
    of the children. -/
theorem sameSets_unorderedShapes {size : TupleSize} {children : List TypeTree}
    (h : ∀ c ∈ children, c.expand.same (c.shape.expand size) = true) :
    Expansion.SameSets (Expansion.absorbIntegers (children.map expand))
      (Expansion.absorbIntegers ((unorderedShapes children).map (Shape.expand size))) := by
  -- Whether a member is an integer or a number is seen in the expansion and in the shape alike.
  have hscalar : ∀ name, ∀ c ∈ children,
      c.expand.isScalarNamed name = c.shape.isScalarNamed name := by
    intro name c hc
    rw [Expansion.isScalarNamed_eq_of_same (h c hc), Shape.isScalarNamed_expand]
  have hfloat : (∃ e ∈ children.map expand, e.isScalarNamed "float" = true) ↔
      ∃ part ∈ children.map shape, part.isScalarNamed "float" = true := by
    constructor
    · rintro ⟨_, hmem, hf⟩
      rcases List.mem_map.mp hmem with ⟨c, hc, rfl⟩
      exact ⟨c.shape, List.mem_map_of_mem hc, by rw [← hscalar "float" c hc, hf]⟩
    · rintro ⟨_, hmem, hf⟩
      rcases List.mem_map.mp hmem with ⟨c, hc, rfl⟩
      exact ⟨c.expand, List.mem_map_of_mem hc, by rw [hscalar "float" c hc, hf]⟩
  -- The integers that the shapes have lost would be absorbed anyway.
  rw [← Expansion.absorbIntegers_idem (children.map expand)]
  refine Expansion.SameSets.absorbIntegers ⟨?_, ?_⟩
  · intro e he
    rw [Expansion.mem_absorbIntegers, hfloat] at he
    rcases he with ⟨hmem, hint⟩
    rcases List.mem_map.mp hmem with ⟨c, hc, rfl⟩
    refine ⟨_, List.mem_map_of_mem ?_, h c hc⟩
    rw [unorderedShapes, Shape.mem_canonical, Shape.mem_absorbIntegers]
    exact ⟨List.mem_map_of_mem hc, fun hf => by rw [← hscalar "int" c hc, hint hf]⟩
  · refine List.forall_mem_map.mpr fun part hpart => ?_
    rw [unorderedShapes, Shape.mem_canonical, Shape.mem_absorbIntegers] at hpart
    rcases hpart with ⟨hmem, hint⟩
    rcases List.mem_map.mp hmem with ⟨c, hc, rfl⟩
    refine ⟨c.expand, ?_, h c hc⟩
    rw [Expansion.mem_absorbIntegers, hfloat]
    exact ⟨List.mem_map_of_mem hc, fun hf => by rw [hscalar "int" c hc, hint hf]⟩

theorem same_expand_record {size : TupleSize} {name : String} {v : Value} {profile : RecordProfile}
    {height : Nat} {shape : Shape} {fields : List (Value × TypeTree)}
    (h : ∀ f ∈ fields, f.2.expand.same (f.2.shape.expand size) = true) :
    (mapping name v (.record profile) height shape fields).expand.same
      ((shapeOfFields (.record profile) fields).expand size) = true := by
  rw [expand, expandFields_eq_map, shapeOfFields, Shape.expand, Shape.expandForm,
    Shape.expandParts_eq_map, List.map_map, List.map_map]
  have hzip : ((sortedFields profile fields).map (·.1)).zip
      ((sortedFields profile fields).map (Shape.expand size ∘ (·.2))) =
        (sortedFields profile fields).map fun x => (x.1, x.2.expand size) := by
    rw [List.zip_map']
    rfl
  rw [hzip]
  refine Expansion.same_record (List.forall_mem_map.mpr fun f hf => ?_)
    (List.forall_mem_map.mpr fun x hx => ?_)
  · exact ⟨_, List.mem_map_of_mem (mem_sortedFields.mpr ⟨f, hf, rfl⟩), rfl, h f hf⟩
  · rcases mem_sortedFields.mp hx with ⟨f, hf, rfl⟩
    exact ⟨_, List.mem_map_of_mem hf, rfl, h f hf⟩

theorem same_expand_generic {size : TupleSize} {name : String} {v : Value} {height : Nat}
    {shape : Shape} {fields : List (Value × TypeTree)}
    (h : ∀ f ∈ fields, f.2.expand.same (f.2.shape.expand size) = true) :
    (mapping name v .generic height shape fields).expand.same
      ((shapeOfFields .generic fields).expand size) = true := by
  rw [expand, expandFields_eq_map, shapeOfFields, Shape.expand, Shape.expandForm,
    Shape.expandParts_eq_map, List.map_map]
  have hkeys : NameSet.ofList (NameSet.ofList (fields.map (·.1.typeName))).names =
      NameSet.ofList (fields.map (·.1.typeName)) :=
    NameSet.ext_mem fun name => NameSet.mem_ofList
  rw [hkeys]
  have hvalues := @sameSets_unorderedShapes size (fields.map (·.2)) (List.forall_mem_map.mpr h)
  rw [List.map_map] at hvalues
  exact Expansion.same_mapping hvalues

theorem same_expand_elements {name : String} {v : Value} {kind : ElementKind} {height : Nat}
    {shape : Shape} {elements : List TypeTree} (hsize : ∀ size, kind = .tuple size → size = s.tupleSize)
    (h : ∀ e ∈ elements, e.expand.same (e.shape.expand s.tupleSize) = true) :
    (sequence name v kind height shape elements).expand.same
      ((shapeOfElements kind elements).expand s.tupleSize) = true := by
  have hunordered := sameSets_unorderedShapes h
  rw [expand, expandElements_eq_map]
  cases kind with
  | tuple size =>
    -- A shape does not tell the size of a tuple, and the strategies do.
    rw [hsize size rfl]
    cases hfixed : s.tupleSize with
    | fixed =>
      rw [hfixed] at h
      rw [shapeOfElements, Shape.expand, Shape.expandForm, Shape.expandParts_eq_map, List.map_map]
      refine Expansion.same_positions (by rw [List.length_map, List.length_map]) fun i hi hi' => ?_
      rw [List.getElem_map, List.getElem_map]
      exact h _ (List.getElem_mem _)
    | anySize =>
      rw [hfixed] at hunordered
      rw [shapeOfElements, Shape.expand, Shape.expandForm, Shape.expandParts_eq_map]
      exact Expansion.same_members (by decide) hunordered
  | _ =>
    rw [shapeOfElements, Shape.expand, Shape.expandForm, Shape.expandParts_eq_map]
    exact Expansion.same_members ElementKind.noConfusion hunordered

/-- A node stands for the type that its shape stands for. -/
theorem Coherent.same_expand {t : TypeTree} (h : Coherent s t) :
    t.expand.same (t.shape.expand s.tupleSize) = true := by
  induction h with
  | scalar name v type => exact Expansion.same_refl _
  | @mapping name v form height shape fields _ _ _ _ hshape ih =>
    rw [TypeTree.shape, hshape]
    cases form with
    | record profile => exact same_expand_record ih
    | generic => exact same_expand_generic ih
  | @sequence name v kind height shape elements _ hsize _ hshape ih =>
    rw [TypeTree.shape, hshape]
    exact same_expand_elements hsize ih

/-- Nodes of one shape stand for one type. -/
theorem Coherent.expandedType_eq {t u : TypeTree} (ht : Coherent s t) (hu : Coherent s u)
    (h : t.shape = u.shape) : t.expandedType = u.expandedType := by
  rw [expandedType_eq_iff]
  refine Expansion.same_trans ht.same_expand ?_
  rw [h]
  exact Expansion.same_symm hu.same_expand

section Digests

theorem length_names_ofList_le (names : List String) :
    (NameSet.ofList names).names.length ≤ names.length := by
  have hnodup : (NameSet.ofList names).names.Nodup :=
    (NameSet.ofList names).ascending.imp String.ne_of_lt
  exact (List.Nodup.subperm hnodup fun name hname => NameSet.mem_ofList.mp hname).length_le

/-- The parts of a node's shape are shapes of its children. -/
theorem Coherent.exists_child_of_mem_parts {t : TypeTree} (h : Coherent s t) {part : Shape}
    (hpart : part ∈ t.shape.parts) : ∃ c ∈ t.children, c.shape = part := by
  -- What a shape absorbs or repeats is left out, and nothing is added.
  have hunordered : ∀ children : List TypeTree, part ∈ unorderedShapes children →
      ∃ c ∈ children, c.shape = part := by
    intro children hmem
    rw [unorderedShapes, Shape.mem_canonical, Shape.mem_absorbIntegers] at hmem
    exact List.mem_map.mp hmem.1
  -- Records and tuples of fixed size have a part for each child, and the other ones a set.
  cases h with
  | scalar name v type => exact absurd hpart List.not_mem_nil
  | @mapping name v form height shape fields _ _ _ _ hshape =>
    rw [TypeTree.shape, hshape] at hpart
    cases form with
    | record profile =>
      rcases List.mem_map.mp hpart with ⟨x, hx, rfl⟩
      rcases mem_sortedFields.mp hx with ⟨f, hf, rfl⟩
      exact ⟨f.2, List.mem_map_of_mem hf, rfl⟩
    | generic => exact hunordered _ hpart
  | @sequence name v kind height shape elements _ _ _ hshape =>
    rw [TypeTree.shape, hshape] at hpart
    cases kind with
    | tuple size =>
      cases size with
      | fixed => exact List.mem_map.mp hpart
      | anySize => exact hunordered _ hpart
    | _ => exact hunordered _ hpart

theorem Coherent.isReadable {t : TypeTree} (h : Coherent s t) (hcount : t.children.length < 2 ^ 64) :
    t.shape.IsReadable := by
  cases h with
  | scalar name v type => exact rfl
  | @mapping name v form height shape fields _ _ _ _ hshape =>
    rw [TypeTree.shape, hshape]
    cases form with
    -- The form of a record has one name for each part, and any other form can be read without
    -- counting.
    | record profile => exact (List.length_map _).trans (List.length_map _).symm
    | generic =>
      refine ⟨Nat.lt_of_le_of_lt (length_names_ofList_le _) ?_, Shape.nodup_canonical _⟩
      rw [List.length_map, ← List.length_map (·.2)]
      exact hcount
  | @sequence name v kind height shape elements _ _ _ hshape =>
    rw [TypeTree.shape, hshape]
    cases kind with
    | tuple size => cases size <;> trivial
    | _ => exact Shape.nodup_canonical _

end Digests

end TypeTree

namespace Inference

open TypeTree

/-- The digests of what comes up in inference do not collide if the hasher does not collide on what
    it is fed. Children are counted in words. -/
theorem collisionFree_of_fed {run : Inference} {name name' : String} {v w : Value}
    (hcounts : ∀ a ∈ run.made name v ++ run.made name' w, a.children.length < 2 ^ 64)
    (hfree : SipHash.CollisionFree
      ((run.made name v ++ run.made name' w).map (·.shape.fed))) :
    Shape.CollisionFree ((run.made name v ++ run.made name' w).map shape) := by
  have hmade : ∀ u ∈ run.made name v ++ run.made name' w, Coherent run.strategies u ∧
      ∀ c ∈ u.children, c.shape ∈ (run.made name v ++ run.made name' w).map shape := by
    intro u hu
    rw [List.map_append]
    rcases List.mem_append.mp hu with hu | hu
    · have hu := coherent_of_mem_made hu
      exact ⟨hu.1, fun c hc => List.mem_append_left _ (hu.2 c hc)⟩
    · have hu := coherent_of_mem_made hu
      exact ⟨hu.1, fun c hc => List.mem_append_right _ (hu.2 c hc)⟩
  refine Shape.collisionFree_of_fed ?_ ?_ ?_
  -- The parts of a shape are shapes of children.
  · refine List.forall_mem_map.mpr fun u hu p hp => ?_
    rcases (hmade u hu).1.exists_child_of_mem_parts hp with ⟨c, hc, rfl⟩
    exact (hmade u hu).2 c hc
  · exact List.forall_mem_map.mpr fun u hu => (hmade u hu).1.isReadable (hcounts u hu)
  · rw [List.map_map]
    exact hfree

/-- Two nodes that inference gives one digest stand for one type, have one height and have
    both a declaration or neither one, unless the hasher collides on what it is fed when the two
    trees are inferred. Children are counted in words. -/
theorem same_type_of_digest_eq {run : Inference} {name name' : String} {v w : Value}
    {t u : TypeTree} (ht : run.infer name v = .ok t) (hu : run.infer name' w = .ok u)
    (hcounts : ∀ a ∈ run.made name v ++ run.made name' w, a.children.length < 2 ^ 64)
    (hfree : SipHash.CollisionFree
      ((run.made name v ++ run.made name' w).map (·.shape.fed))) :
    ∀ a ∈ t.nodes ++ u.nodes, ∀ b ∈ t.nodes ++ u.nodes, a.digest = b.digest →
      a.expandedType = b.expandedType ∧ a.height = b.height ∧
        a.isAliased run.strategies = b.isAliased run.strategies := by
  intro a ha b hb hdigest
  have hdigests := collisionFree_of_fed hcounts hfree
  have hleft : run.CollisionFree name v := hdigests.mono fun _ h => by
    rw [List.map_append]
    exact List.mem_append_left _ h
  have hright : run.CollisionFree name' w := hdigests.mono fun _ h => by
    rw [List.map_append]
    exact List.mem_append_right _ h
  have ht' := (infer_eq_ok_iff.mp ht).2
  have hu' := (infer_eq_ok_iff.mp hu).2
  -- Every node of either tree is among what comes up, and its height is that of its shape.
  have hnode : ∀ c ∈ t.nodes ++ u.nodes, Coherent run.strategies c ∧ c.height = c.shape.height ∧
      c ∈ run.made name v ++ run.made name' w := by
    intro c hc
    rcases List.mem_append.mp hc with hc | hc
    · exact ⟨(coherent_of_node ht').of_mem_nodes hc, hleft.height_eq ht' hc,
        List.mem_append_left _ (mem_made_of_node ht' hc)⟩
    · exact ⟨(coherent_of_node hu').of_mem_nodes hc, hright.height_eq hu' hc,
        List.mem_append_right _ (mem_made_of_node hu' hc)⟩
  rcases hnode a ha with ⟨hca, hha, hma⟩
  rcases hnode b hb with ⟨hcb, hhb, hmb⟩
  have hshape : a.shape = b.shape :=
    hdigests _ (List.mem_map_of_mem hma) _ (List.mem_map_of_mem hmb) hdigest
  -- Type, height and declaration are those of the shape.
  refine ⟨hca.expandedType_eq hcb hshape, ?_, ?_⟩
  · rw [hha, hhb, hshape]
  · rw [hca.isAliased_eq_shape_isAliased hha, hcb.isAliased_eq_shape_isAliased hhb, hshape]

/-- A list of a float and an integer and a list of a float have one digest: the integer is
    absorbed. -/
theorem same_type_of_digest_eq_numbers :
    ∃ t u, infer {} "Readings" (.sequence .list [.atom (.float ⟨0x3ff8000000000000⟩), .int 2]) = .ok t ∧
      infer {} "Sample" (.sequence .list [.atom (.float ⟨0x4000000000000000⟩)]) = .ok u ∧
      t.children.length = 2 ∧ u.children.length = 1 ∧ t.expandedType = u.expandedType := by
  have hcollect := @same_type_of_digest_eq {} "Readings" "Sample"
    (.sequence .list [.atom (.float ⟨0x3ff8000000000000⟩), .int 2])
    (.sequence .list [.atom (.float ⟨0x4000000000000000⟩)]) _ _ rfl rfl (by decide +kernel)
    (by unfold SipHash.CollisionFree; decide +kernel)
    _ (List.mem_append_left _ (mem_nodes_self _)) _ (List.mem_append_right _ (mem_nodes_self _))
    (by decide +kernel)
  exact ⟨_, _, rfl, rfl, rfl, rfl, hcollect.1⟩

end Inference

end TypeSketch
